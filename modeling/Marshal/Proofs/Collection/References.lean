import Marshal.Proofs.Host.Lasting
import Marshal.Proofs.Session.Workspace

/-!
# `Proofs.Collection.References` — references to nodes

A reference to a node is a number, and what is read through it is looked up each time: the number
leads to a collection and a place there, and the place to the node. Whatever the library and the
host do in the meantime, as long as the collection is live the place is the same and so is the node.
From when the collection is freed the number leads nowhere, and it is not given out again.

## Contents

* `Turn`, `Workspace.turns` — the library and its host by turns;
* `Session.Later` — what a session becomes, with `Running.later`;
* `Session.StillRefers`, `Session.Stale` — what is read through a reference, before and after the
  end of its collection;
* `node_references_last` — the one until the collection is freed, the other one from then on.
-/

namespace Marshal

open Marshal.Host

/-! ## Turns -/

/-- Something that happens: the library does something, or the host is asked for something from its
own side. -/
inductive Turn
  | library (op : LibraryOp)
  | host (r : Request)

namespace Workspace

def turn (ws : Workspace) : Turn → Workspace
  | .library op => ws.step op
  | .host r => { ws with session := { ws.session with host := ws.session.host.answer r } }

/-- Turns, one after the other. -/
def turns (ws : Workspace) (ts : List Turn) : Workspace := ts.foldl turn ws

end Workspace

/-- **A session has become another one** if its host has been asked for something. -/
def Session.Later (s t : Session) : Prop :=
  ∃ requests : List Request, t = { s with host := s.host.run requests }

namespace Session.Later

variable {s t u : Session}

theorem trans (h : s.Later t) (h' : t.Later u) : s.Later u := by
  obtain ⟨first, rfl⟩ := h
  obtain ⟨rest, rfl⟩ := h'
  refine ⟨first ++ rest, ?_⟩
  simp only [Host.run, List.foldl_append]

theorem turns (ws : Workspace) (ts : List Turn) : ws.session.Later (ws.turns ts).session := by
  induction ts generalizing ws with
  | nil => exact ⟨[], rfl⟩
  | cons t rest ih =>
    refine trans ?_ (ih (ws.turn t))
    cases t with
    | library op =>
      obtain ⟨requests, hsession, -⟩ := op.served ws.vars ws.session
      exact ⟨requests, (ws.session_step op).trans hsession⟩
    | host r => exact ⟨[r], rfl⟩

theorem lasts (h : s.Later t) : Lasts s.host t.host := by
  obtain ⟨requests, rfl⟩ := h
  exact run_lasts s.host requests

/-- A session goes on running, and the numbers that have been given out stay given out. -/
theorem history {made : List (Handle × Use)} (h : s.Later t) (past : History made s.host) :
    ∃ more, History (made ++ more) t.host := by
  obtain ⟨requests, rfl⟩ := h
  exact past.run requests

theorem running (h : s.Later t) (running : s.Running) : t.Running := by
  obtain ⟨made, past⟩ := running.hosted
  obtain ⟨more, past'⟩ := h.history past
  obtain ⟨requests, rfl⟩ := h
  exact ⟨running.attached, running.registered, _, past'⟩

end Session.Later

/-! ## Places -/

namespace Host

variable {made made' : List (Handle × Use)} {w w' : Host} {c : Handle} {p : Nat} {n : Node}

/-- While a collection is live, its nodes are the first ones of those that it will have. -/
theorem Lasts.nodesOf (lasts : Lasts w w') (given : c < w.nextId)
    (live : w'.collections.contains c = true) : w.nodesOf c <+: w'.nodesOf c := by
  obtain ⟨nodes', live'⟩ := Table.contains_iff.mp live
  obtain ⟨nodes, hnodes, hprefix⟩ := lasts.nodes c nodes' given live'
  rw [Host.nodesOf, Host.nodesOf, hnodes, live']
  exact hprefix

/-- A collection that is gone does not come back. -/
theorem Lasts.dead (lasts : Lasts w w') (given : c < w.nextId)
    (dead : w.collections.contains c = false) : w'.collections.contains c = false := by
  by_contra live
  obtain ⟨nodes', live'⟩ := Table.contains_iff.mp (Bool.not_eq_false _ ▸ live)
  obtain ⟨nodes, hnodes, -⟩ := lasts.nodes c nodes' given live'
  rw [Table.contains_of_get? hnodes] at dead
  cases dead

/-- A node is where it was, as long as its collection is live. -/
theorem Lasts.found (lasts : Lasts w w') (sound : Sound made w)
    (found : (w.nodesOf c)[p]? = some n) (live : w'.collections.contains c = true) :
    (w'.nodesOf c)[p]? = some n := by
  have hc : w.names .collection c = true := Table.contains_of_get? (sound.place_of_node found).2
  obtain ⟨rest, hrest⟩ := lasts.nodesOf (sound.lt_next hc).2 live
  rw [← hrest]
  exact List.getElem?_append_left (List.getElem?_eq_some_iff.mp found).1 ▸ found

/-- The number of a node leads nowhere once its collection is gone. -/
theorem Lasts.lost (lasts : Lasts w w') (sound : Sound made w) (sound' : Sound made' w')
    (found : (w.nodesOf c)[p]? = some n) (dead : w'.collections.contains c = false) :
    w'.places.get? n.id = none := by
  obtain ⟨hplace, -⟩ := sound.place_of_node found
  have hid : w.names .node n.id = true := Table.contains_of_get? hplace
  cases hplace' : w'.places.get? n.id with
  | none => rfl
  | some place =>
    -- the place would be the one that it had, in a collection that is not there any more
    have hsame := lasts.place n.id place (sound.lt_next hid).2 hplace'
    obtain rfl := Option.some.inj (hplace.symm.trans hsame)
    obtain ⟨nodes, m, hlive, -, -⟩ := (sound'.place_iff n.id c p).mp hplace'
    rw [Table.contains_of_get? hlive] at dead
    cases dead

end Host

/-! ## What is read through a reference -/

/-- **A reference to a node of a live collection.** It reports what it did before, the nodes that
there were are still the first ones, and the next node is the one behind it, or null if it is the
last one. -/
structure Session.StillRefers (s t : Session) (c h : Handle) : Prop where
  reported : t.reported h = s.reported h
  payload : t.nodePayload h = s.nodePayload h
  nodes : s.nodes c <+: t.nodes c
  next : ∃ before after, t.nodes c = before ++ h :: after ∧
    t.nextNode h = after.head?.getD Handle.null
  last : t.nextNode h = Handle.null ↔ t.back c = h

/-- **A reference whose collection is gone.** It denotes no node of any collection. -/
structure Session.Stale (s : Session) (h : Handle) : Prop where
  kind : s.nodeKind h = .erased
  name : s.nodeName h = none
  next : s.nextNode h = Handle.null
  payload : s.nodePayload h = .error .nodeData
  value : s.nodeValue h = .error .nodeData
  error : (s.registry.errorOf .nodeData).kind.name = "DLGetNodeDataError"
  absent : ∀ c, h ∉ s.nodes c

namespace Session

variable {made : List (Handle × Use)} {s t u : Session} {c : Handle} {p : Nat} {n : Node}

/-- A number without a place is stale. -/
theorem stale_of_lost (running : s.Running) {h : Handle} (hnull : h ≠ Handle.null)
    (lost : s.host.places.get? h = none) : s.Stale h := by
  have hnode : s.host.node? h = none := by
    show (s.host.places.get? h).bind _ = none
    rw [lost]
    rfl
  have hpayload : s.nodePayload h = .error .nodeData := by
    rw [nodePayload, if_neg hnull, ask_of_attached running.attached, hnode]
  constructor
  case kind =>
    rw [nodeKind, if_neg hnull, ask_of_attached running.attached, Host.nodeKind, hnode]
    rfl
  case name =>
    rw [nodeName, if_neg hnull, ask_of_attached running.attached, hnode]
    rfl
  case next =>
    rw [nextNode, if_neg hnull, ask_of_attached running.attached]
    show handleOf ((s.host.places.get? h).bind _) = _
    rw [lost]
    rfl
  case payload => exact hpayload
  case value =>
    rw [nodeValue, hpayload]
    rfl
  case error => exact running.name_errorOf .nodeData
  case absent =>
    intro c mem
    obtain ⟨made, past⟩ := running.hosted
    rw [(running.listed c).nodes] at mem
    obtain ⟨n, hn, rfl⟩ := List.mem_map.mp mem
    obtain ⟨p, found⟩ := List.mem_iff_getElem?.mp hn
    cases lost.symm.trans (past.sound.place_of_node found).1

/-- The node that follows a place in a list is the first one of the rest. -/
theorem handleOf_drop (nodes : List Node) (p : Nat) :
    handleOf nodes[p + 1]? = ((nodes.drop (p + 1)).map (·.id)).head?.getD Handle.null := by
  rw [handleOf, List.head?_map, List.head?_drop]

/-- Nothing comes after the last one of a list, in which all are different and none is null. -/
theorem head?_eq_null_iff {before after : List Handle} {h : Handle}
    (distinct : (before ++ h :: after).Nodup) (proper : Handle.null ∉ before ++ h :: after) :
    after.head?.getD Handle.null = Handle.null ↔
      (before ++ h :: after).getLast?.getD Handle.null = h := by
  cases after with
  | nil => simp
  | cons k rest =>
    have hk : k ≠ Handle.null := by
      rintro rfl
      exact proper (by simp)
    have hlast : (before ++ h :: k :: rest).getLast? =
        some ((k :: rest).getLast (List.cons_ne_nil k rest)) := by
      rw [List.getLast?_append_cons, List.getLast?_cons_cons,
        List.getLast?_eq_some_getLast (List.cons_ne_nil k rest)]
    refine iff_of_false hk fun hsame => ?_
    rw [hlast] at hsame
    exact (List.nodup_cons.mp (List.nodup_append.mp distinct).2.1).1
      (hsame ▸ List.getLast_mem (List.cons_ne_nil k rest))

/-- **While its collection is live, a reference refers to the same node.** -/
theorem stillRefers (running : s.Running) (later : s.Later t)
    (found : (s.host.nodesOf c)[p]? = some n) (live : t.host.collections.contains c = true) :
    s.StillRefers t c n.id := by
  obtain ⟨made, past⟩ := running.hosted
  obtain ⟨more, past'⟩ := later.history past
  have running' := later.running running
  have sound := past.sound
  have sound' := past'.sound
  have found' := later.lasts.found sound found live
  have mem := List.mem_of_getElem? found
  have mem' := List.mem_of_getElem? found'
  have hc : s.host.names .collection c = true :=
    Table.contains_of_get? (sound.place_of_node found).2
  have hlisted := running'.listed c
  have hnext : t.nextNode n.id =
      (((t.host.nodesOf c).drop (p + 1)).map (·.id)).head?.getD Handle.null := by
    rw [nextNode_of_place running'.attached sound' found', handleOf_drop]
  have hsplit : (t.host.nodesOf c).map (·.id) = ((t.host.nodesOf c).take p).map (·.id) ++
      n.id :: ((t.host.nodesOf c).drop (p + 1)).map (·.id) := by
    obtain ⟨hlt, hn⟩ := List.getElem?_eq_some_iff.mp found'
    rw [← hn, ← List.map_cons, ← List.map_append, List.getElem_cons_drop, List.take_append_drop]
  constructor
  case reported =>
    rw [reported_of_mem running.attached sound mem, reported_of_mem running'.attached sound' mem']
  case payload =>
    rw [nodePayload_of_mem running.attached sound mem,
      nodePayload_of_mem running'.attached sound' mem']
  case nodes =>
    rw [(running.listed c).nodes, hlisted.nodes]
    exact (later.lasts.nodesOf (sound.lt_next hc).2 live).map _
  case next => exact ⟨_, _, hlisted.nodes.trans hsplit, hnext⟩
  case last =>
    have hproper : Handle.null ∉ (t.host.nodesOf c).map (·.id) := by
      intro hnull
      obtain ⟨m, hm, hid⟩ := List.mem_map.mp hnull
      exact sound'.node_not_null hm hid
    have hdistinct := hlisted.distinct
    rw [hsplit] at hproper hdistinct
    rw [hnext, hlisted.back, hsplit]
    exact head?_eq_null_iff hdistinct hproper

end Session

/-! ## References to nodes -/

/-- **A reference means the same node until the collection of the node is freed, and nothing from
then on.** The collection is live as long as no free is counted for it, and only when something that
owns it is freed is one counted. While it is live, the reference reports what it did, and once
another node follows, that one goes on to follow. When it is not live any more, the reference is
stale whatever happens. -/
theorem node_references_last {ws : Workspace} (running : ws.session.Running) {c h : Handle}
    (mem : h ∈ ws.session.nodes c) (ts : List Turn) :
    let now := (ws.turns ts).session
    ((now.host.collections.contains c = true ∧ now.host.freesOf c = 0) ∨
      (now.host.collections.contains c = false ∧ now.host.freesOf c = 1)) ∧
    (∀ r, now.host.collections.contains c = true →
      (now.host.answer r).collections.contains c = false →
        ∃ d, r = .freeCollection d ∧ Owned now.host.collections [.collection d] (.collection c)) ∧
    (now.host.collections.contains c = true → ws.session.StillRefers now c h ∧
      ∀ more, ((ws.turns ts).turns more).session.host.collections.contains c = true →
        now.nextNode h ≠ Handle.null →
          ((ws.turns ts).turns more).session.nextNode h = now.nextNode h) ∧
    (now.host.collections.contains c = false → ∀ more,
      ((ws.turns ts).turns more).session.host.collections.contains c = false ∧
        ((ws.turns ts).turns more).session.Stale h) := by
  intro now
  obtain ⟨made, past⟩ := running.hosted
  have later : ws.session.Later now := .turns ws ts
  have running' := later.running running
  obtain ⟨more, past'⟩ := later.history past
  have sound := past.sound
  have sound' := past'.sound
  -- the node and its place
  rw [(running.listed c).nodes] at mem
  obtain ⟨n, hn, rfl⟩ := List.mem_map.mp mem
  obtain ⟨p, found⟩ := List.mem_iff_getElem?.mp hn
  obtain ⟨hplace, hc⟩ := sound.place_of_node found
  have hcollection : (c, .collection) ∈ made :=
    sound.named .collection c (Table.contains_of_get? hc)
  have hnode : ws.session.host.names .node n.id = true := Table.contains_of_get? hplace
  refine ⟨sound'.frees_owned (List.mem_append_left more hcollection) (.inr rfl),
    fun r live dead => contains_collections_answer sound'.is_bounded live dead, fun live => ?_,
    fun dead others => ?_⟩
  · refine ⟨Session.stillRefers running later found live, fun others live' hnext => ?_⟩
    have later' : now.Later ((ws.turns ts).turns others).session := .turns _ others
    have running'' := later'.running running'
    obtain ⟨_, past''⟩ := later'.history past'
    have found' := later.lasts.found sound found live
    rw [Session.nextNode_of_place running'.attached sound' found'] at hnext ⊢
    rw [Session.nextNode_of_place running''.attached past''.sound
      (later'.lasts.found sound' found' live')]
    -- the node that follows has a place of its own, which it keeps
    cases hfollows : (now.host.nodesOf c)[p + 1]? with
    | none =>
      rw [hfollows] at hnext
      exact absurd rfl hnext
    | some m => rw [later'.lasts.found sound' hfollows live']
  · have later' : now.Later ((ws.turns ts).turns others).session := .turns _ others
    obtain ⟨_, past''⟩ := later'.history past'
    have given : c < now.host.nextId :=
      (sound'.bounds _ (List.mem_append_left more hcollection)).2
    have dead' := later'.lasts.dead given dead
    have hnull : n.id ≠ Handle.null := Nat.ne_of_gt (sound.lt_next hnode).1
    have lost := (later.trans later').lasts.lost sound past''.sound found dead'
    exact ⟨dead', Session.stale_of_lost (later'.running running') hnull lost⟩

/-- A session with a list of one node. -/
def listOfOne : Session where
  host := Host.run {} [.newCollection, .addNode 1 (some [97]) (.integer 5)]

/-- The library appends to the list. -/
def appendingTurns : List Turn :=
  [.library (.adopt 0 .collection .manual 1), .library (.insert 0 none (.value (.boolean true)))]

/-- The library drops the list. -/
def droppingTurns : List Turn := appendingTurns ++ [.library (.move (.drop 0))]

/-- The host makes another list with a node. -/
def furtherTurns : List Turn := [.host .newCollection, .host (.addNode 4 none (.integer 6))]

/-- The reference reports the same when a node has been appended, and is stale when the list has
been dropped, also after there is another list. -/
theorem node_references_last_appended :
    (Workspace.turns ⟨listOfOne, {}⟩ appendingTurns).session.reported 2 = listOfOne.reported 2 ∧
      ((Workspace.turns ⟨listOfOne, {}⟩ droppingTurns).turns furtherTurns).session.Stale 2 := by
  obtain ⟨made, past⟩ := History.start.run [.newCollection, .addNode 1 (some [97]) (.integer 5)]
  have running : listOfOne.Running := ⟨rfl, ⟨[], rfl⟩, made, past⟩
  have mem : 2 ∈ listOfOne.nodes 1 := by decide +kernel
  obtain ⟨-, -, refers, -⟩ :=
    @node_references_last ⟨listOfOne, {}⟩ running 1 2 mem appendingTurns
  obtain ⟨-, -, -, stale⟩ :=
    @node_references_last ⟨listOfOne, {}⟩ running 1 2 mem droppingTurns
  have hgone : (Workspace.turns ⟨listOfOne, {}⟩ droppingTurns).session.host.collections.get? 1 =
      none := by
    show ((Workspace.turns ⟨listOfOne, {}⟩ appendingTurns).session.host.freeAll
      [.collection 1]).collections.get? 1 = none
    rw [get?_collections_freeAll, if_pos (.here (List.mem_singleton.mpr rfl))]
  have hdead : (Workspace.turns ⟨listOfOne, {}⟩ droppingTurns).session.host.collections.contains 1 =
      false := by
    rw [Table.contains, hgone]
    rfl
  exact ⟨(refers (by decide +kernel)).1.reported, (stale hdead furtherTurns).2⟩

end Marshal
