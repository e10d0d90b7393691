import Marshal.Collection.Node
import Marshal.Proofs.Host.History

/-!
# `Proofs.Collection.Order` — a collection read node by node is a list

Nodes are found by their numbers: a table gives each one its collection and its place there, and the
next node is looked for at the place behind it. For a host whose tables are in step, going from node
to node lists the nodes of the collection and comes to an end, and each node reports what it holds.

## Contents

* `Host.nodesOf`, `Node.reported`, `Session.reported` — what is there, and what is told about it;
* `node?_of_place`, `nextNode_of_place` — the way from a number to a node, and on to the next one;
* `Session.Listed` — a collection read as a list;
* `Session.listed`, `Session.map_reported` — what a session with a sound host reads.
-/

namespace Marshal

open Marshal.Host Marshal.Text

/-! ## What is there and what is told -/

/-- The nodes of a collection, none if it is gone. -/
def Host.nodesOf (w : Host) (c : Handle) : List Node := (w.collections.get? c).getD []

/-- What a node reports: its name, its kind and its value. -/
def Node.reported (n : Node) : Option String × Kind × Except Fault Value :=
  (n.name.map lossyString, n.payload.kind, .ok n.payload.value)

/-- What is reported for a reference to a node. -/
def Session.reported (s : Session) (n : Handle) : Option String × Kind × Except Fault Value :=
  (s.nodeName n, s.nodeKind n, s.nodeValue n)

/-! ## From numbers to nodes -/

namespace Host.Sound

variable {made : List (Handle × Use)} {w : Host} {c : Handle} {p : Nat} {n : Node}

/-- A node of a collection is registered under its place. -/
theorem place_of_node (sound : Sound made w) (found : (w.nodesOf c)[p]? = some n) :
    w.places.get? n.id = some (c, p) ∧ w.collections.get? c = some (w.nodesOf c) := by
  cases hc : w.collections.get? c with
  | none =>
    rw [nodesOf, hc] at found
    cases found
  | some nodes =>
    have hnodes : w.nodesOf c = nodes := by rw [nodesOf, hc]; rfl
    rw [hnodes] at found
    exact ⟨(sound.place_iff n.id c p).mpr ⟨nodes, n, hc, found, rfl⟩, congrArg some hnodes.symm⟩

theorem node?_of_place (sound : Sound made w) (found : (w.nodesOf c)[p]? = some n) :
    w.node? n.id = some n := by
  obtain ⟨hplace, hc⟩ := sound.place_of_node found
  show (w.places.get? n.id).bind _ = some n
  rw [hplace]
  show (w.collections.get? c).bind _ = some n
  rw [hc]
  exact found

/-- **The next node is the one at the next place.** -/
theorem nextNode_of_place (sound : Sound made w) (found : (w.nodesOf c)[p]? = some n) :
    w.nextNode n.id = handleOf (w.nodesOf c)[p + 1]? := by
  obtain ⟨hplace, hc⟩ := sound.place_of_node found
  show handleOf ((w.places.get? n.id).bind _) = _
  rw [hplace]
  show handleOf ((w.collections.get? c).bind _) = _
  rw [hc]
  rfl

/-- No node has the null handle. -/
theorem node_not_null (sound : Sound made w) (mem : n ∈ w.nodesOf c) : n.id ≠ Handle.null := by
  obtain ⟨p, found⟩ := List.mem_iff_getElem?.mp mem
  have hnamed : w.names .node n.id = true :=
    Table.contains_of_get? (sound.place_of_node found).1
  exact Nat.pos_iff_ne_zero.mp (sound.lt_next hnamed).1

/-- The nodes of a collection have different numbers. -/
theorem nodup_nodesOf (sound : Sound made w) (c : Handle) : ((w.nodesOf c).map (·.id)).Nodup := by
  rw [List.Nodup, List.pairwise_iff_getElem]
  intro i j hi hj hlt hsame
  rw [List.getElem_map, List.getElem_map] at hsame
  rw [List.length_map] at hi hj
  -- nodes with one number are registered under one place
  have hplace := (sound.place_of_node (List.getElem?_eq_getElem hi)).1
  have hplace' := (sound.place_of_node (List.getElem?_eq_getElem hj)).1
  rw [hsame, hplace'] at hplace
  cases hplace
  exact Nat.lt_irrefl _ hlt

/-- Null is no collection. -/
theorem nodesOf_null (sound : Sound made w) : w.nodesOf Handle.null = [] := by
  cases hc : w.collections.get? Handle.null with
  | none => rw [nodesOf, hc]; rfl
  | some nodes =>
    have hnamed : w.names .collection Handle.null = true := Table.contains_of_get? hc
    exact absurd (sound.lt_next hnamed).1 (Nat.lt_irrefl 0)

end Host.Sound

/-! ## The ends of a collection -/

namespace Host

variable (w : Host) (c : Handle)

theorem collectionLength_eq : w.collectionLength c = (w.nodesOf c).length := by
  unfold collectionLength nodesOf
  cases w.collections.get? c <;> rfl

theorem firstNode_eq : w.firstNode c = handleOf (w.nodesOf c)[0]? := by
  unfold firstNode nodesOf
  cases w.collections.get? c with
  | none => rfl
  | some nodes => cases nodes <;> rfl

theorem lastNode_eq : w.lastNode c = handleOf (w.nodesOf c).getLast? := by
  unfold lastNode nodesOf
  cases w.collections.get? c <;> rfl

end Host

/-! ## A collection read as a list -/

namespace Session

/-- **A collection reads as a list of nodes.** Going through it ends, whatever the number of steps
that one is ready to go. -/
structure Listed (s : Session) (list : Handle) (ids : List Handle) : Prop where
  nodes : s.nodes list = ids
  walk : ∀ count, ids.length ≤ count → s.nodesFrom count (s.front list) = ids
  length : s.collectionLength list = ids.length
  front : s.front list = ids.head?.getD Handle.null
  back : s.back list = ids.getLast?.getD Handle.null
  next_back : s.nextNode (s.back list) = Handle.null
  front_null : s.front list = Handle.null ↔ ids = []
  back_null : s.back list = Handle.null ↔ ids = []
  distinct : ids.Nodup

variable {made : List (Handle × Use)} {s : Session} {c : Handle} {p : Nat} {n : Node}

theorem ask_of_attached {α : Type} (attached : s.attached = true) (detached : α)
    (question : Host → α) : s.ask detached question = question s.host := by
  rw [ask, if_pos attached]

theorem nextNode_of_place (attached : s.attached = true) (sound : Sound made s.host)
    (found : (s.host.nodesOf c)[p]? = some n) :
    s.nextNode n.id = handleOf (s.host.nodesOf c)[p + 1]? := by
  have hnull := sound.node_not_null (List.mem_of_getElem? found)
  rw [nextNode, if_neg hnull, ask_of_attached attached]
  exact sound.nextNode_of_place found

/-- **Going from a node on lists the nodes from its place on.** -/
theorem nodesFrom_of_place (attached : s.attached = true) (sound : Sound made s.host)
    (count p : Nat) : s.nodesFrom count (handleOf (s.host.nodesOf c)[p]?) =
      (((s.host.nodesOf c).drop p).map (·.id)).take count := by
  induction count generalizing p with
  | zero => rfl
  | succ count ih =>
    cases found : (s.host.nodesOf c)[p]? with
    | none =>
      have hend : (s.host.nodesOf c).drop p = [] :=
        List.drop_eq_nil_iff.mpr (List.getElem?_eq_none_iff.mp found)
      rw [hend]
      rfl
    | some n =>
      have hnull := sound.node_not_null (List.mem_of_getElem? found)
      have hdrop : (s.host.nodesOf c).drop p = n :: (s.host.nodesOf c).drop (p + 1) := by
        obtain ⟨hlt, rfl⟩ := List.getElem?_eq_some_iff.mp found
        exact List.drop_eq_getElem_cons hlt
      show (if n.id = Handle.null then [] else n.id :: s.nodesFrom count (s.nextNode n.id)) = _
      rw [if_neg hnull, nextNode_of_place attached sound found, ih, hdrop]
      rfl

theorem collectionLength_eq (attached : s.attached = true) (sound : Sound made s.host) (c : Handle) :
    s.collectionLength c = (s.host.nodesOf c).length := by
  by_cases hnull : c = Handle.null
  · rw [hnull, sound.nodesOf_null]
    rfl
  · rw [collectionLength, if_neg hnull, ask_of_attached attached, s.host.collectionLength_eq]

theorem front_eq (attached : s.attached = true) (sound : Sound made s.host) (c : Handle) :
    s.front c = handleOf (s.host.nodesOf c)[0]? := by
  by_cases hnull : c = Handle.null
  · rw [hnull, sound.nodesOf_null]
    rfl
  · rw [front, if_neg hnull, ask_of_attached attached, s.host.firstNode_eq]

theorem back_eq (attached : s.attached = true) (sound : Sound made s.host) (c : Handle) :
    s.back c = handleOf (s.host.nodesOf c).getLast? := by
  by_cases hnull : c = Handle.null
  · rw [hnull, sound.nodesOf_null]
    rfl
  · rw [back, if_neg hnull, ask_of_attached attached, s.host.lastNode_eq]

/-- No node follows the last one. -/
theorem nextNode_back (attached : s.attached = true) (sound : Sound made s.host) (c : Handle) :
    s.nextNode (s.back c) = Handle.null := by
  rw [back_eq attached sound]
  cases hlast : (s.host.nodesOf c).getLast? with
  | none => rfl
  | some n =>
    rw [List.getLast?_eq_getElem?] at hlast
    show s.nextNode n.id = Handle.null
    rw [nextNode_of_place attached sound hlast]
    have hend : (s.host.nodesOf c)[(s.host.nodesOf c).length - 1 + 1]? = none := by
      rw [List.getElem?_eq_none_iff]
      omega
    rw [hend]
    rfl

/-- The end of a collection is null only if there is no node. -/
theorem handleOf_eq_null_iff (sound : Sound made s.host) {found : Option Node}
    (mem : ∀ n, found = some n → n ∈ s.host.nodesOf c) :
    handleOf found = Handle.null ↔ found = none := by
  cases found with
  | none => exact iff_of_true rfl rfl
  | some n => exact iff_of_false (sound.node_not_null (mem n rfl)) (Option.some_ne_none n)

/-- **What a session reads of a collection is what the host has there.** -/
theorem listed (attached : s.attached = true) (sound : Sound made s.host) (c : Handle) :
    s.Listed c ((s.host.nodesOf c).map (·.id)) := by
  have hwalk : ∀ count, (s.host.nodesOf c).length ≤ count →
      s.nodesFrom count (s.front c) = (s.host.nodesOf c).map (·.id) := by
    intro count hcount
    rw [front_eq attached sound, nodesFrom_of_place attached sound, List.drop_zero,
      List.take_of_length_le]
    rwa [List.length_map]
  have hlength := collectionLength_eq attached sound c
  constructor
  case nodes =>
    show s.nodesFrom (s.collectionLength c).toNat (s.front c) = _
    rw [hlength, Int.toNat_natCast]
    exact hwalk _ (Nat.le_refl _)
  case walk =>
    intro count hcount
    rw [List.length_map] at hcount
    exact hwalk count hcount
  case length => rw [hlength, List.length_map]
  case front =>
    rw [front_eq attached sound, List.head?_map, List.head?_eq_getElem?]
    rfl
  case back =>
    rw [back_eq attached sound, List.getLast?_map]
    rfl
  case next_back => exact nextNode_back attached sound c
  case front_null =>
    rw [front_eq attached sound, handleOf_eq_null_iff sound fun n => List.mem_of_getElem?,
      ← List.head?_eq_getElem?, List.head?_eq_none_iff, List.map_eq_nil_iff]
  case back_null =>
    rw [back_eq attached sound, handleOf_eq_null_iff sound fun n => List.mem_of_getLast?,
      List.getLast?_eq_none_iff, List.map_eq_nil_iff]
  case distinct => exact sound.nodup_nodesOf c

/-! ## What the nodes report -/

theorem nodeName_of_mem (attached : s.attached = true) (sound : Sound made s.host)
    (mem : n ∈ s.host.nodesOf c) : s.nodeName n.id = n.name.map lossyString := by
  obtain ⟨p, found⟩ := List.mem_iff_getElem?.mp mem
  rw [nodeName, if_neg (sound.node_not_null mem), ask_of_attached attached, sound.node?_of_place found]
  rfl

theorem nodeKind_of_mem (attached : s.attached = true) (sound : Sound made s.host)
    (mem : n ∈ s.host.nodesOf c) : s.nodeKind n.id = n.payload.kind := by
  obtain ⟨p, found⟩ := List.mem_iff_getElem?.mp mem
  rw [nodeKind, if_neg (sound.node_not_null mem), ask_of_attached attached, Host.nodeKind,
    sound.node?_of_place found]
  rfl

theorem nodePayload_of_mem (attached : s.attached = true) (sound : Sound made s.host)
    (mem : n ∈ s.host.nodesOf c) : s.nodePayload n.id = .ok n.payload := by
  obtain ⟨p, found⟩ := List.mem_iff_getElem?.mp mem
  rw [nodePayload, if_neg (sound.node_not_null mem), ask_of_attached attached,
    sound.node?_of_place found]

theorem nodeValue_of_mem (attached : s.attached = true) (sound : Sound made s.host)
    (mem : n ∈ s.host.nodesOf c) : s.nodeValue n.id = .ok n.payload.value := by
  have hread : n.payload.valueAs? n.payload.kind = some n.payload.value := by
    rw [Payload.valueAs?, if_neg n.payload.kind_ne_erased, Payload.readAs_kind]
  unfold nodeValue
  rw [nodePayload_of_mem attached sound mem, nodeKind_of_mem attached sound mem]
  simp only [Bind.bind, Except.bind, hread]
  rfl

/-- **A node reports what it holds.** -/
theorem reported_of_mem (attached : s.attached = true) (sound : Sound made s.host)
    (mem : n ∈ s.host.nodesOf c) : s.reported n.id = n.reported := by
  rw [Session.reported, Node.reported, nodeName_of_mem attached sound mem,
    nodeKind_of_mem attached sound mem, nodeValue_of_mem attached sound mem]

theorem map_reported (attached : s.attached = true) (sound : Sound made s.host) (c : Handle) :
    ((s.host.nodesOf c).map (·.id)).map s.reported = (s.host.nodesOf c).map Node.reported := by
  rw [List.map_map]
  exact List.map_congr_left fun n mem => reported_of_mem attached sound mem

end Session

end Marshal
