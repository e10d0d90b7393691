import Mathlib.Data.List.Lattice
import Mathlib.Data.List.Perm.Subperm
import Marshal.Proofs.Host.Frame
import Marshal.Proofs.Host.Requests

/-!
# `Proofs.Host.Copy` — copies are exact and disjoint

A copy of a collection looks like the collection: `Copied` relates the contents of one state of the
host to contents of another that unfold to the same tree, except that copied arrays are not shared
with anybody. Copying looks up every handle when it gets to it. So a copy succeeds exactly if all
that the collection owns is live, provided that nothing in it refers to a number which the copying
itself gives out; `copyCollection_early` shows that this cannot be left out.

## Contents

* `Live`, `Acyclic`, `Settled`, `Copied` — the vocabulary of the statement;
* `Shallow`, `Acyclic.shallow` — a collection that does not contain itself is not nested deeply;
* `Progress` — what holds while nodes are being copied;
* `Resembles`, `copyFrom_isSome` — what a copy looks like and when there is one;
* `copyCollection_spec` — both together.
-/

namespace Marshal.Host

open Marshal.Text

/-! ## Vocabulary -/

/-- What contents refer to is live, if the host stores it at all. -/
def Live (w : Host) (p : Payload) : Prop := ∀ u h, p.stored = some (u, h) → w.names u h = true

/-- No live collection that a collection owns, itself included, is owned by its own nodes. -/
def Acyclic (live : Table (List Node)) (c : Handle) : Prop :=
  ∀ d nodes, Owned live [.collection c] (.collection d) → live.get? d = some nodes →
    ¬ Owned live (nodes.map (·.payload)) (.collection d)

/-- Contents do not own anything with a number that is given out between two points. -/
def Settled (live : Table (List Node)) (start stop : Handle) (p : Payload) : Prop :=
  ∀ q u h, Owned live [p] q → q.stored = some (u, h) → h < start ∨ stop ≤ h

/-- Contents of one state of the host unfold to the same tree as contents of another one: the same
    names and the same numbers and texts in the same order, and arrays with the same elements. -/
inductive Copied (w w' : Host) : Payload → Payload → Prop
  | plain {p : Payload} (taken : p.stored = none) : Copied w w' p p
  | tensor {h h' : Handle} {a : Dense} (source : w.arrays.get? h = some a)
      (copy : w'.arrays.get? h' = some { a with shares := 0 }) : Copied w w' (.tensor h) (.tensor h')
  | numericArray {h h' : Handle} {a : Dense} (source : w.arrays.get? h = some a)
      (copy : w'.arrays.get? h' = some { a with shares := 0 }) :
      Copied w w' (.numericArray h) (.numericArray h')
  | collection {c c' : Handle} {nodes nodes' : List Node}
      (source : w.collections.get? c = some nodes) (copy : w'.collections.get? c' = some nodes')
      (names : nodes'.map (·.name) = nodes.map (·.name))
      (inner : ∀ q ∈ nodes.zip nodes', Copied w w' q.1.payload q.2.payload) :
      Copied w w' (.collection c) (.collection c')

/-! ## Following one thing -/

section Following

variable {live : Table (List Node)} {c d : Handle} {nodes : List Node} {n : Node}
  {p q : Payload}

theorem owned_self : Owned live [p] p := .here (List.mem_singleton.mpr rfl)

/-- What a node of a live collection owns, the collection owns. -/
theorem owned_of_node (found : live.get? c = some nodes) (mem : n ∈ nodes)
    (h : Owned live [n.payload] q) : Owned live [.collection c] q :=
  .trans (.inside owned_self found mem) h

/-- Contents that are no collection own nothing else. -/
theorem owned_of_not_collection (hp : ∀ c, p ≠ .collection c) (h : Owned live [p] q) : q = p := by
  rcases (owned_cons_leaf fun c hc => absurd hc (hp c)).mp h with heq | hnil
  · exact heq
  · exact absurd hnil not_owned_nil

/-- A live collection owns itself and what its nodes own. -/
theorem owned_collection (found : live.get? c = some nodes) (h : Owned live [.collection c] q) :
    q = .collection c ∨ ∃ n ∈ nodes, Owned live [n.payload] q := by
  induction h with
  | here mem => exact .inl (List.mem_singleton.mp mem)
  | @inside d nodes' n _ found' mem ih =>
    rcases ih with heq | ⟨m, hm, outer⟩
    · obtain rfl := Payload.collection.inj heq
      obtain rfl := Option.some.inj (found.symm.trans found')
      exact .inr ⟨n, mem, owned_self⟩
    · exact .inr ⟨m, hm, .inside outer found' mem⟩

theorem Acyclic.of_node (h : Acyclic live c) (found : live.get? c = some nodes) (mem : n ∈ nodes)
    (hn : n.payload = .collection d) : Acyclic live d := by
  intro e nodes' he
  exact h e nodes' (owned_of_node found mem (hn ▸ he))

theorem Settled.of_node {start stop : Handle} (h : Settled live start stop (.collection c))
    (found : live.get? c = some nodes) (mem : n ∈ nodes) : Settled live start stop n.payload := by
  intro q u k hq
  exact h q u k (owned_of_node found mem hq)

/-- Collections that only contain collections with greater numbers do not contain themselves. -/
theorem acyclic_of_increasing (h : ∀ e ∈ live.entries, ∀ n ∈ e.2, ∀ s ∈ n.payload.stored,
    s.1 = .collection → e.1 < s.2) (c : Handle) : Acyclic live c := by
  intro d nodes _ found hcycle
  have below : ∀ p, Owned live (nodes.map (·.payload)) p → ∀ e, p = .collection e → d < e := by
    intro p hp
    induction hp with
    | here mem =>
      intro e he
      obtain ⟨n, hn, rfl⟩ := List.mem_map.mp mem
      exact h _ (Table.mem_entries_of_get? found) n hn (.collection, e) (by rw [he]; rfl) rfl
    | @inside f nodes' n _ found' mem ih =>
      intro e he
      refine Nat.lt_trans (ih f rfl) ?_
      exact h _ (Table.mem_entries_of_get? found') n mem (.collection, e) (by rw [he]; rfl) rfl
  exact absurd (below _ hcycle d rfl) (Nat.lt_irrefl d)

/-- Nodes that only refer to numbers from before some point refer to none after it. -/
theorem settled_of_past {start stop : Handle} (h : ∀ e ∈ live.entries, ∀ n ∈ e.2,
    ∀ s ∈ n.payload.stored, s.2 < start) (hc : c < start) :
    Settled live start stop (.collection c) := by
  intro q u k hq hs
  left
  cases hq with
  | here mem =>
    rw [List.mem_singleton.mp mem] at hs
    exact (Prod.mk.inj (Option.some.inj hs)).2 ▸ hc
  | inside _ found mem => exact h _ (Table.mem_entries_of_get? found) _ mem (u, k) hs

end Following

/-! ## Depth -/

/-- A collection is nested at most so deep. What is not live is not nested at all. -/
def Shallow (live : Table (List Node)) : (depth : Nat) → Handle → Prop
  | 0, c => live.get? c = none
  | depth + 1, c => ∀ nodes n d, live.get? c = some nodes → n ∈ nodes →
      n.payload = .collection d → Shallow live depth d

theorem Shallow.congr {live live' : Table (List Node)} {depth : Nat} {c : Handle}
    (agree : ∀ d, Owned live' [.collection c] (.collection d) → live.get? d = live'.get? d)
    (h : Shallow live depth c) : Shallow live' depth c := by
  induction depth generalizing c with
  | zero => exact (agree c owned_self).symm.trans h
  | succ depth ih =>
    intro nodes n d found mem hn
    refine ih ?_ (h nodes n d ((agree c owned_self).trans found) mem hn)
    intro e he
    exact agree e (owned_of_node found mem (hn ▸ he))

/-- **A collection that does not contain itself is nested no deeper than there are collections.** One
    of them can be taken out at each level, because nothing further down leads back to it. -/
theorem Acyclic.shallow {live : Table (List Node)} {c : Handle} (h : Acyclic live c) {depth : Nat}
    (hsize : live.size ≤ depth) : Shallow live depth c := by
  induction depth generalizing live c with
  | zero =>
    cases found : live.get? c with
    | none => exact found
    | some nodes =>
      have hlt := Table.size_erase_lt found
      omega
  | succ depth ih =>
    intro nodes n d found mem hn
    -- nothing that the node owns is the collection itself
    have away : ∀ e, Owned live [.collection d] (.collection e) → e ≠ c := by
      rintro e he rfl
      refine h e nodes owned_self found ?_
      refine he.mono fun q hq => ?_
      rw [List.mem_singleton.mp hq, ← hn]
      exact List.mem_map_of_mem mem
    have same : ∀ e, Owned live [.collection d] (.collection e) →
        (live.erase c).get? e = live.get? e :=
      fun e he => Table.get?_erase_of_ne _ (away e he)
    have back : ∀ {work q}, Owned (live.erase c) work q → Owned live work q := by
      intro work q hq
      induction hq with
      | here mem => exact .here mem
      | @inside e nodes' m _ found' mem ih =>
        rw [Table.get?_erase] at found'
        split at found'
        · cases found'
        · exact .inside ih found' mem
    have hacyclic : Acyclic (live.erase c) d := by
      intro e nodes' he found' hcycle
      have he' := back he
      exact h.of_node found mem hn e nodes' he' ((same e he').symm.trans found') (back hcycle)
    have hsmaller : (live.erase c).size ≤ depth := by
      have hlt := Table.size_erase_lt found
      omega
    exact (ih hacyclic hsmaller).congr same

/-- Every live collection has a number of its own, so there are no more of them than numbers. -/
theorem Bounded.size_le {w : Host} (hw : Bounded w) : w.collections.size ≤ w.nextId := by
  have hsub : w.collections.entries.map Prod.fst ⊆ List.range w.nextId := by
    intro c hc
    obtain ⟨e, he, rfl⟩ := List.mem_map.mp hc
    have live : w.collections.contains e.1 = true := by
      rw [Table.contains, Table.get?, Option.isSome_map, List.find?_isSome]
      exact ⟨e, he, beq_self_eq_true _⟩
    exact List.mem_range.mpr (hw .collection e.1 live)
  have hle := (w.collections.distinct.subperm hsub).length_le
  rwa [List.length_map, List.length_range] at hle

/-! ## What a copy looks like -/

/-- The copied contents stay a copy if what they refer to stays. -/
theorem Copied.transport {w₀ w w' : Host} {b : Handle} {p p' : Payload} (h : Copied w₀ w p p')
    (closed : Closed b w) (new : New b p')
    (arrays : ∀ k a, b ≤ k → w.arrays.get? k = some a → w'.arrays.get? k = some a)
    (collections : ∀ k nodes, b ≤ k → w.collections.get? k = some nodes →
      w'.collections.get? k = some nodes) : Copied w₀ w' p p' := by
  induction h with
  | plain taken => exact .plain taken
  | tensor source copy => exact .tensor source (arrays _ _ (new _ _ rfl) copy)
  | numericArray source copy => exact .numericArray source (arrays _ _ (new _ _ rfl) copy)
  | @collection c c' nodes nodes' source copy names inner ih =>
    have hc' : b ≤ c' := new _ _ rfl
    refine .collection source (collections c' nodes' hc' copy) names fun q hq => ?_
    exact ih q hq (closed c' nodes' q.2 hc' copy (List.of_mem_zip hq).2).2

section Evolving

variable {nested : Handle → Host → Option Handle × Host} (framed : ∀ c w, Framed w (nested c w))
  {w w' : Host}

include framed

theorem copyPayload_evolves {p : Payload} {r : Option Payload}
    (hcopy : copyPayload nested w p = (r, w')) : Evolves w w' := by
  have hev := Evolves.copyPayload (fun c w => (framed c w).evolves) w p
  rwa [hcopy] at hev

theorem copyNodes_evolves {copy : Handle} {nodes : List Node} {r : Option Handle}
    (hcopy : copyNodes nested copy w nodes = (r, w')) : Evolves w w' := by
  have hev := Evolves.copyNodes (fun c w => (framed c w).evolves) copy w nodes
  rwa [hcopy] at hev

end Evolving

/-- What holds after the nodes `done` have been copied into the collection `copy`. -/
structure Progress (w₀ : Host) (copy : Handle) (done : List Node) (w : Host) : Prop where
  bounded : Bounded w
  confined : Confined w₀.nextId w₀ w
  /-- What the nodes refer to has been made after the collection. -/
  closed : Closed (copy + 1) w
  new : w₀.nextId ≤ copy
  lt_next : copy < w.nextId
  copied : ∃ nodes', w.collections.get? copy = some nodes' ∧
    nodes'.map (·.name) = done.map (·.name) ∧
    ∀ q ∈ done.zip nodes', Copied w₀ w q.1.payload q.2.payload ∧ New (copy + 1) q.2.payload

/-- A collection starts without nodes. -/
theorem Progress.start {w₀ w : Host} (bounded : Bounded w) (confined : Confined w₀.nextId w₀ w) :
    Progress w₀ w.nextId [] w.newCollection.2 := by
  refine ⟨?_, confined.newCollection, ?_, confined.next, Nat.lt_succ_self _, [], ?_, rfl, by simp⟩
  · exact (Evolves.single (.collection w)).bounded bounded
  · exact ((Evolves.single (.collection w)).bounded bounded).closed
  · exact Table.get?_insert_self ..

section Step

variable {w₀ : Host} {stop : Handle} {nested : Handle → Host → Option Handle × Host}

/-- What a copy looks like that is made before the number `stop` is given out: if there is one, it
unfolds to the same tree as its source. -/
structure Resembles (w₀ : Host) (stop c : Handle) (w : Host) (r : Option Handle × Host) : Prop
    extends Framed w r where
  copied : Bounded w → Confined w₀.nextId w₀ w →
    Settled w₀.collections w₀.nextId stop (.collection c) → r.2.nextId ≤ stop →
    ∀ c', r.1 = some c' → Copied w₀ r.2 (.collection c) (.collection c')

/-- A live array that may be looked up at all was there at the start. -/
theorem get?_arrays_of_settled {w : Host} {h : Handle} {a : Dense} {p : Payload}
    (bounded : Bounded w) (confined : Confined w₀.nextId w₀ w)
    (hstop : w.nextId ≤ stop) (settled : Settled w₀.collections w₀.nextId stop p)
    (hp : p.stored = some (.array, h)) (live : w.arrays.get? h = some a) :
    w₀.arrays.get? h = some a := by
  have hlt := Nat.lt_of_lt_of_le (bounded.array_lt live) hstop
  rcases settled p .array h owned_self hp with hold | hlate
  · rw [← confined.arrays h hold]
    exact live
  · exact absurd hlt (Nat.not_lt.mpr hlate)

theorem get?_collections_of_settled {w : Host} {c : Handle} {nodes : List Node}
    (bounded : Bounded w) (confined : Confined w₀.nextId w₀ w)
    (hstop : w.nextId ≤ stop) (settled : Settled w₀.collections w₀.nextId stop (.collection c))
    (live : w.collections.get? c = some nodes) : w₀.collections.get? c = some nodes := by
  have hlt := Nat.lt_of_lt_of_le (bounded.collection_lt live) hstop
  rcases settled _ .collection c owned_self rfl with hold | hlate
  · rw [← confined.collections c hold]
    exact live
  · exact absurd hlt (Nat.not_lt.mpr hlate)

/-- An array copied under the next number. -/
theorem copyArray_some {w w' : Host} {h k : Handle} (hcopy : w.copyArray h = (some k, w')) :
    ∃ a, w.arrays.get? h = some a ∧ w'.arrays.get? k = some { a with shares := 0 } := by
  unfold copyArray at hcopy
  cases live : w.arrays.get? h with
  | none =>
    rw [live] at hcopy
    cases (Prod.mk.inj hcopy).1
  | some a =>
    rw [live] at hcopy
    obtain ⟨hk, rfl⟩ := Prod.mk.inj hcopy
    obtain rfl := Option.some.inj hk
    exact ⟨a, rfl, Table.get?_insert_self ..⟩

/-- Copied contents unfold to the same tree. -/
theorem copyPayload_copied (hnested : ∀ c w, Resembles w₀ stop c w (nested c w)) {w w' : Host}
    {p p' : Payload} (bounded : Bounded w) (confined : Confined w₀.nextId w₀ w)
    (settled : Settled w₀.collections w₀.nextId stop p)
    (hcopy : copyPayload nested w p = (some p', w')) (hstop : w'.nextId ≤ stop) :
    Copied w₀ w' p p' := by
  have hev := copyPayload_evolves (fun c w => (hnested c w).toFramed) hcopy
  have hstop' : w.nextId ≤ stop := Nat.le_trans hev.nextId_le hstop
  cases p with
  | tensor h =>
    obtain ⟨k, hk, rfl⟩ := Option.map_eq_some_iff.mp (Prod.mk.inj hcopy).1
    obtain ⟨a, live, hcopied⟩ := copyArray_some (Prod.ext hk (Prod.mk.inj hcopy).2)
    exact .tensor (get?_arrays_of_settled bounded confined hstop' settled rfl live) hcopied
  | numericArray h =>
    obtain ⟨k, hk, rfl⟩ := Option.map_eq_some_iff.mp (Prod.mk.inj hcopy).1
    obtain ⟨a, live, hcopied⟩ := copyArray_some (Prod.ext hk (Prod.mk.inj hcopy).2)
    exact .numericArray (get?_arrays_of_settled bounded confined hstop' settled rfl live) hcopied
  | collection c =>
    obtain ⟨hk, rfl⟩ := Prod.mk.inj hcopy
    obtain ⟨k, hmade, rfl⟩ := Option.map_eq_some_iff.mp hk
    exact (hnested c w).copied bounded confined settled hstop k hmade
  | _ =>
    obtain ⟨hp, -⟩ := Prod.mk.inj hcopy
    obtain rfl := Option.some.inj hp
    exact .plain rfl

/-- **One more node.** What has been copied so far is not touched by copying the next node, which
    makes things with new numbers, nor by appending to the collection, which nothing copied refers
    to. -/
theorem Progress.step (framed : ∀ c w, Framed w (nested c w)) {copy : Handle} {done : List Node}
    {w w' : Host} {n : Node} {p : Payload} (h : Progress w₀ copy done w)
    (hcopy : copyPayload nested w n.payload = (some p, w'))
    (copied : Copied w₀ w' n.payload p) :
    Progress w₀ copy (done ++ [n]) (w'.appendNode copy n.name p) := by
  have hconf : ∀ b w₁, Confined b w₁ w → Confined b w₁ w' ∧ New b p := by
    intro b w₁ hb
    obtain ⟨hb', hnew⟩ := hb.copyPayload (fun c w h => (framed c w).confined h) n.payload
    rw [hcopy] at hb' hnew
    exact ⟨hb', hnew p rfl⟩
  have hev : Evolves w (w'.appendNode copy n.name p) :=
    (copyPayload_evolves framed hcopy).trans (.appendNode ..)
  obtain ⟨nodes', hnodes', names, inner⟩ := h.copied
  -- copying changes nothing from before it, nothing from before `copy`, and nothing of `w₀`
  obtain ⟨hold, -⟩ := hconf _ _ (.refl (Nat.le_refl _) h.bounded.closed)
  obtain ⟨hin, hnew⟩ := hconf _ _ (.refl h.lt_next h.closed)
  obtain ⟨hall, hnew₀⟩ := hconf _ _ h.confined
  have live : w'.collections.get? copy = some nodes' :=
    (hold.collections copy h.lt_next).trans hnodes'
  -- the collections with greater numbers stay when a node is appended
  have append : ∀ k, copy + 1 ≤ k →
      (w'.appendNode copy n.name p).collections.get? k = w'.collections.get? k := by
    intro k hk
    rw [appendNode_of_live live]
    exact Table.get?_insert_of_ne _ _ (Nat.ne_of_gt hk)
  have arrays : (w'.appendNode copy n.name p).arrays = w'.arrays := by
    rw [appendNode_of_live live]
  have closed : Closed (copy + 1) w' := hin.closed
  refine ⟨?_, hall.appendNode h.new n.name hnew₀, ?_, h.new, ?_, nodes' ++ [⟨w'.nextId, n.name, p⟩],
    ?_, ?_, ?_⟩
  · exact hev.bounded h.bounded
  · intro c nodes m hc found mem
    rw [append c hc] at found
    exact closed c nodes m hc found mem
  · exact Nat.lt_of_lt_of_le h.lt_next hev.nextId_le
  · rw [appendNode_of_live live]
    exact Table.get?_insert_self ..
  · simp [names]
  · have hlen : done.length = nodes'.length := by
      simpa using (congrArg List.length names).symm
    intro q hq
    rw [List.zip_append hlen] at hq
    rcases List.mem_append.mp hq with hq | hq
    · obtain ⟨hcopied, hq'⟩ := inner q hq
      refine ⟨hcopied.transport h.closed hq' ?_ ?_, hq'⟩
      · intro k a _ hk
        rw [arrays, hold.arrays k (h.bounded.array_lt hk)]
        exact hk
      · intro k nodes hkb hk
        rw [append k hkb, hold.collections k (h.bounded.collection_lt hk)]
        exact hk
    · obtain rfl := List.mem_singleton.mp hq
      refine ⟨copied.transport closed hnew ?_ ?_, hnew⟩
      · intro k a _ hk
        rw [arrays]
        exact hk
      · intro k nodes hkb hk
        rw [append k hkb]
        exact hk

/-- All nodes. -/
theorem Progress.run (hnested : ∀ c w, Resembles w₀ stop c w (nested c w)) {copy k : Handle}
    {done todo : List Node} {w w' : Host} (h : Progress w₀ copy done w)
    (settled : ∀ n ∈ todo, Settled w₀.collections w₀.nextId stop n.payload)
    (hcopy : copyNodes nested copy w todo = (some k, w')) (hstop : w'.nextId ≤ stop) :
    Progress w₀ copy (done ++ todo) w' := by
  have framed := fun c w => (hnested c w).toFramed
  induction todo generalizing done w with
  | nil =>
    obtain ⟨-, rfl⟩ := Prod.mk.inj hcopy
    rwa [List.append_nil]
  | cons n rest ih =>
    rw [copyNodes] at hcopy
    rcases hp : copyPayload nested w n.payload with ⟨_ | p, w₁⟩
    · rw [hp] at hcopy
      cases (Prod.mk.inj hcopy).1
    · rw [hp] at hcopy
      have hev : Evolves w₁ w' := (Evolves.appendNode ..).trans (copyNodes_evolves framed hcopy)
      have copied := copyPayload_copied hnested h.bounded h.confined
        (settled n List.mem_cons_self) hp (Nat.le_trans hev.nextId_le hstop)
      rw [List.append_cons]
      exact ih (h.step framed hp copied) (fun m hm => settled m (List.mem_cons_of_mem _ hm)) hcopy

end Step

/-- **What a copy looks like.** If there is a copy, it unfolds to the same tree as its source. -/
theorem Resembles.copyRule (w₀ : Host) (stop : Handle) : CopyRule (Resembles w₀ stop) where
  none c w := ⟨Framed.copyRule.none c w, fun _ _ _ _ c' hc' => by cases hc'⟩
  nodes {nested} hnested c w nodes live := by
    refine ⟨Framed.copyRule.nodes (fun c w => (hnested c w).toFramed) live, ?_⟩
    intro bounded confined settled hstop c' hc'
    have hcopy : copyNodes nested w.newCollection.1 w.newCollection.2 nodes = (some c', _) :=
      Prod.ext hc' rfl
    have hev := (Evolves.single (.collection w)).trans
      (copyNodes_evolves (fun c w => (hnested c w).toFramed) hcopy)
    have source := get?_collections_of_settled bounded confined
      (Nat.le_trans hev.nextId_le hstop) settled live
    have done := (Progress.start bounded confined).run hnested
      (fun n hn => settled.of_node source hn) hcopy hstop
    obtain ⟨nodes', hnodes', names, inner⟩ := done.copied
    obtain rfl : c' = w.nextId := copyNodes_result hc'
    exact .collection source hnodes' names fun q hq => (inner q hq).1

/-- What has a copy is live, and so is all that it owns. -/
theorem Copied.live {w w' : Host} {p p' : Payload} (h : Copied w w' p p') :
    ∀ q, Owned w.collections [p] q → Live w q := by
  induction h with
  | plain taken =>
    intro q hq u k hk
    obtain rfl := owned_of_not_collection (by rintro c rfl; cases taken) hq
    rw [taken] at hk
    cases hk
  | tensor source copy =>
    intro q hq u k hk
    obtain rfl := owned_of_not_collection (by simp) hq
    obtain ⟨rfl, rfl⟩ := Prod.mk.inj (Option.some.inj hk)
    exact Table.contains_of_get? source
  | numericArray source copy =>
    intro q hq u k hk
    obtain rfl := owned_of_not_collection (by simp) hq
    obtain ⟨rfl, rfl⟩ := Prod.mk.inj (Option.some.inj hk)
    exact Table.contains_of_get? source
  | @collection c c' nodes nodes' source copy names inner ih =>
    intro q hq
    rcases owned_collection source hq with rfl | ⟨n, hn, hq⟩
    · rintro u k ⟨⟩
      exact Table.contains_of_get? source
    · have hlen : nodes'.length = nodes.length := by simpa using congrArg List.length names
      have hfst : (nodes.zip nodes').map Prod.fst = nodes :=
        List.map_fst_zip (Nat.le_of_eq hlen.symm)
      obtain ⟨m, hm, rfl⟩ := List.mem_map.mp (hfst.symm ▸ hn)
      exact ih m hm q hq

/-! ## When there is a copy -/

theorem copyArray_isSome {w : Host} {h : Handle} (live : w.arrays.contains h = true) :
    (w.copyArray h).1.isSome = true := by
  obtain ⟨a, ha⟩ := Table.contains_iff.mp live
  rw [copyArray, ha]
  rfl

section Success

variable {w₀ : Host} {nested : Handle → Host → Option Handle × Host}

/-- Live contents can be copied, given that the collections among them can be. -/
theorem copyPayload_isSome (bounded : Bounded w₀) {w : Host} {p : Payload} (live : Live w₀ p)
    (hnested : ∀ c, p = .collection c → (nested c w).1.isSome = true)
    (confined : Confined w₀.nextId w₀ w) : (copyPayload nested w p).1.isSome = true := by
  have harray : ∀ h, p.stored = some (.array, h) → (w.copyArray h).1.isSome = true := by
    intro h hp
    obtain ⟨a, ha⟩ := Table.contains_iff.mp (live .array h hp)
    refine copyArray_isSome (Table.contains_of_get? (a := a) ?_)
    exact (confined.arrays h (bounded.array_lt ha)).trans ha
  cases p with
  | tensor h => exact (Option.isSome_map ..).trans (harray h rfl)
  | numericArray h => exact (Option.isSome_map ..).trans (harray h rfl)
  | collection c => exact (Option.isSome_map ..).trans (hnested c rfl)
  | _ => rfl

/-- Nodes can be copied one after the other, because copying one leaves what is copied alone. -/
theorem copyNodes_isSome (framed : ∀ c w, Framed w (nested c w)) {copy : Handle} {w : Host}
    {todo : List Node} (hnodes : ∀ n ∈ todo, ∀ w, Confined w₀.nextId w₀ w →
      (copyPayload nested w n.payload).1.isSome = true)
    (hcopy : w₀.nextId ≤ copy) (confined : Confined w₀.nextId w₀ w) :
    (copyNodes nested copy w todo).1.isSome = true := by
  induction todo generalizing w with
  | nil => rfl
  | cons n rest ih =>
    have hsome := hnodes n List.mem_cons_self w confined
    obtain ⟨hconf, hnew⟩ :=
      confined.copyPayload (fun c w h => (framed c w).confined h) n.payload
    rw [copyNodes]
    rcases hp : copyPayload nested w n.payload with ⟨_ | p, w₁⟩
    · rw [hp] at hsome
      cases hsome
    · rw [hp] at hconf hnew
      exact ih (fun m hm => hnodes m (List.mem_cons_of_mem _ hm))
        (hconf.appendNode hcopy n.name (hnew p rfl))

/-- **When there is a copy.** A collection can be copied if all that it owns is live and it is not
    nested too deeply. -/
theorem copyFrom_isSome (bounded : Bounded w₀) {depth : Nat} {c : Handle}
    (shallow : Shallow w₀.collections depth c)
    (live : ∀ q, Owned w₀.collections [.collection c] q → Live w₀ q) {w : Host}
    (confined : Confined w₀.nextId w₀ w) : (copyFrom w₀.nextId depth c w).1.isSome = true := by
  have here : w₀.collections.contains c = true := live _ owned_self .collection c rfl
  obtain ⟨nodes, found⟩ := Table.contains_iff.mp here
  induction depth generalizing c w nodes with
  | zero =>
    rw [show w₀.collections.get? c = none from shallow] at found
    cases found
  | succ depth ih =>
    -- what is live has a number from before the copy
    have old := bounded.collection_lt found
    have found' : w.collections.get? c = some nodes :=
      (confined.collections c old).trans found
    have hnodes : ∀ n ∈ nodes, ∀ w, Confined w₀.nextId w₀ w →
        (copyPayload (copyFrom w₀.nextId depth) w n.payload).1.isSome = true := by
      intro n hn w hconf
      have hlive : ∀ q, Owned w₀.collections [n.payload] q → Live w₀ q :=
        fun q hq => live q (owned_of_node found hn hq)
      refine copyPayload_isSome bounded (hlive _ owned_self) (fun d hd => ?_) hconf
      rw [hd] at hlive
      have hd' : w₀.collections.contains d = true := hlive _ owned_self .collection d rfl
      obtain ⟨nodes', foundd⟩ := Table.contains_iff.mp hd'
      exact ih (shallow nodes n d found hn hd) hlive hconf hd' nodes' foundd
    rw [copyFrom_succ old, copyOnce, found']
    exact copyNodes_isSome (Framed.copyRule.copyFrom _ depth) hnodes confined.next
      confined.newCollection

end Success

/-! ## Copies of collections -/

/-- **Copies are exact and disjoint.** Take a collection of any state that the host can get to, all of
    whose collections contain no way back to themselves, and nothing in which refers to a number that
    the copying itself gives out. It has a copy exactly if it is live and all that it owns is. The
    copy unfolds to the same tree; every array and collection that it owns and every node in it is
    new; and the arrays, collections and nodes that there were stay as they were, whether or not there
    is a copy. -/
theorem copyCollection_spec {made : List (Handle × Use)} {w : Host} {c : Handle}
    (past : History made w) (acyclic : Acyclic w.collections c)
    (settled : Settled w.collections w.nextId (w.copyCollection c).2.nextId (.collection c)) :
    ((w.copyCollection c).1.isSome = true ↔
      ∀ q, Owned w.collections [.collection c] q → Live w q) ∧
    (∀ copy, (w.copyCollection c).1 = some copy →
      Copied w (w.copyCollection c).2 (.collection c) (.collection copy) ∧
      (∀ q u h, Owned (w.copyCollection c).2.collections [.collection copy] q →
        q.stored = some (u, h) → w.nextId ≤ h) ∧
      (∀ id, OwnsNode (w.copyCollection c).2.collections [.collection copy] id →
        w.nextId ≤ id)) ∧
    (∀ h < w.nextId,
      (w.copyCollection c).2.arrays.get? h = w.arrays.get? h ∧
      (w.copyCollection c).2.collections.get? h = w.collections.get? h ∧
      (w.copyCollection c).2.places.get? h = w.places.get? h) := by
  have bounded := past.sound.is_bounded
  have start : Confined w.nextId w w := .refl (Nat.le_refl _) bounded.closed
  obtain ⟨hconf, hnew⟩ := start.copyCollection c
  have copied : ∀ copy, (w.copyCollection c).1 = some copy →
      Copied w (w.copyCollection c).2 (.collection c) (.collection copy) := by
    intro copy hcopy
    exact ((Resembles.copyRule w _).copyCollection w c).copied bounded start settled
      (Nat.le_refl _) copy hcopy
  have owned : ∀ copy, (w.copyCollection c).1 = some copy → ∀ q,
      Owned (w.copyCollection c).2.collections [.collection copy] q → New w.nextId q := by
    intro copy hcopy q hq
    refine Confined.new_of_owned hconf.closed ?_ hq
    intro p hp
    rw [List.mem_singleton.mp hp]
    exact new_of_stored rfl (hnew copy hcopy)
  refine ⟨⟨?_, ?_⟩, fun copy hcopy => ⟨copied copy hcopy, ?_, ?_⟩, fun h hh => ⟨?_, ?_, ?_⟩⟩
  · intro hsome
    obtain ⟨copy, hcopy⟩ := Option.isSome_iff_exists.mp hsome
    exact (copied copy hcopy).live
  · intro live
    exact copyFrom_isSome bounded (acyclic.shallow bounded.size_le) live start
  · intro q u h hq hs
    exact owned copy hcopy q hq u h hs
  · rintro id ⟨d, nodes, hd, found, mem⟩
    obtain ⟨n, hn, rfl⟩ := List.mem_map.mp mem
    exact (hconf.closed d nodes n (owned copy hcopy _ hd _ _ rfl) found hn).1
  · exact hconf.arrays h hh
  · exact hconf.collections h hh
  · exact hconf.places h hh

/-- A collection that holds an array once and a collection twice. -/
def shared : Host :=
  run {} [.newCollection, .hostArray (.numeric .int8) [2], .newCollection,
    .addNode 3 none (.integer 7), .addNode 1 none (.tensor 2), .addNode 1 none (.collection 3),
    .addNode 1 none (.collection 3)]

/-- What is held twice is copied twice. -/
theorem copyCollection_shared : (shared.copyCollection 1).1 = some 8 ∧
    Copied shared (shared.copyCollection 1).2 (.collection 1) (.collection 8) := by
  obtain ⟨made, past⟩ : ∃ made, History made shared := History.start.run _
  have acyclic : Acyclic shared.collections 1 := acyclic_of_increasing (by decide) 1
  have settled : Settled shared.collections shared.nextId (shared.copyCollection 1).2.nextId
      (.collection 1) := settled_of_past (by decide) (by decide)
  have hcopy : (shared.copyCollection 1).1 = some 8 := by decide
  exact ⟨hcopy, ((copyCollection_spec past acyclic settled).2.1 8 hcopy).1⟩

/-- A collection that holds an array and the handle that the copy of the array is going to have. -/
def early : Host :=
  run {} [.newCollection, .hostArray (.numeric .int8) [2], .addNode 1 none (.tensor 2),
    .addNode 1 none (.tensor 6)]

/-- **Copying looks handles up when it gets to them.** A handle that names nothing yet does not keep a
    collection from being copied, if copying what stands before it gives out its number. -/
theorem copyCollection_early : ¬ ∀ (made : List (Handle × Use)) (w : Host) (c : Handle),
    History made w → w.collections.contains c = true → Acyclic w.collections c →
      ((w.copyCollection c).1.isSome = true ↔
        ∀ q, Owned w.collections [.collection c] q → Live w q) := by
  intro h
  obtain ⟨made, past⟩ : ∃ made, History made early := History.start.run _
  have acyclic : Acyclic early.collections 1 := acyclic_of_increasing (by decide) 1
  have hcopy : (early.copyCollection 1).1.isSome = true := by decide
  have live := (h _ early 1 past (by decide) acyclic).mp hcopy
  have node : (⟨4, none, .tensor 6⟩ : Node) ∈
      [(⟨3, none, .tensor 2⟩ : Node), ⟨4, none, .tensor 6⟩] := by simp
  have owned : Owned early.collections [.collection 1] (.tensor 6) :=
    Owned.inside owned_self (by rfl) node
  have hnamed : early.names .array 6 = true := live _ owned .array 6 rfl
  exact absurd hnamed (by decide)

end Marshal.Host
