import Marshal.Proofs.Host.Frame
import Marshal.Proofs.Host.Requests

/-!
# `Proofs.Host.Lasting` — what lasts on a host

Collections only grow, and only at their ends, until they are freed. Numbers are not given out
twice, so what has once been taken out is never found again: a number that had a place among the
nodes of a collection has the same place or none, and a number that named a collection names the
same one or nothing.

## Contents

* `Lasts` — what may have become of collections and places in the course of time;
* `Change.lasts`, `answer_lasts`, `run_lasts` — a change, a request and a run;
* `contains_collections_answer` — a collection is gone only when what owns it is freed.
-/

namespace Marshal.Host

open Marshal.Text

/-- **What lasts.** A collection that there is now and whose number had been given out was there,
with nodes that are still the first ones; and a place that there is now and whose number had been
given out was the same. -/
structure Lasts (w w' : Host) : Prop where
  nextId_le : w.nextId ≤ w'.nextId
  nodes : ∀ c nodes', c < w.nextId → w'.collections.get? c = some nodes' →
    ∃ nodes, w.collections.get? c = some nodes ∧ nodes <+: nodes'
  place : ∀ id place, id < w.nextId → w'.places.get? id = some place →
    w.places.get? id = some place

variable {w w' w'' : Host}

namespace Lasts

theorem refl (w : Host) : Lasts w w :=
  ⟨Nat.le_refl _, fun _ nodes _ live => ⟨nodes, live, List.prefix_refl _⟩, fun _ _ _ => id⟩

theorem trans (h : Lasts w w') (h' : Lasts w' w'') : Lasts w w'' where
  nextId_le := Nat.le_trans h.nextId_le h'.nextId_le
  nodes c nodes'' hc live := by
    obtain ⟨nodes', live', hlater⟩ := h'.nodes c nodes'' (Nat.lt_of_lt_of_le hc h.nextId_le) live
    obtain ⟨nodes, live, hearlier⟩ := h.nodes c nodes' hc live'
    exact ⟨nodes, live, hearlier.trans hlater⟩
  place id place hid hplace :=
    h.place id place hid (h'.place id place (Nat.lt_of_lt_of_le hid h.nextId_le) hplace)

/-- Nothing happens to collections and places. -/
theorem of_eq (nextId_le : w.nextId ≤ w'.nextId) (collections : w'.collections = w.collections)
    (places : w'.places = w.places) : Lasts w w' where
  nextId_le := nextId_le
  nodes _ nodes _ live := ⟨nodes, collections ▸ live, List.prefix_refl _⟩
  place _ _ _ hplace := places ▸ hplace

end Lasts

/-- **Step lemma.** A change makes a collection longer by one node with the next number, takes one
out with all places in it, or touches none. -/
theorem Change.lasts {more : List (Handle × Use)} (step : Change w more w') : Lasts w w' := by
  have old := fun {h : Handle} (hh : h < w.nextId) => Nat.ne_of_lt hh
  cases step with
  | array a => exact .of_eq (Nat.le_succ _) rfl rfl
  | link => exact .of_eq (Nat.le_succ _) rfl rfl
  | modifyArray => exact .of_eq (Nat.le_refl _) rfl rfl
  | modifyLink => exact .of_eq (Nat.le_refl _) rfl rfl
  | settings => exact .of_eq (Nat.le_refl _) rfl rfl
  | freeArray live =>
    exact .of_eq (Nat.le_of_eq (nextId_freeArray ..).symm) (collections_freeArray ..)
      (places_freeArray ..)
  | collection =>
    refine ⟨Nat.le_succ _, fun c nodes hc live => ?_, fun _ _ _ => id⟩
    exact ⟨nodes, (Table.get?_insert_of_ne _ _ (old hc)).symm.trans live, List.prefix_refl _⟩
  | @node c nodes live name payload =>
    rw [appendNode_of_live live]
    refine ⟨Nat.le_succ _, fun d nodes' _ live' => ?_, fun id place hid hplace => ?_⟩
    · have hget := (Table.get?_insert ..).symm.trans live'
      split at hget
      · next hd =>
        obtain rfl := Option.some.inj hget
        exact ⟨nodes, hd ▸ live, List.prefix_append ..⟩
      · exact ⟨nodes', hget, List.prefix_refl _⟩
    · exact (Table.get?_insert_of_ne _ _ (old hid)).symm.trans hplace
  | @removeCollection c nodes live =>
    refine ⟨Nat.le_refl _, fun d nodes' _ live' => ?_, fun id place _ hplace => ?_⟩
    · rw [collections_removeCollection, Table.get?_erase] at live'
      split at live'
      · cases live'
      · exact ⟨nodes', live', List.prefix_refl _⟩
    · rw [get?_places_removeCollection] at hplace
      split at hplace
      · cases hplace
      · exact hplace

theorem Evolves.lasts (hev : Evolves w w') : Lasts w w' := by
  obtain ⟨made, changes⟩ := hev
  induction changes with
  | refl => exact .refl _
  | tail _ step ih => exact ih.trans step.lasts

theorem answer_lasts (w : Host) (r : Request) : Lasts w (w.answer r) := by
  rcases answer_evolves w r with ⟨h, rfl⟩ | hev
  · exact .of_eq (Nat.le_refl _) rfl rfl
  · exact hev.lasts

/-- **Run lemma.** Whatever is asked of the host, it lasts. -/
theorem run_lasts (w : Host) (requests : List Request) : Lasts w (w.run requests) := by
  induction requests generalizing w with
  | nil => exact .refl w
  | cons r rest ih => exact (answer_lasts w r).trans (ih (w.answer r))

/-! ## The end of a collection -/

theorem collections_addArray? (w : Host) (a : Option Dense) :
    (w.addArray? a).2.collections = w.collections := by
  cases a <;> rfl

theorem collections_enqueuePacket (w : Host) (h : Handle) (packet : Bytes) :
    (w.enqueuePacket h packet).2.collections = w.collections := by
  unfold enqueuePacket
  split
  · split <;> rfl
  · rfl

theorem collections_evaluateLink (w : Host) (h : Handle) :
    (w.evaluateLink h).2.collections = w.collections := by
  unfold evaluateLink
  split
  · split <;> rfl
  · rfl

/-- Appending takes no collection out. -/
theorem contains_collections_appendNode (w : Host) (c d : Handle) (name : Option Bytes)
    (payload : Payload) :
    (w.appendNode c name payload).collections.contains d = w.collections.contains d := by
  cases live : w.collections.get? c with
  | none => simp only [appendNode, live]
  | some nodes =>
    rw [appendNode_of_live live]
    refine (Table.contains_insert ..).trans ?_
    by_cases hd : d = c
    · simp [hd, Table.contains_of_get? live]
    · simp [hd]

theorem contains_collections_acceptNode (w : Host) (c d : Handle) (name : Option Bytes)
    (payload : Payload) :
    (w.acceptNode c name payload).collections.contains d = w.collections.contains d := by
  unfold acceptNode
  split
  · exact contains_collections_appendNode ..
  · split
    · rfl
    · exact contains_collections_appendNode ..
  · exact contains_collections_appendNode ..

/-- **A collection is gone only when what owns it is freed**: itself, or a collection that holds it
or holds what holds it, and so on. -/
theorem contains_collections_answer {w : Host} (bounded : Bounded w) {c : Handle}
    (live : w.collections.contains c = true) {r : Request}
    (dead : (w.answer r).collections.contains c = false) :
    ∃ d, r = .freeCollection d ∧ Owned w.collections [.collection d] (.collection c) := by
  have kept : (w.answer r).collections.contains c ≠ w.collections.contains c := by
    rw [dead, live]
    exact Bool.false_ne_true
  have untouched : (w.answer r).collections ≠ w.collections := fun h => kept (by rw [h])
  cases r with
  | newArray family code rank dims =>
    refine absurd ?_ untouched
    show (w.newArrayByCode ..).2.collections = _
    unfold newArrayByCode
    dsimp only
    split
    · exact collections_addArray? ..
    · rfl
  | hostArray => exact absurd (collections_addArray? ..) untouched
  | copyArray => exact absurd (collections_addArray? ..) untouched
  | convertArray source target method tolerance =>
    refine absurd ?_ untouched
    show (w.convertArrayByCode ..).2.collections = _
    unfold convertArrayByCode
    split
    · exact collections_addArray? ..
    · rfl
  | freeArray h => exact absurd (w.collections_freeArray h) untouched
  | newCollection =>
    refine absurd ?_ kept
    refine (Table.contains_insert ..).trans ?_
    rw [live, Bool.or_true]
  | copyCollection d =>
    -- copying works on new numbers only, also when it fails
    have confined := (Confined.refl (Nat.le_refl _) bounded.closed).copyCollection d
    have hget := confined.1.collections c (bounded .collection c live)
    exact absurd (congrArg Option.isSome hget) kept
  | freeCollection d =>
    refine ⟨d, rfl, ?_⟩
    by_contra apart
    refine kept (congrArg Option.isSome ?_)
    exact (get?_collections_freeAll ..).trans (if_neg apart)
  | addNode d name payload => exact absurd (contains_collections_acceptNode ..) kept
  | putPacket h packet => exact absurd (collections_enqueuePacket ..) untouched
  | processLink h => exact absurd (collections_evaluateLink ..) untouched
  | _ => exact absurd rfl untouched

end Marshal.Host
