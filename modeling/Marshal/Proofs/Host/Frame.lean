import Marshal.Proofs.Host.Release

/-!
# `Proofs.Host.Frame` — copying touches nothing that was there before

A copy gets new numbers, and what is freed when a copy fails is what was made for it. The reason is
that what is new stays among itself: a collection with a new number holds only things with new
numbers. `Confined` says so for the numbers from some point on, so it can be used with the start of a
copy as that point, with the start of a nested copy, or with any point in between.

## Contents

* `Payload.stored`, `New` — the number in contents that the host stores something under;
* `Bounded` — what a number names has been given out;
* `Closed`, `Confined` — changes from a number on;
* `Confined.freeCollection`, `Framed`, `Confined.copyCollection` — what copying and its roll-back leave
  alone.
-/

namespace Marshal

/-- What the host stores for contents: an array or a collection. It stores nothing for a sparse array
    or an image, so their handles are taken as they are. -/
def Payload.stored : Payload → Option (Host.Use × Handle)
  | .tensor h | .numericArray h => some (.array, h)
  | .collection c => some (.collection, c)
  | _ => none

namespace Host

open Marshal.Text

/-- Contents refer to numbers from `b` on only. -/
def New (b : Handle) (p : Payload) : Prop := ∀ u h, p.stored = some (u, h) → b ≤ h

theorem new_of_stored_none {b : Handle} {p : Payload} (h : p.stored = none) : New b p := by
  intro u k hk
  rw [h] at hk
  cases hk

theorem new_of_stored {b h : Handle} {u : Use} {p : Payload} (hp : p.stored = some (u, h))
    (hb : b ≤ h) : New b p := by
  intro v k hk
  rw [hp] at hk
  obtain ⟨-, rfl⟩ := Prod.mk.inj (Option.some.inj hk)
  exact hb

/-! ## Numbers that have been given out -/

/-- What a number names has been given out. -/
def Bounded (w : Host) : Prop := ∀ u h, w.names u h = true → h < w.nextId

theorem Sound.is_bounded {made : List (Handle × Use)} {w : Host} (s : Sound made w) : Bounded w :=
  fun _ _ hn => (s.lt_next hn).2

theorem Changes.nextId_le {w w' : Host} {made : List (Handle × Use)} (h : Changes w made w') :
    w.nextId ≤ w'.nextId := by
  induction h with
  | refl => exact Nat.le_refl _
  | tail _ step ih => exact Nat.le_trans ih step.nextId_le

/-- A change gives a name to the next number at most. -/
theorem Change.bounded {w w' : Host} {more : List (Handle × Use)} (step : Change w more w')
    (hw : Bounded w) : Bounded w' := by
  intro u h hn
  rcases step.named hn with hold | hmem
  · exact Nat.lt_of_lt_of_le (hw u h hold) step.nextId_le
  · rcases step.next with ⟨rfl, -⟩ | ⟨v, rfl, hnext⟩
    · exact absurd hmem List.not_mem_nil
    · obtain ⟨rfl, -⟩ := Prod.mk.inj (List.mem_singleton.mp hmem)
      exact hnext ▸ Nat.lt_succ_self _

theorem Evolves.nextId_le {w w' : Host} (h : Evolves w w') : w.nextId ≤ w'.nextId := by
  obtain ⟨made, hmade⟩ := h
  exact hmade.nextId_le

theorem Evolves.bounded {w w' : Host} (h : Evolves w w') (hw : Bounded w) : Bounded w' := by
  obtain ⟨made, hmade⟩ := h
  induction hmade with
  | refl => exact hw
  | tail _ step ih => exact step.bounded ih

theorem Bounded.array_lt {w : Host} (hw : Bounded w) {h : Handle} {a : Dense}
    (live : w.arrays.get? h = some a) : h < w.nextId :=
  hw .array h (Table.contains_of_get? live)

theorem Bounded.collection_lt {w : Host} (hw : Bounded w) {c : Handle} {nodes : List Node}
    (live : w.collections.get? c = some nodes) : c < w.nextId :=
  hw .collection c (Table.contains_of_get? live)

/-! ## Changes from a number on -/

/-- Collections with numbers from `b` on have nodes with such numbers, which hold such numbers. -/
def Closed (b : Handle) (w : Host) : Prop :=
  ∀ c nodes n, b ≤ c → w.collections.get? c = some nodes → n ∈ nodes →
    b ≤ n.id ∧ New b n.payload

/-- No collection has a number that has not been given out. -/
theorem Bounded.closed {w : Host} (hw : Bounded w) : Closed w.nextId w := by
  intro c nodes n hc live _
  exact absurd (hw.collection_lt live) (Nat.not_lt.mpr hc)

/-- **The state `w'` has come from `w` by changes to numbers from `b` on.** -/
structure Confined (b : Handle) (w w' : Host) : Prop where
  next : b ≤ w'.nextId
  arrays : ∀ h < b, w'.arrays.get? h = w.arrays.get? h
  collections : ∀ h < b, w'.collections.get? h = w.collections.get? h
  places : ∀ h < b, w'.places.get? h = w.places.get? h
  releases : ∀ h < b, w'.releasesOf h = w.releasesOf h
  links : w'.links = w.links
  closed : Closed b w'

namespace Confined

variable {b : Handle} {w w' : Host}

theorem refl (next : b ≤ w.nextId) (closed : Closed b w) : Confined b w w :=
  ⟨next, fun _ _ => rfl, fun _ _ => rfl, fun _ _ => rfl, fun _ _ => rfl, rfl, closed⟩

/-- Contents with new numbers own contents with new numbers only. -/
theorem new_of_owned (closed : Closed b w) {work : List Payload} (hwork : ∀ p ∈ work, New b p)
    {p : Payload} (hp : Owned w.collections work p) : New b p := by
  induction hp with
  | here mem => exact hwork _ mem
  | @inside c nodes n _ found mem ih => exact (closed c nodes n (ih _ _ rfl) found mem).2

theorem addArray? (h : Confined b w w') (a : Option Dense) :
    Confined b w (w'.addArray? a).2 ∧ ∀ k, (w'.addArray? a).1 = some k → b ≤ k := by
  cases a with
  | none => exact ⟨h, fun k hk => by cases hk⟩
  | some a =>
    refine ⟨{ h with next := Nat.le_succ_of_le h.next, arrays := ?_ }, ?_⟩
    · intro k hk
      refine (Table.get?_insert_of_ne _ _ ?_).trans (h.arrays k hk)
      exact Nat.ne_of_lt (Nat.lt_of_lt_of_le hk h.next)
    · rintro k ⟨⟩
      exact h.next

theorem newCollection (h : Confined b w w') : Confined b w w'.newCollection.2 := by
  have get : ∀ k, w'.newCollection.2.collections.get? k =
      if k = w'.nextId then some [] else w'.collections.get? k := fun k => Table.get?_insert ..
  refine { h with next := Nat.le_succ_of_le h.next, collections := ?_, closed := ?_ }
  · intro k hk
    rw [get, if_neg (Nat.ne_of_lt (Nat.lt_of_lt_of_le hk h.next))]
    exact h.collections k hk
  · intro c nodes n hc found mem
    rw [get] at found
    split at found
    · obtain rfl := Option.some.inj found
      exact absurd mem List.not_mem_nil
    · exact h.closed c nodes n hc found mem

theorem appendNode (h : Confined b w w') {c : Handle} (hc : b ≤ c) (name : Option Bytes)
    {p : Payload} (hp : New b p) : Confined b w (w'.appendNode c name p) := by
  cases live : w'.collections.get? c with
  | none =>
    have : w'.appendNode c name p = w' := by simp only [Host.appendNode, live]
    rw [this]
    exact h
  | some nodes =>
    rw [appendNode_of_live live]
    refine { h with next := Nat.le_succ_of_le h.next, collections := ?_, places := ?_, closed := ?_ }
    · intro k hk
      refine (Table.get?_insert_of_ne _ _ ?_).trans (h.collections k hk)
      exact Nat.ne_of_lt (Nat.lt_of_lt_of_le hk hc)
    · intro k hk
      refine (Table.get?_insert_of_ne _ _ ?_).trans (h.places k hk)
      exact Nat.ne_of_lt (Nat.lt_of_lt_of_le hk h.next)
    · intro d nodes' n hd found mem
      rw [Table.get?_insert] at found
      split at found
      · obtain rfl := Option.some.inj found
        rcases List.mem_append.mp mem with mem | mem
        · exact h.closed c nodes n hc live mem
        · obtain rfl := List.mem_singleton.mp mem
          exact ⟨h.next, hp⟩
      · exact h.closed d nodes' n hd found mem

/-- Freeing a new collection frees new things only. -/
theorem freeCollection (h : Confined b w w') {c : Handle} (hc : b ≤ c) :
    Confined b w (w'.freeCollection c) := by
  classical
  have owned : ∀ p, Owned w'.collections [.collection c] p → New b p := by
    intro p hp
    refine new_of_owned h.closed ?_ hp
    intro q hq
    rw [List.mem_singleton.mp hq]
    exact new_of_stored rfl hc
  have hcol : ∀ k, Owned w'.collections [.collection c] (.collection k) → b ≤ k :=
    fun k hk => owned _ hk _ _ rfl
  have harr : ∀ k, OwnsArray w'.collections [.collection c] k → b ≤ k := by
    rintro k (hk | hk)
    · exact owned _ hk _ _ rfl
    · exact owned _ hk _ _ rfl
  have hplace : ∀ id, OwnsNode w'.collections [.collection c] id → b ≤ id := by
    rintro id ⟨d, nodes, hd, found, mem⟩
    obtain ⟨n, hn, rfl⟩ := List.mem_map.mp mem
    exact (h.closed d nodes n (hcol d hd) found hn).1
  obtain ⟨hnext, hlinks, -⟩ := freeAll_frame w' [.collection c]
  unfold Host.freeCollection
  refine ⟨?_, ?_, ?_, ?_, ?_, ?_, ?_⟩
  · rw [hnext]
    exact h.next
  · intro k hk
    rw [get?_arrays_freeAll, if_neg fun ho => Nat.not_le.mpr hk (harr k ho)]
    exact h.arrays k hk
  · intro k hk
    rw [get?_collections_freeAll, if_neg fun ho => Nat.not_le.mpr hk (hcol k ho)]
    exact h.collections k hk
  · intro k hk
    rw [get?_places_freeAll, if_neg fun ho => Nat.not_le.mpr hk (hplace k ho)]
    exact h.places k hk
  · intro k hk
    rw [releasesOf_freeAll_of_not_owned (fun ho => Nat.not_le.mpr hk (harr k ho))
      (fun ho => Nat.not_le.mpr hk (hcol k ho))]
    exact h.releases k hk
  · rw [hlinks]
    exact h.links
  · intro d nodes n hd found mem
    rw [get?_collections_freeAll] at found
    split at found
    · cases found
    · exact h.closed d nodes n hd found mem

/-! ## Copying -/

section Copying

variable {nested : Handle → Host → Option Handle × Host}

/-- What a copied payload refers to is new, given that nested copies are. -/
theorem copyPayload (hnested : ∀ c w', Confined b w w' →
      Confined b w (nested c w').2 ∧ ∀ k, (nested c w').1 = some k → b ≤ k)
    (h : Confined b w w') (p : Payload) :
    Confined b w (Host.copyPayload nested w' p).2 ∧
      ∀ q, (Host.copyPayload nested w' p).1 = some q → New b q := by
  cases p with
  | tensor k =>
    obtain ⟨hconf, hnew⟩ := h.addArray? ((w'.arrays.get? k).map fun a => { a with shares := 0 })
    refine ⟨hconf, fun q hq => ?_⟩
    obtain ⟨k', hk', rfl⟩ := Option.map_eq_some_iff.mp hq
    exact new_of_stored rfl (hnew k' hk')
  | numericArray k =>
    obtain ⟨hconf, hnew⟩ := h.addArray? ((w'.arrays.get? k).map fun a => { a with shares := 0 })
    refine ⟨hconf, fun q hq => ?_⟩
    obtain ⟨k', hk', rfl⟩ := Option.map_eq_some_iff.mp hq
    exact new_of_stored rfl (hnew k' hk')
  | collection c =>
    obtain ⟨hconf, hnew⟩ := hnested c w' h
    refine ⟨hconf, fun q hq => ?_⟩
    obtain ⟨k', hk', rfl⟩ := Option.map_eq_some_iff.mp hq
    exact new_of_stored rfl (hnew k' hk')
  | _ =>
    refine ⟨h, fun q hq => ?_⟩
    obtain rfl := Option.some.inj hq
    exact new_of_stored_none rfl

/-- A copy gets new contents, and if one of its nodes cannot be copied it is freed with them. -/
theorem copyNodes (hnested : ∀ c w', Confined b w w' →
      Confined b w (nested c w').2 ∧ ∀ k, (nested c w').1 = some k → b ≤ k)
    {copy : Handle} (hcopy : b ≤ copy) (h : Confined b w w') (nodes : List Node) :
    Confined b w (Host.copyNodes nested copy w' nodes).2 := by
  induction nodes generalizing w' with
  | nil => exact h
  | cons n rest ih =>
    obtain ⟨hconf, hnew⟩ := h.copyPayload hnested n.payload
    rcases hp : Host.copyPayload nested w' n.payload with ⟨_ | p, w₁⟩
    · rw [hp] at hconf
      rw [Host.copyNodes, hp]
      exact hconf.freeCollection hcopy
    · rw [hp] at hconf hnew
      rw [Host.copyNodes, hp]
      exact ih (hconf.appendNode hcopy n.name (hnew p rfl))

end Copying

end Confined

/-- The copy of nodes is the collection that they were put into. -/
theorem copyNodes_result {nested : Handle → Host → Option Handle × Host} {copy k : Handle} {w : Host}
    {nodes : List Node} (h : (copyNodes nested copy w nodes).1 = some k) : k = copy := by
  fun_induction copyNodes nested copy w nodes with
  | case1 w => exact (Option.some.inj h).symm
  | case2 w n rest w' hp => cases h
  | case3 w n rest p w' hp ih => exact ih h

/-- **What copying leaves alone**, whether it succeeds or not. It is a sequence of changes, changes that
were confined to numbers from `b` on still are, and a copy has such a number. -/
structure Framed (w : Host) (r : Option Handle × Host) : Prop where
  evolves : Evolves w r.2
  confined : ∀ {b w₀}, Confined b w₀ w → Confined b w₀ r.2 ∧ ∀ k, r.1 = some k → b ≤ k

theorem Framed.copyRule : CopyRule fun _ => Framed where
  none c w := ⟨.refl w, fun h => ⟨h, fun k hk => by cases hk⟩⟩
  nodes hnested c w nodes live := by
    refine ⟨Evolves.copyRule.nodes (fun c w => (hnested c w).evolves) live, fun h => ⟨?_, ?_⟩⟩
    · exact h.newCollection.copyNodes (fun c w' h' => (hnested c w').confined h') h.next nodes
    · intro k hk
      obtain rfl := copyNodes_result hk
      exact h.next

/-- **Copying changes new numbers only.** -/
theorem Confined.copyCollection {b : Handle} {w w' : Host} (h : Confined b w w') (c : Handle) :
    Confined b w (w'.copyCollection c).2 ∧ ∀ k, (w'.copyCollection c).1 = some k → b ≤ k :=
  (Framed.copyRule.copyCollection w' c).confined h

end Host

end Marshal
