import Mathlib.Data.List.Nodup
import Mathlib.Tactic.ByContra
import Mathlib.Tactic.Tauto
import Marshal.Proofs.Host.Change

/-!
# `Proofs.Host.History` — the host's tables stay in step

A history is a run of the host from its empty state, together with the numbers that it has given out
and what each was given to. Along every history the tables agree with each other and with the counts
of frees: `Sound` says how. Most of it rests on one balance. For every number, the frees counted for
it and the arrays and collections that it names add up to one if it was given to an array or a
collection, and to zero otherwise. A change moves a number from one side of the balance to the other
and never touches the sum, whatever handles it is asked about. The sum is taken in the 32 bits of the
counters; in a history it does not matter, because at no time does a count of frees get past one.

## Contents

* `names` — what a number names;
* `History`, `Sound` — runs, and what holds along them;
* `Change.next`, `Change.named`, `Change.tally` — what one change gives out, names and counts;
* `Sound.change`, `Sound.disown`, `History.sound` — the invariant.
-/

namespace Marshal.Host

open Marshal.Number Marshal.Text

/-! ## What a number names -/

/-- Whether a number names something of a sort. -/
def names (w : Host) : Use → Handle → Bool
  | .array, h => w.arrays.contains h
  | .collection, h => w.collections.contains h
  | .node, h => w.places.contains h
  | .link, h => w.links.contains h

/-- The frees counted for a number. -/
def freesOf (w : Host) (h : Handle) : UInt32 := (w.releasesOf h).frees

@[simp] theorem toUInt32_true : true.toUInt32 = 1 := rfl

@[simp] theorem toUInt32_false : false.toUInt32 = 0 := rfl

/-- The frees counted for a number together with the arrays and collections that it names. -/
def tally (w : Host) (h : Handle) : UInt32 :=
  w.freesOf h + (w.names .array h).toUInt32 + (w.names .collection h).toUInt32

/-- One for a number that was given to an array or a collection, none for any other. -/
def owed (made : List (Handle × Use)) (h : Handle) : UInt32 :=
  if (h, .array) ∈ made ∨ (h, .collection) ∈ made then 1 else 0

/-! ## Histories -/

/-- A run of the host from its empty state, with the numbers that it has given out in order. -/
inductive History : List (Handle × Use) → Host → Prop
  | start : History [] {}
  | change {made more : List (Handle × Use)} {w w' : Host} :
      History made w → Change w more w' → History (made ++ more) w'
  | disown {made : List (Handle × Use)} {w : Host} (h : Handle) :
      History made w → History made (w.disownArray h)

/-- A history goes on with any changes. -/
theorem History.changes {made more : List (Handle × Use)} {w w' : Host} (past : History made w)
    (h : Changes w more w') : History (made ++ more) w' := by
  induction h with
  | refl => simpa using past
  | tail _ step ih =>
    rw [← List.append_assoc]
    exact ih.change step

/-- **What holds along every history**, given the numbers that have been given out. -/
structure Sound (made : List (Handle × Use)) (w : Host) : Prop where
  /-- The numbers have been given out in order, from one up to the next number. -/
  next_pos : 0 < w.nextId
  numbers : made.map Prod.fst = List.range' 1 (w.nextId - 1)
  /-- A number names only what it was given to. -/
  named : ∀ u h, w.names u h = true → (h, u) ∈ made
  /-- A node has its place, and a place has its node. -/
  place_iff : ∀ id c p, w.places.get? id = some (c, p) ↔
    ∃ nodes n, w.collections.get? c = some nodes ∧ nodes[p]? = some n ∧ n.id = id
  /-- Frees and live things add up to what was given out. -/
  balance : ∀ h, w.tally h = owed made h

namespace Sound

variable {made : List (Handle × Use)} {w : Host}

/-- No number has been given out twice. -/
theorem distinct (s : Sound made w) : (made.map Prod.fst).Nodup :=
  s.numbers ▸ List.nodup_range'

/-- Null has not been given out, and the next number has not been given out yet. -/
theorem bounds (s : Sound made w) (e : Handle × Use) (he : e ∈ made) :
    0 < e.1 ∧ e.1 < w.nextId := by
  have hmem : e.1 ∈ List.range' 1 (w.nextId - 1) := s.numbers ▸ List.mem_map_of_mem he
  obtain ⟨hpos, hlt⟩ := List.mem_range'_1.mp hmem
  have hnext : 1 + (w.nextId - 1) = w.nextId := Nat.add_sub_cancel' s.next_pos
  exact ⟨hpos, hnext ▸ hlt⟩

/-- A number that names something has been given out before. -/
theorem lt_next (s : Sound made w) {u : Use} {h : Handle} (hn : w.names u h = true) :
    0 < h ∧ h < w.nextId := s.bounds _ (s.named u h hn)

/-- A number has been given to one thing only. -/
theorem use_unique (s : Sound made w) {h : Handle} {u u' : Use} (hu : (h, u) ∈ made)
    (hu' : (h, u') ∈ made) : u = u' := by
  have heq := List.inj_on_of_nodup_map s.distinct hu hu' rfl
  exact (Prod.mk.inj heq).2

/-- A number names one thing only. -/
theorem names_unique (s : Sound made w) {h : Handle} {u u' : Use} (hu : w.names u h = true)
    (hu' : w.names u' h = true) : u = u' := s.use_unique (s.named u h hu) (s.named u' h hu')

/-- What was given to an array or a collection is live with no free counted or gone with one. -/
theorem frees_owned (s : Sound made w) {h : Handle} {u : Use} (hmade : (h, u) ∈ made)
    (hu : u = .array ∨ u = .collection) :
    (w.names u h = true ∧ w.freesOf h = 0) ∨ (w.names u h = false ∧ w.freesOf h = 1) := by
  -- one of the two terms for live things is gone, because the number was given to the other sort
  have unnamed : ∀ v, v ≠ u → w.names v h = false := by
    intro v hv
    by_contra hn
    exact hv (s.use_unique (s.named v h (by simpa using hn)) hmade)
  have hsum := s.balance h
  unfold tally at hsum
  rcases hu with rfl | rfl
  · rw [unnamed .collection (by decide), owed, if_pos (.inl hmade)] at hsum
    cases hn : w.names .array h with
    | true => exact .inl ⟨rfl, by simpa [hn] using hsum⟩
    | false => exact .inr ⟨rfl, by simpa [hn] using hsum⟩
  · rw [unnamed .array (by decide), owed, if_pos (.inr hmade)] at hsum
    cases hn : w.names .collection h with
    | true => exact .inl ⟨rfl, by simpa [hn] using hsum⟩
    | false => exact .inr ⟨rfl, by simpa [hn] using hsum⟩

/-- No free is counted for a node or a link. -/
theorem frees_unowned (s : Sound made w) {h : Handle} {u : Use} (hmade : (h, u) ∈ made)
    (hu : u = .node ∨ u = .link) : w.freesOf h = 0 := by
  have other : ∀ v, v = .array ∨ v = .collection → (h, v) ∉ made := by
    rintro v (rfl | rfl) hmade' <;> rcases hu with rfl | rfl <;>
      exact absurd (s.use_unique hmade hmade') (by decide)
  have unnamed : ∀ v, v = .array ∨ v = .collection → w.names v h = false :=
    fun v hv => Bool.eq_false_iff.mpr fun hn => other v hv (s.named v h hn)
  have hnone : owed made h = 0 :=
    if_neg fun hmade' => hmade'.elim (other .array (.inl rfl)) (other .collection (.inr rfl))
  have hsum := s.balance h
  rw [hnone, tally, unnamed .array (.inl rfl), unnamed .collection (.inr rfl)] at hsum
  simpa using hsum

/-- The next number names nothing. -/
theorem next_unnamed (s : Sound made w) (u : Use) : w.names u w.nextId = false := by
  by_contra hn
  exact absurd (s.lt_next (by simpa using hn)).2 (Nat.lt_irrefl _)

/-- The next number has not been given out. -/
theorem next_not_made (s : Sound made w) (u : Use) : (w.nextId, u) ∉ made := by
  intro hmem
  exact absurd (s.bounds _ hmem).2 (Nat.lt_irrefl _)

/-- A place is that of one node of one collection only. -/
theorem place_unique (s : Sound made w) {c c' p p' : Nat} {nodes nodes' : List Node} {n n' : Node}
    (hc : w.collections.get? c = some nodes) (hn : nodes[p]? = some n)
    (hc' : w.collections.get? c' = some nodes') (hn' : nodes'[p']? = some n')
    (hid : n.id = n'.id) : c = c' ∧ p = p' := by
  have h := (s.place_iff n.id c p).mpr ⟨nodes, n, hc, hn, rfl⟩
  have h' := (s.place_iff n.id c' p').mpr ⟨nodes', n', hc', hn', hid.symm⟩
  have heq := Option.some.inj (h.symm.trans h')
  exact Prod.mk.inj heq

end Sound

/-! ## What a change does to the names -/

theorem names_addArray (w : Host) (a : Dense) (u : Use) (h : Handle) :
    (w.addArray a).2.names u h = (decide (u = .array ∧ h = w.nextId) || w.names u h) := by
  cases u <;> simp [names, addArray, fresh, Table.contains_insert]

theorem names_newCollection (w : Host) (u : Use) (h : Handle) :
    w.newCollection.2.names u h = (decide (u = .collection ∧ h = w.nextId) || w.names u h) := by
  cases u <;> simp [names, newCollection, fresh, Table.contains_insert]

theorem names_newLink (w : Host) (u : Use) (h : Handle) :
    w.newLink.2.names u h = (decide (u = .link ∧ h = w.nextId) || w.names u h) := by
  cases u <;> simp [names, newLink, fresh, Table.contains_insert]

theorem names_appendNode {w : Host} {c : Handle} {nodes : List Node}
    (live : w.collections.get? c = some nodes) (name : Option Bytes) (payload : Payload) (u : Use)
    (h : Handle) :
    (w.appendNode c name payload).names u h =
      (decide (u = .node ∧ h = w.nextId) || w.names u h) := by
  rw [appendNode_of_live live]
  cases u with
  | collection =>
    have hc := Table.contains_of_get? live
    by_cases h = c <;> simp_all [names, Table.contains_insert]
  | _ => simp [names, Table.contains_insert]

theorem names_freeArray (w : Host) (k : Handle) (u : Use) (h : Handle) :
    (w.freeArray k).names u h = (w.names u h && !decide (u = .array ∧ h = k)) := by
  cases u with
  | array =>
    simp only [names, Table.contains, get?_arrays_freeArray]
    by_cases hk : h = k <;> simp [hk]
  | collection => simp [names]
  | node => simp [names]
  | link => simp [names]

theorem names_removeCollection (w : Host) (c : Handle) (nodes : List Node) (u : Use) (h : Handle) :
    (w.removeCollection c nodes).names u h =
      (w.names u h && !decide ((u = .collection ∧ h = c) ∨
        (u = .node ∧ h ∈ nodes.map (·.id)))) := by
  cases u with
  | array => simp [names]
  | collection =>
    simp only [names, collections_removeCollection, Table.contains_erase]
    by_cases hc : h = c <;> simp [hc]
  | node =>
    simp only [names, Table.contains, get?_places_removeCollection]
    by_cases hid : h ∈ nodes.map (·.id) <;> simp [hid]
  | link => simp [names, removeCollection, recordFree]

theorem names_modifyArray (w : Host) (k : Handle) (f : Dense → Dense) (u : Use) (h : Handle) :
    Host.names { w with arrays := w.arrays.modify k f } u h = w.names u h := by
  cases u <;> simp [names]

theorem names_modifyLink (w : Host) (k : Handle) (f : Link → Link) (u : Use) (h : Handle) :
    Host.names { w with links := w.links.modify k f } u h = w.names u h := by
  cases u <;> simp [names]

/-! ## What a change does to the balance -/

/-- The frees of a number depend on the count of releases only. -/
theorem tally_eq {w w' : Host} {h : Handle} (hr : w'.releases = w.releases)
    (ha : w'.names .array h = w.names .array h)
    (hc : w'.names .collection h = w.names .collection h) : w'.tally h = w.tally h := by
  unfold tally freesOf releasesOf
  rw [hr, ha, hc]

/-- Something new is live where nothing was. -/
theorem tally_addArray (w : Host) (a : Dense) (h : Handle)
    (hfresh : w.names .array w.nextId = false) :
    (w.addArray a).2.tally h = w.tally h + if h = w.nextId then 1 else 0 := by
  unfold tally
  rw [names_addArray, names_addArray]
  have hr : (w.addArray a).2.freesOf h = w.freesOf h := rfl
  by_cases hn : h = w.nextId
  · subst hn
    simp [hr, hfresh]
    ac_rfl
  · simp [hr, hn]

theorem tally_newCollection (w : Host) (h : Handle)
    (hfresh : w.names .collection w.nextId = false) :
    w.newCollection.2.tally h = w.tally h + if h = w.nextId then 1 else 0 := by
  unfold tally
  rw [names_newCollection, names_newCollection]
  have hr : w.newCollection.2.freesOf h = w.freesOf h := rfl
  by_cases hn : h = w.nextId
  · subst hn
    simp [hr, hfresh]
  · simp [hr, hn]

/-- A free is counted for what is taken out. -/
theorem tally_freeArray {w : Host} {k : Handle} (live : w.arrays.contains k = true) (h : Handle) :
    (w.freeArray k).tally h = w.tally h := by
  unfold tally freesOf
  rw [names_freeArray, names_freeArray, releasesOf_freeArray]
  by_cases hk : h = k
  · subst hk
    have hn : w.names .array h = true := live
    simp [live, hn]
  · simp [hk]

theorem tally_removeCollection {w : Host} {c : Handle} {nodes : List Node}
    (live : w.collections.get? c = some nodes) (h : Handle) :
    (w.removeCollection c nodes).tally h = w.tally h := by
  unfold tally freesOf
  rw [names_removeCollection, names_removeCollection, releasesOf_removeCollection]
  by_cases hc : h = c
  · subst hc
    have hn : w.names .collection h = true := Table.contains_of_get? live
    simp [hn]
    ac_rfl
  · simp [hc]

/-! ## What a change keeps -/

namespace Change

variable {w w' : Host} {more : List (Handle × Use)}

/-- A change gives out the next number or none. -/
theorem next (step : Change w more w') :
    (more = [] ∧ w'.nextId = w.nextId) ∨
      ∃ u, more = [(w.nextId, u)] ∧ w'.nextId = w.nextId + 1 := by
  cases step with
  | array a => exact .inr ⟨.array, rfl, rfl⟩
  | collection => exact .inr ⟨.collection, rfl, rfl⟩
  | node live name payload =>
    rw [appendNode_of_live live]
    exact .inr ⟨.node, rfl, rfl⟩
  | link => exact .inr ⟨.link, rfl, rfl⟩
  | freeArray live => exact .inl ⟨rfl, nextId_freeArray ..⟩
  | removeCollection live => exact .inl ⟨rfl, rfl⟩
  | modifyArray => exact .inl ⟨rfl, rfl⟩
  | modifyLink => exact .inl ⟨rfl, rfl⟩
  | settings => exact .inl ⟨rfl, rfl⟩

/-- The next number never goes down. -/
theorem nextId_le (step : Change w more w') : w.nextId ≤ w'.nextId := by
  rcases step.next with ⟨-, h⟩ | ⟨u, -, h⟩
  · exact Nat.le_of_eq h.symm
  · exact h ▸ Nat.le_succ _

/-- What a number names after a change, it has named before, or it has just been given out. -/
theorem named (step : Change w more w') {u : Use} {h : Handle} (hn : w'.names u h = true) :
    w.names u h = true ∨ (h, u) ∈ more := by
  -- the four changes that give out a number differ in its use only
  have given : ∀ v : Use, (decide (u = v ∧ h = w.nextId) || w.names u h) = true →
      w.names u h = true ∨ (h, u) ∈ [(w.nextId, v)] := by
    intro v hv
    rcases Bool.or_eq_true_iff.mp hv with hnew | hold
    · obtain ⟨rfl, rfl⟩ := of_decide_eq_true hnew
      exact .inr (List.mem_singleton.mpr rfl)
    · exact .inl hold
  cases step with
  | array a => exact given _ (names_addArray w a u h ▸ hn)
  | collection => exact given _ (names_newCollection w u h ▸ hn)
  | node live name payload => exact given _ (names_appendNode live name payload u h ▸ hn)
  | link => exact given _ (names_newLink w u h ▸ hn)
  | freeArray live =>
    rw [names_freeArray] at hn
    exact .inl (Bool.and_eq_true_iff.mp hn).1
  | removeCollection live =>
    rw [names_removeCollection] at hn
    exact .inl (Bool.and_eq_true_iff.mp hn).1
  | modifyArray k f => exact .inl (names_modifyArray w k f u h ▸ hn)
  | modifyLink k f => exact .inl (names_modifyLink w k f u h ▸ hn)
  | settings => exact .inl hn

/-- **The balance.** A change adds to the balance of a number exactly what it gives out. -/
theorem tally (step : Change w more w') (hfresh : ∀ u, w.names u w.nextId = false) (h : Handle) :
    w'.tally h = w.tally h + owed more h := by
  have none : owed [] h = 0 := by simp [owed]
  have unowned : ∀ u, u = .node ∨ u = .link → owed [(w.nextId, u)] h = 0 := by
    rintro u (rfl | rfl) <;> simp [owed]
  cases step with
  | array a =>
    rw [tally_addArray w a h (hfresh _)]
    simp [owed]
  | collection =>
    rw [tally_newCollection w h (hfresh _)]
    simp [owed]
  | @node c _ live name payload =>
    have hr : (w.appendNode c name payload).releases = w.releases := by
      rw [appendNode_of_live live]
    rw [unowned _ (.inl rfl), UInt32.add_zero]
    exact tally_eq hr (by simp [names_appendNode live]) (by simp [names_appendNode live])
  | link =>
    rw [unowned _ (.inr rfl), UInt32.add_zero]
    exact tally_eq rfl (by simp [names_newLink]) (by simp [names_newLink])
  | freeArray live => rw [none, tally_freeArray live, UInt32.add_zero]
  | removeCollection live => rw [none, tally_removeCollection live, UInt32.add_zero]
  | modifyArray k f =>
    rw [none, UInt32.add_zero]
    exact tally_eq rfl (names_modifyArray ..) (names_modifyArray ..)
  | modifyLink k f =>
    rw [none, UInt32.add_zero]
    exact tally_eq rfl (names_modifyLink ..) (names_modifyLink ..)
  | settings =>
    rw [none, UInt32.add_zero]
    exact tally_eq rfl rfl rfl

end Change

/-! ## The places of nodes -/

namespace Sound

variable {made : List (Handle × Use)} {w : Host}

/-- A new collection has no nodes to find a place for. -/
theorem place_iff_newCollection (s : Sound made w) (id c : Handle) (p : Nat) :
    w.newCollection.2.places.get? id = some (c, p) ↔
      ∃ nodes n, w.newCollection.2.collections.get? c = some nodes ∧ nodes[p]? = some n ∧
        n.id = id := by
  have hcol : w.newCollection.2.collections = w.collections.insert w.nextId [] := rfl
  have hplace : w.newCollection.2.places = w.places := rfl
  rw [hcol, hplace, s.place_iff, Table.get?_insert]
  by_cases hc : c = w.nextId
  · subst hc
    have hdead : w.collections.get? w.nextId = none :=
      Table.get?_of_not_contains (by simpa [names] using s.next_unnamed .collection)
    simp [hdead]
  · simp [hc]

/-- The new node stands at the end of its collection. -/
theorem place_iff_appendNode (s : Sound made w) {c : Handle} {nodes : List Node}
    (live : w.collections.get? c = some nodes) (name : Option Bytes) (payload : Payload)
    (id d : Handle) (p : Nat) :
    (w.appendNode c name payload).places.get? id = some (d, p) ↔
      ∃ nodes n, (w.appendNode c name payload).collections.get? d = some nodes ∧
        nodes[p]? = some n ∧ n.id = id := by
  -- no node carries the next number yet
  have hnew : ∀ (d p : Nat) (nodes : List Node) (n : Node), w.collections.get? d = some nodes →
      nodes[p]? = some n → n.id ≠ w.nextId := by
    intro d p nodes n hd hn hid
    have hplace := (s.place_iff w.nextId d p).mpr ⟨nodes, n, hd, hn, hid⟩
    have hname : w.names .node w.nextId = true := Table.contains_of_get? hplace
    rw [s.next_unnamed] at hname
    cases hname
  rw [appendNode_of_live live]
  simp only [Table.get?_insert]
  by_cases hid : id = w.nextId
  · -- the new node, which stands after all the others
    subst hid
    rw [if_pos rfl]
    constructor
    · intro h
      obtain ⟨rfl, rfl⟩ := Prod.mk.inj (Option.some.inj h)
      exact ⟨_, ⟨w.nextId, name, payload⟩, if_pos rfl, by simp, rfl⟩
    · rintro ⟨nodes', n, hd, hn, hnid⟩
      by_cases hdc : d = c
      · subst hdc
        rw [if_pos rfl] at hd
        obtain rfl := Option.some.inj hd
        by_cases hp : p < nodes.length
        · rw [List.getElem?_append_left hp] at hn
          exact absurd hnid (hnew d p nodes n live hn)
        · have hlt := (List.getElem?_eq_some_iff.mp hn).1
          rw [List.length_append, List.length_singleton] at hlt
          have : p = nodes.length := by omega
          rw [this]
      · rw [if_neg hdc] at hd
        exact absurd hnid (hnew d p nodes' n hd hn)
  · -- an old node, which keeps its place
    rw [if_neg hid, s.place_iff]
    by_cases hdc : d = c
    · subst hdc
      rw [if_pos rfl, live]
      constructor
      · rintro ⟨nodes', n, hd, hn, hnid⟩
        obtain rfl := Option.some.inj hd
        have hp := (List.getElem?_eq_some_iff.mp hn).1
        exact ⟨_, n, rfl, (List.getElem?_append_left hp).trans hn, hnid⟩
      · rintro ⟨nodes', n, hd, hn, hnid⟩
        obtain rfl := Option.some.inj hd
        by_cases hp : p < nodes.length
        · rw [List.getElem?_append_left hp] at hn
          exact ⟨nodes, n, rfl, hn, hnid⟩
        · have hlast : n = ⟨w.nextId, name, payload⟩ := by
            rw [List.getElem?_append_right (Nat.not_lt.mp hp)] at hn
            simpa using List.mem_of_getElem? hn
          rw [hlast] at hnid
          exact absurd hnid.symm hid
    · rw [if_neg hdc]

/-- The places that go are those of the nodes that go. -/
theorem place_iff_removeCollection (s : Sound made w) {c : Handle} {nodes : List Node}
    (live : w.collections.get? c = some nodes) (id d : Handle) (p : Nat) :
    (w.removeCollection c nodes).places.get? id = some (d, p) ↔
      ∃ nodes' n, (w.removeCollection c nodes).collections.get? d = some nodes' ∧
        nodes'[p]? = some n ∧ n.id = id := by
  rw [get?_places_removeCollection, collections_removeCollection, Table.get?_erase]
  by_cases hdc : d = c
  · subst hdc
    -- a place in this collection is the place of one of its nodes, so it goes
    have hgone : ∀ p, w.places.get? id = some (d, p) → id ∈ nodes.map (·.id) := by
      intro p hp
      obtain ⟨nodes', n, hd, hn, hid⟩ := (s.place_iff id d p).mp hp
      obtain rfl := Option.some.inj (live.symm.trans hd)
      exact List.mem_map.mpr ⟨n, List.mem_of_getElem? hn, hid⟩
    constructor
    · intro h
      split at h
      · cases h
      · next hkept => exact absurd (hgone p h) hkept
    · rintro ⟨nodes', n, hd, -⟩
      rw [if_pos rfl] at hd
      cases hd
  · rw [if_neg hdc, ← s.place_iff]
    split
    · next hgone =>
      refine ⟨fun h => (by cases h), fun h => ?_⟩
      obtain ⟨n, hn, hid⟩ := List.mem_map.mp hgone
      obtain ⟨q, hq⟩ := List.mem_iff_getElem?.mp hn
      obtain ⟨nodes', n', hd, hn', hid'⟩ := (s.place_iff id d p).mp h
      exact absurd (s.place_unique hd hn' live hq (hid'.trans hid.symm)).1 hdc
    · rfl

/-- Nodes and places stay in step under every change. -/
theorem place_iff_change (s : Sound made w) {w' : Host} {more : List (Handle × Use)}
    (step : Change w more w') (id c : Handle) (p : Nat) :
    w'.places.get? id = some (c, p) ↔
      ∃ nodes n, w'.collections.get? c = some nodes ∧ nodes[p]? = some n ∧ n.id = id := by
  cases step with
  | collection => exact s.place_iff_newCollection id c p
  | node live name payload => exact s.place_iff_appendNode live name payload id c p
  | removeCollection live => exact s.place_iff_removeCollection live id c p
  | freeArray live =>
    rw [places_freeArray, collections_freeArray]
    exact s.place_iff id c p
  | array => exact s.place_iff id c p
  | link => exact s.place_iff id c p
  | modifyArray => exact s.place_iff id c p
  | modifyLink => exact s.place_iff id c p
  | settings => exact s.place_iff id c p

/-! ## The invariant -/

/-- **Step lemma.** A change keeps the tables in step. -/
theorem change (s : Sound made w) {w' : Host} {more : List (Handle × Use)}
    (step : Change w more w') : Sound (made ++ more) w' := by
  refine ⟨Nat.lt_of_lt_of_le s.next_pos step.nextId_le, ?_, ?_, s.place_iff_change step, ?_⟩
  · rcases step.next with ⟨rfl, h⟩ | ⟨u, rfl, h⟩
    · rw [List.append_nil, s.numbers, h]
    · have hnext : 1 + (w.nextId - 1) = w.nextId := Nat.add_sub_cancel' s.next_pos
      have hlen : w'.nextId - 1 = (w.nextId - 1) + 1 := by
        rw [h, Nat.add_sub_cancel, Nat.sub_add_cancel s.next_pos]
      rw [List.map_append, s.numbers, hlen, List.range'_1_concat, hnext]
      rfl
  · intro u h hn
    rcases step.named hn with hold | hnew
    · exact List.mem_append_left _ (s.named u h hold)
    · exact List.mem_append_right _ hnew
  · intro h
    rw [step.tally s.next_unnamed, s.balance]
    rcases step.next with ⟨rfl, -⟩ | ⟨u, rfl, -⟩
    · simp [owed]
    · by_cases hh : h = w.nextId
      · subst hh
        simp [owed, s.next_not_made]
      · simp [owed, hh]

/-- Giving back a share keeps the tables in step: it is no free, and what it is asked about stays
    live or dead. -/
theorem disown (s : Sound made w) (k : Handle) : Sound made (w.disownArray k) := by
  have hnames : ∀ u h, (w.disownArray k).names u h = w.names u h := by
    intro u h
    cases u <;> simp [names, disownArray, recordDisown]
  have hfrees : ∀ h, (w.disownArray k).freesOf h = w.freesOf h := by
    intro h
    unfold freesOf disownArray
    rw [releasesOf_recordDisown]
    split
    · next hk => subst hk; rfl
    · rfl
  refine ⟨s.next_pos, s.numbers, ?_, s.place_iff, ?_⟩
  · intro u h hn
    exact s.named u h (hnames u h ▸ hn)
  · intro h
    unfold tally
    rw [hfrees, hnames, hnames]
    exact s.balance h

/-- The empty host is in step with nothing given out. -/
theorem start : Sound [] {} := by
  refine ⟨by decide, by simp, ?_, ?_, ?_⟩
  · intro u h hn
    cases u <;> simp [names, Table.contains] at hn
  · intro id c p
    simp
  · intro h
    simp [tally, freesOf, releasesOf, names, Table.contains, owed]

end Sound

/-- **Run lemma.** Along every history the tables are in step. -/
theorem History.sound {made : List (Handle × Use)} {w : Host} (past : History made w) :
    Sound made w := by
  induction past with
  | start => exact .start
  | change _ step ih => exact ih.change step
  | disown h _ ih => exact ih.disown h

end Marshal.Host
