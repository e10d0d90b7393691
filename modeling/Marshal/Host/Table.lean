/-!
# `Host.Table` — finite tables of numbered things

A table gives some natural numbers a thing each. It is an association list in which every number
stands at most once, because adding under a number first takes the old entry out. Statements about a
table are made through `get?`; `size` counts its entries.

## Contents

* `Table`, `get?`, `insert`, `erase`, `modify`, `size`;
* what each operation does to `get?` and `contains`, and what `erase` does to `size`.
-/

namespace Marshal

/-- A finite table. No number has two entries. -/
structure Table (α : Type) where
  entries : List (Nat × α)
  distinct : (entries.map Prod.fst).Nodup
  deriving Repr, DecidableEq

namespace Table

variable {α : Type}

instance : EmptyCollection (Table α) := ⟨⟨[], List.nodup_nil⟩⟩

instance : Inhabited (Table α) := ⟨{}⟩

/-- The thing under a number. -/
def get? (t : Table α) (n : Nat) : Option α := (t.entries.find? (·.1 == n)).map (·.2)

/-- Whether there is a thing under a number. -/
def contains (t : Table α) (n : Nat) : Bool := (t.get? n).isSome

/-- Take out what is under a number. -/
def erase (t : Table α) (n : Nat) : Table α where
  entries := t.entries.filter (·.1 != n)
  distinct := t.distinct.sublist (List.filter_sublist.map _)

/-- Put a thing under a number, in place of what was there. -/
def insert (t : Table α) (n : Nat) (a : α) : Table α where
  entries := (n, a) :: (t.erase n).entries
  distinct := List.nodup_cons.mpr ⟨by simp [erase], (t.erase n).distinct⟩

/-- Change the thing under a number, if there is one. -/
def modify (t : Table α) (n : Nat) (f : α → α) : Table α :=
  match t.get? n with
  | some a => t.insert n (f a)
  | none => t

/-- The number of entries. -/
def size (t : Table α) : Nat := t.entries.length

/-! ## Look-ups after a change -/

@[simp] theorem get?_empty (n : Nat) : (({} : Table α).get? n) = none := rfl

@[simp] theorem get?_erase_self (t : Table α) (n : Nat) : (t.erase n).get? n = none := by
  simp [get?, erase, List.find?_filter]

theorem get?_erase_of_ne (t : Table α) {n m : Nat} (h : m ≠ n) :
    (t.erase n).get? m = t.get? m := by
  unfold get? erase
  rw [List.find?_filter]
  congr 2
  funext p
  by_cases hp : p.1 = m
  · simp [hp, h]
  · simp [hp]

@[simp] theorem get?_insert_self (t : Table α) (n : Nat) (a : α) :
    (t.insert n a).get? n = some a := by
  simp [get?, insert]

theorem get?_insert_of_ne (t : Table α) {n m : Nat} (a : α) (h : m ≠ n) :
    (t.insert n a).get? m = t.get? m := by
  have hne : (n == m) = false := by simpa using fun e : n = m => h e.symm
  have : (t.insert n a).get? m = (t.erase n).get? m := by
    simp [get?, insert, hne]
  rw [this, get?_erase_of_ne t h]

/-- A look-up after an insertion finds the new thing under its number and the old ones elsewhere. -/
theorem get?_insert (t : Table α) (n m : Nat) (a : α) :
    (t.insert n a).get? m = if m = n then some a else t.get? m := by
  by_cases h : m = n
  · subst h; simp
  · simp [h, get?_insert_of_ne t a h]

/-- A look-up after a removal finds nothing under the number and the old things elsewhere. -/
theorem get?_erase (t : Table α) (n m : Nat) :
    (t.erase n).get? m = if m = n then none else t.get? m := by
  by_cases h : m = n
  · subst h; simp
  · simp [h, get?_erase_of_ne t h]

/-- A look-up after a change finds the changed thing under its number and the old ones elsewhere. -/
theorem get?_modify (t : Table α) (n m : Nat) (f : α → α) :
    (t.modify n f).get? m = if m = n then (t.get? n).map f else t.get? m := by
  unfold modify
  cases h : t.get? n with
  | none =>
    by_cases hm : m = n
    · subst hm; simp [h]
    · simp [hm]
  | some a => simp [get?_insert]

/-- There is something after an insertion under its number and where there was something before. -/
theorem contains_insert (t : Table α) (n m : Nat) (a : α) :
    (t.insert n a).contains m = (decide (m = n) || t.contains m) := by
  unfold contains
  rw [get?_insert]
  by_cases h : m = n <;> simp [h]

/-- There is something after a removal where there was something before, but for its number. -/
theorem contains_erase (t : Table α) (n m : Nat) :
    (t.erase n).contains m = (!decide (m = n) && t.contains m) := by
  unfold contains
  rw [get?_erase]
  by_cases h : m = n <;> simp [h]

/-- A change leaves something where there was something. -/
@[simp] theorem contains_modify (t : Table α) (n m : Nat) (f : α → α) :
    (t.modify n f).contains m = t.contains m := by
  unfold contains
  rw [get?_modify]
  by_cases h : m = n <;> simp [h]

theorem contains_iff {t : Table α} {n : Nat} : t.contains n = true ↔ ∃ a, t.get? n = some a :=
  Option.isSome_iff_exists

theorem contains_of_get? {t : Table α} {n : Nat} {a : α} (h : t.get? n = some a) :
    t.contains n = true := by rw [contains, h]; rfl

theorem get?_of_not_contains {t : Table α} {n : Nat} (h : ¬ t.contains n = true) :
    t.get? n = none := Option.not_isSome_iff_eq_none.mp h

theorem mem_entries_of_get? {t : Table α} {n : Nat} {a : α} (h : t.get? n = some a) :
    (n, a) ∈ t.entries := by
  obtain ⟨p, hp, rfl⟩ := Option.map_eq_some_iff.mp h
  have hkey : (p.1 == n) = true := List.find?_some (p := fun q : Nat × α => q.1 == n) hp
  rw [← eq_of_beq hkey]
  exact List.mem_of_find?_eq_some hp

/-! ## Sizes -/

/-- Taking something out makes a table smaller. -/
theorem size_erase_lt {t : Table α} {n : Nat} {a : α} (h : t.get? n = some a) :
    (t.erase n).size < t.size := by
  unfold size erase
  refine Nat.lt_of_le_of_ne (List.length_filter_le _ _) fun heq => ?_
  have hall := List.length_filter_eq_length_iff.mp heq (n, a) (mem_entries_of_get? h)
  simp at hall

end Table

end Marshal
