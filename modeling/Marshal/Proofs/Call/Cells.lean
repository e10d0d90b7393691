import Marshal.Call

/-!
# `Proofs.Call.Cells` — slots with storage of their own

Each slot that is not empty when a call is made gets a cell of storage to itself. As long as no slot is bound
to what another one refers to, this stays so, and the slots can be taken for what they hold: an argument is
read as its slot holds it, and writing to a slot replaces what it holds and nothing else.

## Contents

* `Call.contents`, `Call.Parted` — what the slots hold, and storage of their own;
* `Call.create_spec` — the call that is made for some slots;
* `Call.setCell_spec` — writing to a slot;
* `payload_of_contents`, `wrap_of_contents` and their companions — reading and wrapping an argument.
-/

namespace Marshal

namespace Call

variable {c : Call}

/-! ## What the slots hold -/

/-- What the slots hold. -/
def contents (c : Call) : List (Option Payload) := c.slots.map fun slot => slot.map c.cell

/-- Each slot that refers to a cell refers to one of its own. -/
structure Parted (c : Call) : Prop where
  present : ∀ i n : Nat, c.slots[i]? = some (some n) → n < c.cells.length
  apart : ∀ i j n : Nat, c.slots[i]? = some (some n) → c.slots[j]? = some (some n) → i = j

theorem getElem?_contents (c : Call) (i : Nat) :
    c.contents[i]? = (c.slots[i]?).map fun slot => slot.map c.cell := List.getElem?_map ..

/-- A slot that holds something refers to a cell with it. -/
theorem exists_cell_of_contents {i : Nat} {p : Payload} (h : c.contents[i]? = some (some p)) :
    ∃ n, c.slots[i]? = some (some n) ∧ c.cell n = p := by
  rw [getElem?_contents] at h
  obtain ⟨slot, hslot, h⟩ := Option.map_eq_some_iff.mp h
  obtain ⟨n, rfl, hcell⟩ := Option.map_eq_some_iff.mp h
  exact ⟨n, hslot, hcell⟩

/-- A slot that holds nothing refers to nothing. -/
theorem slots_of_contents {i : Nat} (h : c.contents[i]? = some none) : c.slots[i]? = some none := by
  rw [getElem?_contents] at h
  obtain ⟨slot, hslot, h⟩ := Option.map_eq_some_iff.mp h
  rwa [Option.map_eq_none_iff.mp h] at hslot

/-- The cell of an argument that holds something. -/
theorem slot_of_contents {i : Nat} {p : Payload} (below : i < c.count)
    (h : c.contents[i]? = some (some p)) :
    ∃ n, c.slots[i]? = some (some n) ∧ c.slot i = .ok (some n) ∧ c.cell n = p := by
  obtain ⟨n, hslot, hcell⟩ := exists_cell_of_contents h
  refine ⟨n, hslot, ?_, hcell⟩
  rw [slot, if_pos below, target, hslot]
  rfl

theorem slot_of_no_contents {i : Nat} (below : i < c.count) (h : c.contents[i]? = some none) :
    c.slot i = .ok none := by
  rw [slot, if_pos below, target, slots_of_contents h]
  rfl

theorem slot_of_le {i : Nat} (beyond : c.count ≤ i) :
    c.slot i = .error (.argumentIndex i c.count) := if_neg (Nat.not_lt.mpr beyond)

/-! ## The beginning -/

/-- The numbers of the cells that are handed out from one on. -/
theorem mem_arrange {slots : List (Option Payload)} {next n : Nat}
    (h : some n ∈ arrange next slots) : next ≤ n ∧ n < next + (slots.filterMap id).length := by
  induction slots generalizing next with
  | nil => cases h
  | cons slot rest ih =>
    cases slot with
    | none =>
      rcases List.mem_cons.mp h with h | h
      · cases h
      · exact ih h
    | some p =>
      rw [List.filterMap_cons_some (show id (some p) = some p from rfl), List.length_cons]
      rcases List.mem_cons.mp h with h | h
      · obtain rfl : n = next := Option.some.inj h
        omega
      · have := ih h
        omega

/-- No cell is handed out twice. -/
theorem arrange_apart {slots : List (Option Payload)} {next i j n : Nat}
    (hi : (arrange next slots)[i]? = some (some n)) (hj : (arrange next slots)[j]? = some (some n)) :
    i = j := by
  induction slots generalizing next i j with
  | nil => cases hi
  | cons slot rest ih =>
    cases slot with
    | none =>
      cases i with
      | zero => cases hi
      | succ i =>
        cases j with
        | zero => cases hj
        | succ j => exact congrArg (· + 1) (ih hi hj)
    | some p =>
      -- The first cell has a smaller number than all that follow.
      cases i with
      | zero =>
        cases j with
        | zero => rfl
        | succ j =>
          obtain rfl : next = n := Option.some.inj (Option.some.inj hi)
          have hlater : (arrange (next + 1) rest)[j]? = some (some next) := hj
          have := (mem_arrange (List.mem_of_getElem? hlater)).1
          omega
      | succ i =>
        cases j with
        | zero =>
          obtain rfl : next = n := Option.some.inj (Option.some.inj hj)
          have hlater : (arrange (next + 1) rest)[i]? = some (some next) := hi
          have := (mem_arrange (List.mem_of_getElem? hlater)).1
          omega
        | succ j => exact congrArg (· + 1) (ih hi hj)

/-- The cells that are handed out hold what the slots are said to hold. -/
theorem map_arrange (slots : List (Option Payload)) (before : List Payload) (missing : Payload) :
    (arrange before.length slots).map
        (fun slot => slot.map fun n => ((before ++ slots.filterMap id)[n]?).getD missing) =
      slots := by
  induction slots generalizing before with
  | nil => rfl
  | cons slot rest ih =>
    cases slot with
    | none => exact congrArg (none :: ·) (ih before)
    | some p =>
      have hrest := ih (before ++ [p])
      rw [List.length_append, List.append_assoc] at hrest
      rw [List.filterMap_cons_some (show id (some p) = some p from rfl)]
      show some (((before ++ p :: rest.filterMap id)[before.length]?).getD missing) :: _ = _
      rw [List.getElem?_append_right (Nat.le_refl _), Nat.sub_self, List.getElem?_cons_zero]
      exact congrArg (some p :: ·) hrest

/-- **A call that is made for some slots** has them, with storage of their own. -/
theorem create_spec {count : Nat} {handedOver : Bool} {slots : List (Option Payload)}
    (result : Option Payload) (stored : count ≤ slots.length) (handed : 0 < count → handedOver = true) :
    ∃ c, create count handedOver slots result = .ok c ∧
      c.count = count ∧ c.contents = slots ∧ c.result = result ∧ c.Parted := by
  refine ⟨⟨min (count : Int).toNat slots.length, arrange 0 slots, slots.filterMap id, result⟩,
    ?_, ?_, ?_, rfl, ?_, ?_⟩
  · have hfits : ¬ ((0 : Int) < count ∧ (!handedOver) = true) := by
      rintro ⟨hpositive, hmissing⟩
      rw [handed (by omega)] at hmissing
      cases hmissing
    rw [create, if_neg (by omega), if_neg hfits]
  · show min (count : Int).toNat slots.length = count
    omega
  · exact map_arrange slots [] (.zero .erased)
  · intro i n h
    have := (mem_arrange (List.mem_of_getElem? h)).2
    rwa [Nat.zero_add] at this
  · exact fun i j n hi hj => arrange_apart hi hj

/-! ## Writing -/

/-- **Writing to a slot** changes what it holds and nothing else. -/
theorem setCell_spec (parted : c.Parted) {i n : Nat} (hslot : c.slots[i]? = some (some n)) (q : Payload)
    (fits : q.kind = (c.cell n).kind) :
    (c.setCell n q).contents = c.contents.set i (some q) ∧ (c.setCell n q).Parted := by
  have hlt := parted.present i n hslot
  constructor
  · refine List.ext_getElem? fun j => ?_
    rw [getElem?_contents, List.getElem?_set, getElem?_contents]
    show (c.slots[j]?).map (fun slot => slot.map (c.setCell n q).cell) = _
    by_cases hj : i = j
    · subst hj
      have hself : (c.setCell n q).cell n = q := by
        rw [setCell, ← fits, Payload.readAs_kind, cell, List.getElem?_set_self hlt, Option.getD_some]
      have hi : i < c.contents.length := by
        rw [contents, List.length_map]
        exact (List.getElem?_eq_some_iff.mp hslot).1
      rw [hslot, if_pos rfl, if_pos hi, Option.map_some, Option.map_some, hself]
    · rw [if_neg hj]
      cases h : c.slots[j]? with
      | none => rfl
      | some slot =>
        cases slot with
        | none => rfl
        | some m =>
          have hother : n ≠ m := by
            rintro rfl
            exact hj (parted.apart i j n hslot h)
          have hcell : (c.setCell n q).cell m = c.cell m := by
            rw [setCell, cell, List.getElem?_set_ne hother, cell]
          rw [Option.map_some, Option.map_some, Option.map_some, Option.map_some, hcell]
  · refine ⟨fun j m h => ?_, parted.apart⟩
    rw [setCell, List.length_set]
    exact parted.present j m h

/-! ## Reading -/

/-- An argument that holds something is read as it is at its kind. -/
theorem payload_of_contents {i : Nat} {p : Payload} (below : i < c.count)
    (h : c.contents[i]? = some (some p)) : c.payload p.kind i = .ok p := by
  obtain ⟨n, -, hslot, rfl⟩ := slot_of_contents below h
  rw [payload, hslot]
  show Except.ok ((c.cell n).readAs (c.cell n).kind) = _
  rw [Payload.readAs_kind]

theorem payload_of_le {i : Nat} (beyond : c.count ≤ i) (kind : Kind) :
    c.payload kind i = .error (.argumentIndex i c.count) := by
  rw [payload, slot_of_le beyond]
  rfl

/-- An argument that holds something can be wrapped. -/
theorem wrap_of_contents {i : Nat} {p : Payload} (below : i < c.count)
    (h : c.contents[i]? = some (some p)) :
    ∃ n, c.slots[i]? = some (some n) ∧ (∀ kind, c.wrap kind i = .ok n) ∧ c.cell n = p := by
  obtain ⟨n, hplace, hslot, hcell⟩ := slot_of_contents below h
  refine ⟨n, hplace, fun kind => ?_, hcell⟩
  rw [wrap, hslot]
  rfl

theorem wrap_of_no_contents {i : Nat} (below : i < c.count) (h : c.contents[i]? = some none)
    (kind : Kind) : c.wrap kind i = .error (.nullSlot kind) := by
  rw [wrap, slot_of_no_contents below h]
  rfl

theorem wrap_of_le {i : Nat} (beyond : c.count ≤ i) (kind : Kind) :
    c.wrap kind i = .error (.argumentIndex i c.count) := by
  rw [wrap, slot_of_le beyond]
  rfl

end Call

end Marshal
