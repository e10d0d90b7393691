import Mathlib.Algebra.BigOperators.Group.List.Basic
import Mathlib.Algebra.Ring.Int.Defs
import Mathlib.Data.List.Forall2
import Marshal.Array.Shape

/-!
# `Proofs.Array.Positions` — positions number the elements row by row

The number of the element at a position is the sum of its coordinates, each taken as often as there are
elements behind one step in its dimension. The positions of a shape and the numbers below its count of
elements correspond to each other one to one: the coordinates are the digits of the number in a system
whose places have the dimensions as bases.

Folding the coordinates in from the left never leaves the address space if the shape could be counted.
Counting has multiplied the leading dimensions in the same order, and the number of a position so far
is below the count so far. A dimension of zero does not matter, because no coordinate gets past it.

## Contents

* `Within`, `volume`, `rowMajor` — the positions of a shape, and their numbers;
* `linearIndex_of_within`, `linearIndex_of_outside`, `within_of_linearIndex` — what `linearIndex`
  answers;
* `existsUnique_position` — positions and numbers correspond;
* `boundedIndexFrom?` — the number of a position in machine arithmetic, which does not overflow.
-/

namespace Marshal

/-! ## Positions and their numbers -/

/-- Each coordinate lies in its dimension, and there are as many of them. -/
def Within (dims position : List Int) : Prop :=
  List.Forall₂ (fun d p => 0 ≤ p ∧ p < d) dims position

/-- The product of the dimensions. -/
def volume (dims : List Int) : Nat := (dims.map Int.toNat).prod

/-- The number of a position in row-major order. -/
def rowMajor : List Int → List Int → Nat
  | _ :: dims, p :: position => p.toNat * volume dims + rowMajor dims position
  | _, _ => 0

theorem volume_cons (d : Int) (dims : List Int) : volume (d :: dims) = d.toNat * volume dims := by
  rw [volume, List.map_cons, List.prod_cons, volume]

/-- A shape that can be counted has no negative dimensions, and its count is their product. -/
theorem elementCountFrom?_eq_some {count length : Nat} {dims : List Int}
    (h : elementCountFrom? count dims = some length) :
    length = count * volume dims ∧ ∀ d ∈ dims, 0 ≤ d := by
  induction dims generalizing count with
  | nil =>
    obtain rfl := Option.some.inj h
    simp [volume]
  | cons d dims ih =>
    rw [elementCountFrom?] at h
    split at h
    · cases h
    · next hd =>
      rw [boundedMul?] at h
      split at h
      · cases h
      · next product hproduct =>
        split at hproduct
        · obtain rfl := Option.some.inj hproduct
          obtain ⟨rfl, hdims⟩ := ih h
          refine ⟨by rw [volume_cons, Nat.mul_assoc], ?_⟩
          intro e he
          rcases List.mem_cons.mp he with rfl | he
          · exact Int.not_lt.mp hd
          · exact hdims e he
        · cases hproduct

/-- The count of a shape is the product of its dimensions. -/
theorem elementCount?_eq_some {length : Nat} {dims : List Int}
    (h : elementCount? dims = some length) : length = volume dims ∧ ∀ d ∈ dims, 0 ≤ d := by
  obtain ⟨hlength, hdims⟩ := elementCountFrom?_eq_some h
  exact ⟨hlength.trans (Nat.one_mul _), hdims⟩

/-- The product does not depend on where it is taken if no dimension is negative. -/
theorem volume_eq_prod {dims : List Int} (hdims : ∀ d ∈ dims, 0 ≤ d) :
    (volume dims : Int) = dims.prod := by
  induction dims with
  | nil => rfl
  | cons d dims ih =>
    rw [volume_cons, List.prod_cons, Int.natCast_mul,
      Int.toNat_of_nonneg (hdims d List.mem_cons_self),
      ih fun e he => hdims e (List.mem_cons_of_mem _ he)]

/-! ## What is answered for a position -/

/-- The coordinates that remain are folded in behind those that have been. -/
theorem linearIndexFrom_of_within {dims position : List Int} (h : Within dims position)
    (offset : Nat) :
    linearIndexFrom offset dims position = .ok (offset * volume dims + rowMajor dims position) := by
  induction h generalizing offset with
  | nil => simp [linearIndexFrom, volume, rowMajor]
  | @cons d p dims position hp _ ih =>
    rw [linearIndexFrom, if_neg (by omega), ih, volume_cons, rowMajor, Nat.add_mul, Nat.mul_assoc,
      Nat.add_assoc]

/-- A coordinate outside its dimension is found, whatever the others are. -/
theorem linearIndexFrom_of_outside {dims position : List Int}
    (h : ∃ q ∈ dims.zip position, q.2 < 0 ∨ q.1 ≤ q.2) (offset : Nat) :
    linearIndexFrom offset dims position = .error .bounds := by
  induction dims generalizing position offset with
  | nil =>
    obtain ⟨q, hq, -⟩ := h
    cases hq
  | cons d dims ih =>
    cases position with
    | nil =>
      obtain ⟨q, hq, -⟩ := h
      cases hq
    | cons p position =>
      rw [linearIndexFrom]
      split
      · rfl
      · next hp =>
        refine ih ?_ _
        obtain ⟨q, hq, hout⟩ := h
        rw [List.zip_cons_cons] at hq
        rcases List.mem_cons.mp hq with rfl | hq
        · exact absurd hout hp
        · exact ⟨q, hq, hout⟩

/-- **The number of a position** is the row-major one. -/
theorem linearIndex_of_within {dims position : List Int} (h : Within dims position) :
    linearIndex dims position = .ok (rowMajor dims position) := by
  rw [linearIndex, if_neg (not_not_intro h.length_eq), linearIndexFrom_of_within h, Nat.zero_mul,
    Nat.zero_add]

/-- **A position with a coordinate outside its dimension** is refused. -/
theorem linearIndex_of_outside {dims position : List Int} (hlength : position.length = dims.length)
    (h : ∃ q ∈ dims.zip position, q.2 < 0 ∨ q.1 ≤ q.2) :
    linearIndex dims position = .error .bounds := by
  rw [linearIndex, if_neg (not_not_intro hlength.symm), linearIndexFrom_of_outside h]

/-- A position with a number is one of the shape, and the number is its row-major one. -/
theorem within_of_linearIndex {dims position : List Int} {offset : Nat}
    (h : linearIndex dims position = .ok offset) :
    Within dims position ∧ offset = rowMajor dims position := by
  have hlength : dims.length = position.length := by
    by_contra hne
    rw [linearIndex_of_length_ne hne] at h
    cases h
  have inside : ∀ q ∈ dims.zip position, 0 ≤ q.2 ∧ q.2 < q.1 := by
    intro q hq
    by_contra hout
    rw [linearIndex_of_outside hlength.symm ⟨q, hq, by omega⟩] at h
    cases h
  have hwithin : Within dims position :=
    List.forall₂_iff_zip.mpr ⟨hlength, fun hq => inside _ hq⟩
  rw [linearIndex_of_within hwithin] at h
  exact ⟨hwithin, (Except.ok.inj h).symm⟩

/-! ## Positions and numbers correspond -/

/-- The number of a position is below the count of elements. -/
theorem rowMajor_lt {dims position : List Int} (h : Within dims position) :
    rowMajor dims position < volume dims := by
  induction h with
  | nil => exact Nat.one_pos
  | @cons d p dims position hp _ ih =>
    have hcoordinate : p.toNat + 1 ≤ d.toNat := by omega
    calc rowMajor (d :: dims) (p :: position) = p.toNat * volume dims + rowMajor dims position := rfl
      _ < p.toNat * volume dims + volume dims := Nat.add_lt_add_left ih _
      _ = (p.toNat + 1) * volume dims := (Nat.succ_mul ..).symm
      _ ≤ d.toNat * volume dims := Nat.mul_le_mul_right _ hcoordinate
      _ = volume (d :: dims) := (volume_cons ..).symm

/-- Positions with the same number are the same. -/
theorem rowMajor_inj {dims position position' : List Int} (h : Within dims position)
    (h' : Within dims position') (heq : rowMajor dims position = rowMajor dims position') :
    position = position' := by
  induction h generalizing position' with
  | nil =>
    cases h'
    rfl
  | @cons d p dims position hp hrest ih =>
    cases h' with
    | @cons _ q _ position' hq hrest' =>
      have hlt := rowMajor_lt hrest
      have hlt' := rowMajor_lt hrest'
      have hpos : 0 < volume dims := Nat.lt_of_le_of_lt (Nat.zero_le _) hlt
      rw [rowMajor, rowMajor] at heq
      -- the first coordinate is the quotient, and the other ones make the remainder
      have hfirst : p.toNat = q.toNat := by
        have hdiv := congrArg (· / volume dims) heq
        simpa only [Nat.mul_comm _ (volume dims), Nat.mul_add_div hpos, Nat.div_eq_of_lt hlt,
          Nat.div_eq_of_lt hlt', Nat.add_zero] using hdiv
      have hothers : rowMajor dims position = rowMajor dims position' := by
        rw [hfirst] at heq
        exact Nat.add_left_cancel heq
      have hsame : p = q := by omega
      rw [hsame, ih hrest' hothers]

/-- Every number below the count of elements is that of a position. -/
theorem exists_position {dims : List Int} {k : Nat} (hk : k < volume dims) :
    ∃ position, Within dims position ∧ rowMajor dims position = k := by
  induction dims generalizing k with
  | nil =>
    have hzero : k = 0 := Nat.lt_one_iff.mp hk
    exact ⟨[], .nil, hzero.symm⟩
  | cons d dims ih =>
    rw [volume_cons] at hk
    have hpos : 0 < volume dims := Nat.pos_of_mul_pos_left (Nat.lt_of_le_of_lt (Nat.zero_le _) hk)
    obtain ⟨position, hwithin, hnumber⟩ := ih (Nat.mod_lt k hpos)
    have hfirst : k / volume dims < d.toNat := (Nat.div_lt_iff_lt_mul hpos).mpr hk
    have hbounds : (0 : Int) ≤ (k / volume dims : Nat) ∧ ((k / volume dims : Nat) : Int) < d := by
      generalize k / volume dims = first at hfirst ⊢
      omega
    refine ⟨((k / volume dims : Nat) : Int) :: position, .cons hbounds hwithin, ?_⟩
    rw [rowMajor, hnumber, Int.toNat_natCast, Nat.mul_comm, Nat.div_add_mod]

/-- **Positions and numbers correspond** to each other one to one. -/
theorem existsUnique_position {dims : List Int} {k : Nat} (hk : k < volume dims) :
    ∃! position, Within dims position ∧ rowMajor dims position = k := by
  obtain ⟨position, hwithin, hnumber⟩ := exists_position hk
  refine ⟨position, ⟨hwithin, hnumber⟩, ?_⟩
  rintro other ⟨hother, hsame⟩
  exact rowMajor_inj hother hwithin (hsame.trans hnumber.symm)

/-! ## Machine arithmetic -/

/-- The number of a position whose leading coordinates are already folded into `offset`, in an
    arithmetic that has to stop at a product or a sum which cannot be addressed. -/
def boundedIndexFrom? (offset : Nat) : List Int → List Int → Option (Except PositionFault Nat)
  | d :: dims, p :: position =>
    if p < 0 ∨ d ≤ p then some (.error .bounds)
    else
      match boundedMul? offset d.toNat with
      | none => none
      | some row =>
        if row + p.toNat < addressLimit then boundedIndexFrom? (row + p.toNat) dims position
        else none
  | _, _ => some (.ok offset)

/-- **Nothing overflows** on the way to the number of a position, if the shape could be counted. -/
theorem boundedIndexFrom?_eq {count offset length : Nat} {dims : List Int}
    (hcount : elementCountFrom? count dims = some length) (hoffset : offset < count)
    (position : List Int) :
    boundedIndexFrom? offset dims position = some (linearIndexFrom offset dims position) := by
  induction dims generalizing count offset position with
  | nil => rfl
  | cons d dims ih =>
    cases position with
    | nil => rfl
    | cons p position =>
      rw [boundedIndexFrom?, linearIndexFrom]
      split
      · rfl
      · next hp =>
        rw [elementCountFrom?, if_neg (by omega), boundedMul?] at hcount
        split at hcount
        · cases hcount
        · next product hproduct =>
          split at hproduct
          · next hlimit =>
            obtain rfl := Option.some.inj hproduct
            -- the number so far stays below the count so far
            have hrow : offset * d.toNat + d.toNat ≤ count * d.toNat := by
              rw [← Nat.succ_mul]
              exact Nat.mul_le_mul_right _ hoffset
            have hnext : offset * d.toNat + p.toNat < count * d.toNat := by omega
            have hmul : boundedMul? offset d.toNat = some (offset * d.toNat) :=
              if_pos (Nat.lt_of_le_of_lt (Nat.le_add_right ..) (Nat.lt_trans hnext hlimit))
            rw [hmul]
            dsimp only
            rw [if_pos (Nat.lt_trans hnext hlimit)]
            exact ih hcount hnext position
          · cases hproduct

end Marshal
