/-!
# `Array.Shape` — sizes and positions of dense arrays

An array's shape is its list of dimensions, the last one varying fastest. This module counts the
elements of a shape within the limits of the address space and numbers its positions row by row.

## Contents

* `addressLimit`, `elementCount?` — the number of elements, or `none` if it cannot be addressed;
* `PositionFault`, `linearIndex` — the place of a position in storage.
-/

namespace Marshal

-- powers of integers are those of core, whatever algebra is in scope
attribute [local instance (2000)] instPowNat

/-! ## Sizes -/

/-- Sizes are below this bound. -/
def addressLimit : Nat := 2 ^ (64 : Nat)

/-- A product that can be addressed. -/
def boundedMul? (a b : Nat) : Option Nat :=
  if a * b < addressLimit then some (a * b) else none

/-- The number of elements of a shape, taking the dimensions in order. Every partial product has to
be addressable, and a negative dimension has no elements to count. -/
def elementCountFrom? (count : Nat) : List Int → Option Nat
  | [] => some count
  | d :: dims =>
    if d < 0 then none
    else
      match boundedMul? count d.toNat with
      | none => none
      | some product => elementCountFrom? product dims

/-- The number of elements of a shape; the empty shape is that of a single element. -/
def elementCount? (dims : List Int) : Option Nat := elementCountFrom? 1 dims

/-- A shape that has been counted is followed by the count of the rest. -/
theorem elementCountFrom?_cons {count : Nat} {d : Int} {dims : List Int} (hd : 0 ≤ d)
    (hmul : count * d.toNat < addressLimit) :
    elementCountFrom? count (d :: dims) = elementCountFrom? (count * d.toNat) dims := by
  simp [elementCountFrom?, boundedMul?, hmul, Int.not_lt.mpr hd]

/-! ## Positions -/

/-- Why a position names no element: it has the wrong number of coordinates, or one of them lies
outside its dimension. -/
inductive PositionFault
  | rank
  | bounds
  deriving DecidableEq, Repr

/-- The number of the element at a position whose leading coordinates are already folded into
`offset`. -/
def linearIndexFrom (offset : Nat) : List Int → List Int → Except PositionFault Nat
  | d :: dims, p :: position =>
    if p < 0 ∨ d ≤ p then .error .bounds
    else linearIndexFrom (offset * d.toNat + p.toNat) dims position
  | _, _ => .ok offset

/-- The number of the element at a position, counting row by row from zero. -/
def linearIndex (dims position : List Int) : Except PositionFault Nat :=
  if dims.length ≠ position.length then .error .rank else linearIndexFrom 0 dims position

/-- The wrong number of coordinates is noticed before anything else. -/
theorem linearIndex_of_length_ne {dims position : List Int}
    (h : dims.length ≠ position.length) : linearIndex dims position = .error .rank := by
  simp [linearIndex, h]

end Marshal
