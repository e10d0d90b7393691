/-!
# `Number.Binary` — binary floating point numbers, decoded and rounded exactly

A floating point number is a bit pattern in a `Format`. This module takes a pattern apart into an
`Extended` real (a significand times a power of two, an infinity, or no number at all) and packs the
nearest pattern for a given significand and exponent. All arithmetic is on `Nat`, `Int` and `Rat`,
so a rounding question is a question about whole numbers.

## Contents

* `roundShift` — a quotient by a power of two, rounded to nearest, a half to the even neighbour;
* `Format`, `Extended`, `Format.decode`, `Format.encode` — bit patterns and what they denote;
* `Real64`, `Real32` — the two formats in use, with widening, narrowing and conversion from
  integers;
* `Real64.admits`, `Real64.excludes` — comparison of an exact distance with a tolerance.
-/

namespace Marshal.Number

-- powers of integers are those of core, whatever algebra is in scope
attribute [local instance (2000)] instPowNat

/-! ## Rounding a quotient by a power of two -/

/-- The integer nearest to `m / 2 ^ s`; a half goes to the even neighbour. -/
def roundShift (m s : Nat) : Nat :=
  let quotient := m / 2 ^ s
  let remainder := m % 2 ^ s
  if 2 * remainder > 2 ^ s ∨ (2 * remainder = 2 ^ s ∧ quotient % 2 = 1) then quotient + 1
  else quotient

/-- A multiple of the divisor is divided exactly. -/
theorem roundShift_mul_two_pow (m s : Nat) : roundShift (m * 2 ^ s) s = m := by
  have hpos : 0 < 2 ^ s := Nat.two_pow_pos s
  have hne : 0 ≠ 2 ^ s := Nat.ne_of_lt hpos
  simp [roundShift, Nat.mul_div_cancel _ hpos, hne]

/-- The rounded quotient is one of the two neighbours of the exact one. -/
theorem roundShift_bounds (m s : Nat) :
    m / 2 ^ s ≤ roundShift m s ∧ roundShift m s ≤ m / 2 ^ s + 1 := by
  simp only [roundShift]
  split <;> omega

/-! ## Extended reals and formats -/

/-- What a bit pattern denotes: no number, an infinity, or `± significand * 2 ^ exponent`. The sign
of a zero is kept. -/
inductive Extended
  | nan
  | infinity (negative : Bool)
  | finite (negative : Bool) (significand : Nat) (exponent : Int)
  deriving DecidableEq, Repr

namespace Extended

/-- The exact value of a finite number. -/
def toRat : Extended → Option Rat
  | .nan => none
  | .infinity _ => none
  | .finite negative significand exponent =>
    let magnitude : Rat := (significand : Rat) * (2 : Rat) ^ exponent
    some (if negative then -magnitude else magnitude)

/-- Whether the number is a zero of either sign. -/
def isZero : Extended → Bool
  | .finite _ significand _ => significand == 0
  | _ => false

end Extended

/-- A binary interchange format: `precision` significant bits, the leading one implied, and
`exponentBits` bits of biased exponent. -/
structure Format where
  precision : Nat
  exponentBits : Nat
  deriving DecidableEq, Repr

namespace Format

/-- Double precision. -/
def binary64 : Format := ⟨53, 11⟩

/-- Single precision. -/
def binary32 : Format := ⟨24, 8⟩

/-- The exponent of the last place of the smallest numbers. -/
def minExponent (f : Format) : Int := 3 - (2 : Int) ^ (f.exponentBits - 1) - f.precision

/-- Patterns without their sign lie below this bound, which is also the weight of the sign bit. -/
def signWeight (f : Format) : Nat := 2 ^ (f.exponentBits + f.precision - 1)

/-- The unsigned pattern of an infinity: all exponent bits set, no fraction bits. -/
def infinityBits (f : Format) : Nat := (2 ^ f.exponentBits - 1) * 2 ^ (f.precision - 1)

/-- What the pattern `bits` denotes. -/
def decode (f : Format) (bits : Nat) : Extended :=
  let negative := bits / f.signWeight % 2 == 1
  let magnitude := bits % f.signWeight
  let field := magnitude / 2 ^ (f.precision - 1)
  let fraction := magnitude % 2 ^ (f.precision - 1)
  if field = 2 ^ f.exponentBits - 1 then
    if fraction = 0 then .infinity negative else .nan
  else if field = 0 then .finite negative fraction f.minExponent
  else .finite negative (2 ^ (f.precision - 1) + fraction) (f.minExponent + field - 1)

/-- The exponent of the last place kept when `m * 2 ^ e` is rounded: `precision` bits below the
leading one, but never below the smallest exponent of the format. -/
def targetExponent (f : Format) (m : Nat) (e : Int) : Int :=
  max (e + (m.log2 + 1 : Nat) - f.precision) f.minExponent

/-- The unsigned pattern nearest to `m * 2 ^ e`, a half to the even neighbour; too large a number
becomes an infinity. The kept places are added to the exponent field with the implied leading bit
still set, so that a carry out of the rounding moves into the exponent by itself. -/
def magnitudeBits (f : Format) (m : Nat) (e : Int) : Nat :=
  if m = 0 then 0
  else
    let target := f.targetExponent m e
    let kept := if target ≤ e then m * 2 ^ (e - target).toNat else roundShift m (target - e).toNat
    min ((target - f.minExponent).toNat * 2 ^ (f.precision - 1) + kept) f.infinityBits

/-- The pattern nearest to an extended real; `nan` becomes the positive quiet pattern without a
payload. -/
def encode (f : Format) : Extended → Nat
  | .nan => f.infinityBits + 2 ^ (f.precision - 2)
  | .infinity negative => (if negative then f.signWeight else 0) + f.infinityBits
  | .finite negative m e => (if negative then f.signWeight else 0) + f.magnitudeBits m e

end Format

/-! ## Doubles -/

/-- A double, by its bit pattern. Two doubles are equal when their patterns are. -/
structure Real64 where
  bits : UInt64
  deriving DecidableEq, Repr, Inhabited

/-- A single, by its bit pattern. -/
structure Real32 where
  bits : UInt32
  deriving DecidableEq, Repr, Inhabited

namespace Real64

/-- The number that a double denotes. -/
def value (x : Real64) : Extended := Format.binary64.decode x.bits.toNat

/-- The double nearest to an extended real. -/
def ofValue (v : Extended) : Real64 := ⟨UInt64.ofNat (Format.binary64.encode v)⟩

/-- The double nearest to an integer. -/
def ofInt (v : Int) : Real64 := ofValue (.finite (decide (v < 0)) v.natAbs 0)

/-- Positive zero. -/
def zero : Real64 := ⟨0⟩

def isZero (x : Real64) : Bool := x.value.isZero

def isNaN (x : Real64) : Bool := x.value == .nan

/-- Numeric equality: zeros of either sign are equal and `nan` equals nothing. -/
def sameNumber (x y : Real64) : Bool :=
  !x.isNaN && !y.isNaN && (x.bits == y.bits || (x.isZero && y.isZero))

/-- The single nearest to a double. -/
def narrow (x : Real64) : Real32 := ⟨UInt32.ofNat (Format.binary32.encode x.value)⟩

/-- Whether the tolerance admits the exact distance `d`, that is `d ≤ tolerance`. -/
def admits (tolerance : Real64) (d : Rat) : Bool :=
  match tolerance.value with
  | .nan => false
  | .infinity negative => !negative
  | v@(.finite ..) => v.toRat.any (d ≤ ·)

/-- Whether the exact distance `d` is beyond the tolerance, that is `tolerance < d`. A tolerance
that is no number excludes nothing and admits nothing. -/
def excludes (tolerance : Real64) (d : Rat) : Bool :=
  match tolerance.value with
  | .nan => false
  | .infinity negative => negative
  | v@(.finite ..) => v.toRat.any (· < d)

end Real64

/-- The double with the value of a single. Every single is exactly a double. -/
def Real32.widen (x : Real32) : Real64 :=
  Real64.ofValue (Format.binary32.decode x.bits.toNat)

/-! ## Rationals and the integers near them -/

/-- The integer nearest to `q`; a half goes away from zero. -/
def roundAway (q : Rat) : Int :=
  if q < 0 then -((-q + 1 / 2).floor) else (q + 1 / 2).floor

/-- How far `p` and `q` lie apart. -/
def distance (p q : Rat) : Rat := if p < q then q - p else p - q

/-- The integer part of `q`, toward zero. -/
def truncate (q : Rat) : Int :=
  if q < 0 then -((-q).floor) else q.floor

end Marshal.Number
