import Marshal.Array.Element
import Marshal.Number.Binary
import Marshal.Text.Utf8

/-!
# `Array.Scalar` — single elements and their bytes

An element is widened to a `Scalar`: an integer of any size, a double, or a pair of doubles. Reading
takes it from the bytes of its machine type, lowest byte first; writing produces those bytes, so
that storage is nothing but the bytes of its elements one after the other.

## Contents

* `leNat`, `leBytes` — numbers as bytes, lowest first;
* `Scalar`, `Scalar.Fits` — elements and the machine types that can hold them;
* `Scalar.ofBytes`, `Scalar.toBytes?` — elements from and to their bytes.
-/

namespace Marshal

open Marshal.Number Marshal.Text

-- powers of integers are those of core, whatever algebra is in scope
attribute [local instance (2000)] instPowNat

/-! ## Numbers as bytes -/

/-- The number whose bytes are given, lowest first. -/
def leNat : Bytes → Nat
  | [] => 0
  | b :: rest => b.toNat + 256 * leNat rest

/-- The lowest `count` bytes of a number, lowest first. -/
def leBytes : (count : Nat) → Nat → Bytes
  | 0, _ => []
  | count + 1, n => UInt8.ofNat (n % 256) :: leBytes count (n / 256)

@[simp] theorem length_leBytes (count n : Nat) : (leBytes count n).length = count := by
  induction count generalizing n with
  | zero => rfl
  | succ count ih => simp [leBytes, ih]

/-- Bytes give back the number modulo what they can hold. -/
theorem leNat_leBytes (count n : Nat) : leNat (leBytes count n) = n % 256 ^ count := by
  induction count generalizing n with
  | zero => simp [leBytes, leNat, Nat.mod_one]
  | succ count ih =>
    have hbyte : (UInt8.ofNat (n % 256)).toNat = n % 256 := by
      simp [UInt8.toNat_ofNat']
    rw [leBytes, leNat, ih, hbyte, Nat.pow_succ, Nat.mul_comm (256 ^ count) 256,
      Nat.mod_mul]

/-- Bytes are those of the number that they make. -/
theorem leBytes_leNat (b : Bytes) : leBytes b.length (leNat b) = b := by
  induction b with
  | nil => rfl
  | cons x rest ih =>
    have hx : x.toNat < 256 := x.toNat_lt
    have low : (x.toNat + 256 * leNat rest) % 256 = x.toNat := by omega
    have high : (x.toNat + 256 * leNat rest) / 256 = leNat rest := by omega
    rw [List.length_cons, leNat, leBytes, low, high, ih, UInt8.ofNat_toNat]

/-- A number is below what its bytes can hold. -/
theorem leNat_lt (b : Bytes) : leNat b < 256 ^ b.length := by
  induction b with
  | nil => simp [leNat]
  | cons x rest ih =>
    have hx : x.toNat < 256 := x.toNat_lt
    simp only [leNat, List.length_cons, Nat.pow_succ]
    omega

/-! ## Scalars -/

/-- One element, widened. -/
inductive Scalar
  | integer (v : Int)
  | real (x : Real64)
  | complex (re im : Real64)
  deriving DecidableEq, Repr

/-- Whether a machine type can hold the element: an integer in range, or the right number of
reals. -/
def Scalar.Fits (t : NumericType) : Scalar → Prop
  | .integer v => ∃ low high, t.range? = some (low, high) ∧ low ≤ v ∧ v ≤ high
  | .real _ => t = .real32 ∨ t = .real64
  | .complex _ _ => t = .complex32 ∨ t = .complex64

/-- The integer with a given pattern of `width` bits. -/
def signedNat (signed : Bool) (width n : Nat) : Int :=
  if signed ∧ 2 ^ (width - 1) ≤ n then (n : Int) - 2 ^ width else n

/-- The element whose bytes are given. -/
def Scalar.ofBytes (t : NumericType) (b : Bytes) : Scalar :=
  match t with
  | .real32 => .real (Real32.widen ⟨UInt32.ofNat (leNat b)⟩)
  | .real64 => .real ⟨UInt64.ofNat (leNat b)⟩
  | .complex32 =>
    .complex (Real32.widen ⟨UInt32.ofNat (leNat (b.take 4))⟩)
      (Real32.widen ⟨UInt32.ofNat (leNat (b.drop 4))⟩)
  | .complex64 =>
    .complex ⟨UInt64.ofNat (leNat (b.take 8))⟩ ⟨UInt64.ofNat (leNat (b.drop 8))⟩
  | t =>
    match t.integerWidth? with
    | some (signed, width) => .integer (signedNat signed width (leNat b))
    | none => .integer 0

/-- The bytes of an element of type `t`, or `none` when the type stores elements of another shape.
Integers keep their lowest bits, and reals of the narrow types are rounded. -/
def Scalar.toBytes? (t : NumericType) : Scalar → Option Bytes
  | .integer v =>
    t.integerWidth?.map fun (_, width) => leBytes t.size (v % 2 ^ width).toNat
  | .real x =>
    match t with
    | .real32 => some (leBytes 4 x.narrow.bits.toNat)
    | .real64 => some (leBytes 8 x.bits.toNat)
    | _ => none
  | .complex re im =>
    match t with
    | .complex32 => some (leBytes 4 re.narrow.bits.toNat ++ leBytes 4 im.narrow.bits.toNat)
    | .complex64 => some (leBytes 8 re.bits.toNat ++ leBytes 8 im.bits.toNat)
    | _ => none

/-- An element takes the room that its type says. -/
theorem length_toBytes? {t : NumericType} {v : Scalar} {b : Bytes}
    (h : Scalar.toBytes? t v = some b) : b.length = t.size := by
  cases v <;> cases t <;>
    simp_all [Scalar.toBytes?, NumericType.integerWidth?, NumericType.size, Option.map] <;>
    subst h <;> simp

end Marshal
