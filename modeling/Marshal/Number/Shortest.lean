import Marshal.Number.Binary

/-!
# `Number.Shortest` — the fewest decimal digits that read back

A positive number between its two neighbours in a format is named by any decimal inside the interval
of reals that round to it. `shortest` finds the fewest digits of such a decimal and, of those, the
nearest to the number; an exact tie goes up. For every digit count only the two grid points around
the number need testing: if some point of a grid lies in the interval, so does one of these two.

## Contents

* `Interval` — a number with the distances to the ends of its rounding interval, in one unit;
* `Decimal`, `shortest` — the digits and the place of the point;
* `NumberText`, `Real64.text` — how a double is written.
-/

namespace Marshal.Number

-- powers of integers are those of core, whatever algebra is in scope
attribute [local instance (2000)] instPowNat

/-! ## Rounding intervals -/

/-- A positive number `centre * unit` and the reals that round to it: those from
`(centre - below) * unit` to `(centre + above) * unit`, both ends included iff `closed`. The unit is
`2 ^ exponent`. -/
structure Interval where
  centre : Nat
  below : Nat
  above : Nat
  exponent : Int
  closed : Bool
  deriving DecidableEq, Repr

/-- The rounding interval of `m * 2 ^ e`. Below a power of two the numbers lie twice as close. The
ends round to the number exactly when its significand is even. -/
def Format.interval (f : Format) (m : Nat) (e : Int) : Interval :=
  { centre := 4 * m
    below := if m = 2 ^ (f.precision - 1) then 1 else 2
    above := 2
    exponent := e - 2
    closed := m % 2 == 0 }

namespace Interval

/-- The numerator of the number as a fraction of naturals. -/
def numerator (v : Interval) : Nat := v.centre * 2 ^ v.exponent.toNat

/-- The denominator of the number as a fraction of naturals. -/
def denominator (v : Interval) : Nat := 2 ^ (-v.exponent).toNat

/-- Whether `gap` parts of the unit stay inside the end that lies `reach` parts away. -/
def within (v : Interval) (gap reach : Nat) : Bool :=
  if v.closed then gap ≤ reach else gap < reach

end Interval

/-! ## Digits -/

/-- The number `0.d₁d₂…dₙ * 10 ^ point`, where `digits` are the `n` digits as one natural. -/
structure Decimal where
  digits : Nat
  count : Nat
  point : Int
  deriving DecidableEq, Repr

/-- The place of the point of `num / den`: the least `k` with `num / den < 10 ^ k`. -/
def decimalPoint (num den : Nat) : Int :=
  if den ≤ num then ((Nat.toDigits 10 (num / den)).length : Nat)
  else
    match (List.range 400).find? (fun j => den ≤ num * 10 ^ (j + 1)) with
    | some j => -(j : Int)
    | none => 0

/-- The grid point of `n` digits inside the interval that is nearest to the number, if there is one.
`point` is the place of the number's point. -/
def Interval.onGrid (v : Interval) (point : Int) (n : Nat) : Option Decimal :=
  let step := point - n
  -- one grid step is `scale / (denominator * shift)` of the number's own unit
  let scale := v.denominator * 10 ^ step.toNat
  let shift := 10 ^ (-step).toNat
  let weight := 2 ^ v.exponent.toNat * shift
  let lower := v.numerator * shift / scale
  let rest := v.numerator * shift % scale
  let down := v.within rest (v.below * weight)
  let up := v.within (scale - rest) (v.above * weight)
  if up && (!down || scale ≤ 2 * rest) then
    if lower + 1 = 10 ^ n then some ⟨1, 1, point + 1⟩ else some ⟨lower + 1, n, point⟩
  else if down then some ⟨lower, n, point⟩
  else none

/-- The fewest digits that name the number: at most `limit` are tried. -/
def Interval.shortest (v : Interval) (limit : Nat) : Option Decimal :=
  let point := decimalPoint v.numerator v.denominator
  (List.range limit).findSome? fun n => v.onGrid point (n + 1)

/-! ## The text of a double -/

/-- How a number is written: with the point in place while its place is between `firstPoint` and
`lastPoint`, and with an exponent otherwise. -/
structure NumberText where
  firstPoint : Int
  lastPoint : Int
  exponentMark : String
  nan : String
  infinity : String
  deriving Repr

/-- Doubles are written in place from `0.0001` to below `10 ^ 16`, always with a point, and as
`1e16` or `1.5e-7` outside. -/
def NumberText.standard : NumberText := ⟨-3, 16, "e", "NaN", "inf"⟩

namespace NumberText

/-- The digits with the point in place; at least one digit stands on each side of it. -/
def placed (digits : List Char) (point : Int) : String :=
  if point ≤ 0 then
    "0." ++ String.ofList (List.replicate (-point).toNat '0' ++ digits)
  else
    let whole := digits.take point.toNat
    let rest := digits.drop point.toNat
    String.ofList (whole ++ List.replicate (point.toNat - digits.length) '0') ++ "." ++
      String.ofList (if rest.isEmpty then ['0'] else rest)

/-- One digit, the point and the others if there are any, and the exponent. -/
def scientific (t : NumberText) (digits : List Char) (point : Int) : String :=
  String.ofList (digits.take 1) ++
    (if digits.length ≤ 1 then "" else "." ++ String.ofList (digits.drop 1)) ++
    t.exponentMark ++ toString (point - 1)

/-- The text of a positive number from its digits. -/
def unsigned (t : NumberText) (d : Decimal) : String :=
  let digits := Nat.toDigits 10 d.digits
  if t.firstPoint ≤ d.point ∧ d.point ≤ t.lastPoint then placed digits d.point
  else t.scientific digits d.point

end NumberText

/-- The text of a double: the fewest digits that read back. Seventeen digits always suffice. -/
def Real64.text (x : Real64) : String :=
  let t := NumberText.standard
  match x.value with
  | .nan => t.nan
  | .infinity negative => (if negative then "-" else "") ++ t.infinity
  | .finite negative m e =>
    (if negative then "-" else "") ++
      if m = 0 then "0.0"
      else
        match (Format.binary64.interval m e).shortest 17 with
        | some d => t.unsigned d
        | none => t.nan

end Marshal.Number
