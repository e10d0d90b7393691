import Marshal.Array.Dense

/-!
# `Array.Conversion` — elements of one type made into elements of another

Conversion works element by element on exact values. An integer target takes integers as they are
and turns reals into integers by the rule of the method; what lies outside the range of the target
is refused or moved to the nearer bound. A real target takes the nearest representable number. The
checking methods refuse an element that the target can only hold approximately, up to a tolerance.

## Contents

* `realToInteger`, `clampTo` — the two steps towards an integer target;
* `fitsSingle` — the check of a narrowing;
* `Scalar.convert?` — the conversion of one element;
* `Dense.convert?` — the conversion of an array.
-/

namespace Marshal

open Marshal.Number

-- powers of integers are those of core, whatever algebra is in scope
attribute [local instance (2000)] instPowNat

/-! ## Integer targets -/

/-- The product of a finite double and an integer, rounded to a double. The integer is rounded
first. -/
def scaledBy (negative : Bool) (m : Nat) (e : Int) (high : Int) : Extended :=
  match (Real64.ofInt high).value with
  | .finite negative' m' e' =>
    (Real64.ofValue (.finite (negative != negative') (m * m') (e + e'))).value
  | other => other

/-- The integer that a double becomes under a rule, for a target whose greatest value is `high`.
Numbers that are not finite become no integer; a product too large for a double counts as an integer
beyond every range, with the sign of the product. -/
def realToInteger (x : Real64) (high : Int) (rule : Rule) (tolerance : Real64) : Option Int :=
  match x.value with
  | .nan => none
  | .infinity _ => none
  | .finite negative m e =>
    match (Extended.finite negative m e).toRat with
    | none => none
    | some q =>
      match rule with
      | .check =>
        if tolerance.excludes (distance q (roundAway q)) then none else some (roundAway q)
      | .coerce => some (truncate q)
      | .round => some (roundAway q)
      | .scale =>
        match scaledBy negative m e high with
        | .finite negative m e => (Extended.finite negative m e).toRat.map roundAway
        | .infinity negative => some (if negative then -(2 ^ (127 : Nat)) else 2 ^ (127 : Nat) - 1)
        | .nan => none

/-- An integer within `low … high`: the nearer bound for one outside when clipping, and none
otherwise. -/
def clampTo (low high : Int) (clips : Bool) (v : Int) : Option Int :=
  if low ≤ v ∧ v ≤ high then some v
  else if clips then some (if v < low then low else high)
  else none

/-- What has been clamped lies in the range. -/
theorem clampTo_bounds {low high v w : Int} {clips : Bool} (hrange : low ≤ high)
    (h : clampTo low high clips v = some w) : low ≤ w ∧ w ≤ high := by
  unfold clampTo at h
  split at h
  · next hv => cases h; exact hv
  · split at h
    · cases h
      split
      · exact ⟨Int.le_refl _, hrange⟩
      · exact ⟨hrange, Int.le_refl _⟩
    · cases h

/-! ## Real targets -/

/-- Whether the single nearest to a double is within the tolerance of it. -/
def fitsSingle (x tolerance : Real64) : Bool :=
  match x.value, x.narrow.widen.value with
  | v@(.finite ..), w@(.finite ..) =>
    match v.toRat, w.toRat with
    | some q, some r => tolerance.admits (distance r q)
    | _, _ => false
  | .finite .., .infinity _ => tolerance.value == .infinity false
  | _, _ => false

/-! ## One element -/

/-- The integer that an element becomes on the way to an integer target. A complex element loses its
imaginary part, which a checking method allows only when it is zero. -/
def Scalar.toInteger (v : Scalar) (high : Int) (method : Method) (tolerance : Real64) :
    Option Int :=
  match v with
  | .integer v => some v
  | .real x => realToInteger x high method.rule tolerance
  | .complex re im =>
    if method.checks && !im.isZero then none else realToInteger re high method.rule tolerance

/-- The parts of an element as doubles. A checking method refuses an integer that no double holds
exactly. -/
def Scalar.toParts (v : Scalar) (method : Method) : Option (Real64 × Real64) :=
  match v with
  | .integer v =>
    let x := Real64.ofInt v
    if method.checks && x.value.toRat != some (v : Rat) then none else some (x, Real64.zero)
  | .real x => some (x, Real64.zero)
  | .complex re im => some (re, im)

/-- Whether an element type holds single precision numbers. -/
def NumericType.isSingle : NumericType → Bool
  | real32 | complex32 => true
  | _ => false

/-- The element of type `target` that `v` becomes, or `none` if the method refuses it. -/
def Scalar.convert? (v : Scalar) (target : NumericType) (method : Method) (tolerance : Real64) :
    Option Scalar :=
  match target.range? with
  | some (low, high) =>
    (v.toInteger high method tolerance).bind fun n =>
      (clampTo low high method.clips n).map .integer
  | none =>
    match v.toParts method with
    | none => none
    | some (re, im) =>
      if method.checks && target.isSingle &&
          !(fitsSingle re tolerance && fitsSingle im tolerance) then
        none
      else
        match target with
        | .real32 | .real64 => if method.checks && !im.isZero then none else some (.real re)
        | .complex32 | .complex64 => some (.complex re im)
        | _ => none

/-! ## Arrays -/

/-- The array of type `target` with the same shape and the converted elements, or `none` if one of
them is refused. A tensor is not converted. -/
def Dense.convert? (a : Dense) (target : NumericType) (method : Method) (tolerance : Real64) :
    Option Dense :=
  match a.type with
  | .tensor _ => none
  | .numeric _ =>
    match Dense.create? (.numeric target) a.dims with
    | none => none
    | some copy =>
      (a.elements.mapM (Scalar.convert? · target method tolerance)).map (copy.overwrite 0)

end Marshal
