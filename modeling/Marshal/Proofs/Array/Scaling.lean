import Marshal.Proofs.Array.Conversion
import Marshal.Proofs.Number.Rounding

/-!
# `Proofs.Array.Scaling` — the unit interval scaled into an integer type

Scaling multiplies by the greatest value of the target, as a double. Types of up to four bytes have a
greatest value that a double holds, so no product with a number of the unit interval is rounded past it.
Types of eight bytes do not: the nearest double is the power of two that follows. One itself is scaled to
that power, which is out of range and refused unless the method clips. All other doubles of the unit
interval lie so far below one that their products stay in range.

## Contents

* `Factor`, `NumericType.exists_factor` — the doubles by which is scaled;
* `Factor.exists_product` — the rounded product with a number of the unit interval;
* `Factor.exists_bound` — the double that the product does not pass;
* `Factor.exists_integer` — the integer nearest to the product;
* `Scalar.realPart?`, `scale_unit_interval` — the conversion of one element under both methods;
* `scale_one_refused` — one is refused by the plain method.
-/

namespace Marshal

open Marshal.Number

-- powers of integers are those of core, whatever algebra is in scope
attribute [local instance (2000)] instPowNat

/-! ## The factor -/

/-- The double nearest to the greatest value of a type: the value itself, or the power of two that
follows it when the type has eight bytes. -/
structure Factor (t : NumericType) (high : Int) (m : Nat) (e : Int) : Prop where
  value : (Real64.ofInt high).value = .finite false m e
  holds : Format.binary64.Holds m e
  moderate : e ≤ 12
  narrow : t.size ≠ 8 → dyadic m e = high
  wide : t.size = 8 → m = 2 ^ 52 ∧ 1 ≤ e ∧ dyadic m e = high + 1

/-- The greatest value of a type has ones only. -/
theorem NumericType.exists_places {t : NumericType} {low high : Int}
    (range : t.range? = some (low, high)) :
    ∃ w : Nat, high = 2 ^ w - 1 ∧ (t.size ≠ 8 ∧ w ≤ 32 ∨ t.size = 8 ∧ (w = 63 ∨ w = 64)) := by
  obtain ⟨signed, width, hwidth, -, rfl⟩ := NumericType.range?_eq_some_iff.mp range
  refine ⟨if signed then width - 1 else width, ?_, ?_⟩
  · cases signed <;> rfl
  · cases t <;> cases hwidth <;> decide

/-- **The factor of a type** is its greatest value, or the next integer for a type of eight bytes. -/
theorem NumericType.exists_factor {t : NumericType} {low high : Int}
    (range : t.range? = some (low, high)) : ∃ m e, Factor t high m e := by
  obtain ⟨w, rfl, ⟨hsize, hw⟩ | ⟨hsize, hw⟩⟩ := exists_places range
  · have hpow : 2 ^ w ≤ 2 ^ 32 := Nat.pow_le_pow_right (by decide) hw
    have hhigh : (2 : Int) ^ w - 1 = (2 ^ w - 1 : Nat) := by
      have hpos : 1 ≤ 2 ^ w := Nat.one_le_two_pow
      have hcast : ((2 ^ w : Nat) : Int) = 2 ^ w := Int.natCast_pow 2 w
      omega
    obtain ⟨m, e, value, holds, he, hdyadic⟩ := Real64.exists_value_ofInt (n := 2 ^ w - 1) (by omega)
    rw [hhigh]
    exact ⟨m, e, value, holds, by omega, fun _ => by rw [hdyadic, Int.cast_natCast],
      fun wide => absurd wide hsize⟩
  · have wide : ∀ k : Nat, 1 ≤ k → k ≤ 12 →
        (Real64.ofInt (2 ^ w - 1)).value = .finite false (2 ^ 52) k →
        ((2 ^ 52 * 2 ^ k : Nat) : Rat) = ((2 ^ w - 1 : Int) : Rat) + 1 →
        ∃ m e, Factor t (2 ^ w - 1) m e := by
      intro k hleast hmost value hpower
      have holds : Format.binary64.Holds (2 ^ 52) k :=
        ⟨by decide, show (-1074 : Int) ≤ _ by omega, .inr (by decide),
          show _ ≤ (-1074 : Int) + 2048 by omega⟩
      have hdyadic : dyadic (2 ^ 52) k = ((2 ^ 52 * 2 ^ k : Nat) : Rat) := by
        rw [← dyadic_zero_right, dyadic_shift, zero_add]
      exact ⟨2 ^ 52, k, value, holds, by omega, fun narrow => absurd hsize narrow,
        fun _ => ⟨rfl, by omega, hdyadic.trans hpower⟩⟩
    rcases hw with rfl | rfl
    · exact wide 11 (by decide) (by decide) (by decide +kernel) (by norm_num)
    · exact wide 12 (by decide) (by decide) (by decide +kernel) (by norm_num)

/-! ## The product -/

/-- A number that is not negative is its magnitude, and a negative sign is that of a zero. -/
theorem toRat_of_nonneg {negative : Bool} {m : Nat} {e : Int} {q : Rat}
    (h : (Extended.finite negative m e).toRat = some q) (hq : 0 ≤ q) :
    q = dyadic m e ∧ (negative = true → m = 0) := by
  have hmagnitude := dyadic_nonneg m e
  cases negative with
  | false => exact ⟨(Option.some.inj h).symm, nofun⟩
  | true =>
    have hneg : -dyadic m e = q := Option.some.inj h
    have hzero : dyadic m e ≤ dyadic 0 e := by
      rw [dyadic_zero]
      linarith
    exact ⟨by linarith, fun _ => Nat.le_zero.mp (dyadic_le_iff.mp hzero)⟩

variable {t : NumericType} {high : Int} {m' : Nat} {e' : Int}

theorem Factor.scaledBy_eq (factor : Factor t high m' e') (negative : Bool) (m : Nat) (e : Int) :
    scaledBy negative m e high =
      Format.binary64.decode (Format.binary64.encode (.finite negative (m * m') (e + e'))) := by
  unfold scaledBy
  rw [factor.value]
  dsimp only
  rw [Bool.bne_false, Real64.value_ofValue]

/-- **The rounded product** of the factor and a number of the unit interval: it is finite, the factor
itself for one, and no greater than any double that the exact product does not pass. -/
theorem Factor.exists_product (factor : Factor t high m' e') {negative : Bool} {m : Nat} {e : Int}
    {q : Rat} (hq : (Extended.finite negative m e).toRat = some q) (nonneg : 0 ≤ q) (le_one : q ≤ 1) :
    ∃ r, (scaledBy negative m e high).toRat = some r ∧ 0 ≤ r ∧ (q = 1 → r = dyadic m' e') ∧
      ∀ n k, n < 2 ^ 53 → -1074 ≤ k → k ≤ 12 → q * dyadic m' e' ≤ dyadic n k → r ≤ dyadic n k := by
  have hp : 1 ≤ Format.binary64.precision := by decide
  have hfactor := dyadic_nonneg m' e'
  obtain ⟨rfl, hsign⟩ := toRat_of_nonneg hq nonneg
  rw [factor.scaledBy_eq]
  cases negative with
  | true =>
    obtain rfl := hsign rfl
    rw [Nat.zero_mul, Format.decode_encode_zero hp (by decide)]
    have hzero : (Extended.finite true 0 Format.binary64.minExponent).toRat = some 0 := by
      show some (-dyadic 0 _) = _
      rw [dyadic_zero, neg_zero]
    refine ⟨0, hzero, le_refl _, ?_, fun n k _ _ _ _ => dyadic_nonneg n k⟩
    rw [dyadic_zero]
    intro h
    exact absurd h zero_ne_one
  | false =>
    have bounded : ∀ n k, n < 2 ^ 53 → -1074 ≤ k → k ≤ 12 → dyadic m e * dyadic m' e' ≤ dyadic n k →
        ∃ a b, Format.binary64.decode (Format.binary64.encode (.finite false (m * m') (e + e'))) =
          .finite false a b ∧ dyadic a b ≤ dyadic n k := by
      intro n k hn hleast hgreatest hle
      rw [← dyadic_mul] at hle
      exact Format.decode_encode_le hp (by decide) false hle hn hleast
        (show _ ≤ (-1074 : Int) + 2048 by omega)
    obtain ⟨a, b, packed, -⟩ := bounded m' e' factor.holds.significand factor.holds.least
      factor.moderate (mul_le_of_le_one_left hfactor le_one)
    refine ⟨dyadic a b, by rw [packed]; rfl, dyadic_nonneg a b, fun hone => ?_, ?_⟩
    · have hproduct : dyadic (m * m') (e + e') = dyadic m' e' := by rw [dyadic_mul, hone, one_mul]
      have unrounded := factor.holds.decode_encode_of_eq hp false hproduct
      obtain ⟨-, rfl, rfl⟩ := Extended.finite.inj (packed.symm.trans unrounded)
      rfl
    · intro n k hn hleast hgreatest hle
      obtain ⟨a', b', packed', hle'⟩ := bounded n k hn hleast hgreatest hle
      obtain ⟨-, rfl, rfl⟩ := Extended.finite.inj (packed.symm.trans packed')
      exact hle'

/-! ## The nearest integer -/

/-- A double below one is below it by a place of its own. -/
theorem dyadic_le_pred_one {m : Nat} {e : Int} (holds : Format.binary64.Holds m e)
    (h : dyadic m e < 1) : dyadic m e ≤ dyadic (2 ^ 53 - 1) (-53) := by
  have hone : dyadic (2 ^ 53) (-53) = 1 := by
    have hshift := dyadic_shift 1 53 (-53)
    rw [Nat.one_mul] at hshift
    exact hshift.trans (dyadic_zero_right 1)
  exact dyadic_le_pred holds.significand (hone ▸ h)

/-- The double before one is scaled to the double before the factor, which is a power of two. -/
theorem dyadic_pred_mul (e : Int) :
    dyadic (2 ^ 53 - 1) (-53) * dyadic (2 ^ 52) e = dyadic (2 ^ 53 - 1) (e - 1) := by
  rw [← dyadic_mul, dyadic_shift]
  congr 1
  omega

/-- The double before a power of two of an integer's size is at least one less. -/
theorem dyadic_pred_add_one_le {e : Int} (he : 1 ≤ e) :
    dyadic (2 ^ 53 - 1) (e - 1) + 1 ≤ dyadic (2 ^ 52) e := by
  have hshift := dyadic_shift (2 ^ 52) 1 (e - 1)
  rw [Nat.cast_one, sub_add_cancel] at hshift
  calc dyadic (2 ^ 53 - 1) (e - 1) + 1 = dyadic (2 ^ 53 - 1) (e - 1) + dyadic 1 0 := by
        rw [dyadic_zero_right, Nat.cast_one]
    _ ≤ dyadic (2 ^ 53 - 1) (e - 1) + dyadic 1 (e - 1) :=
        add_le_add_right (dyadic_mono 1 (by omega)) _
    _ = dyadic (2 ^ 53 - 1 + 1) (e - 1) := (dyadic_add ..).symm
    _ = dyadic (2 ^ 52) e := hshift

/-- **There is a double between the exact product and the greatest value** of the type, unless one is
scaled into a type of eight bytes. -/
theorem Factor.exists_bound (factor : Factor t high m' e') {m : Nat} {e : Int}
    (holds : Format.binary64.Holds m e) (le_one : dyadic m e ≤ 1)
    (converted : ¬(dyadic m e = 1 ∧ t.size = 8)) :
    ∃ n k, n < 2 ^ 53 ∧ -1074 ≤ k ∧ k ≤ 12 ∧ dyadic m e * dyadic m' e' ≤ dyadic n k ∧
      dyadic n k ≤ high := by
  have hleast : -1074 ≤ e' := factor.holds.least
  have hmoderate := factor.moderate
  by_cases hsize : t.size = 8
  · obtain ⟨rfl, he, hfactor⟩ := factor.wide hsize
    have hlt : dyadic m e < 1 := lt_of_le_of_ne le_one fun hone => converted ⟨hone, hsize⟩
    refine ⟨2 ^ 53 - 1, e' - 1, by decide, by omega, by omega, ?_, ?_⟩
    · rw [← dyadic_pred_mul]
      exact mul_le_mul_of_nonneg_right (dyadic_le_pred_one holds hlt) (dyadic_nonneg _ _)
    · have hbelow := dyadic_pred_add_one_le he
      linarith
  · refine ⟨m', e', factor.holds.significand, hleast, hmoderate, ?_, (factor.narrow hsize).le⟩
    exact mul_le_of_le_one_left (dyadic_nonneg m' e') le_one

theorem realToInteger_scale {x : Real64} {negative : Bool} {m : Nat} {e : Int} {q r : Rat}
    (value : x.value = .finite negative m e) (hq : (Extended.finite negative m e).toRat = some q)
    (hr : (scaledBy negative m e high).toRat = some r) (tolerance : Real64) :
    realToInteger x high .scale tolerance = some (roundAway r) := by
  simp only [realToInteger, value, hq]
  cases hscaled : scaledBy negative m e high with
  | nan => rw [hscaled] at hr; cases hr
  | infinity negative => rw [hscaled] at hr; cases hr
  | finite negative m e =>
    rw [hscaled] at hr
    simp only [hr, Option.map_some]

/-- **The scaled integer** of a number of the unit interval lies between zero and the greatest value of
the type, but for one with a type of eight bytes, which becomes the integer that follows. -/
theorem Factor.exists_integer (factor : Factor t high m' e') (hhigh : 0 ≤ high) {x : Real64} {q : Rat}
    (hq : x.value.toRat = some q) (nonneg : 0 ≤ q) (le_one : q ≤ 1) (tolerance : Real64) :
    ∃ n, realToInteger x high .scale tolerance = some n ∧ 0 ≤ n ∧ (q = 0 → n = 0) ∧
      if q = 1 ∧ t.size = 8 then n = high + 1 else n ≤ high ∧ (q = 1 → n = high) := by
  obtain ⟨negative, m, e, value, holds⟩ := Real64.exists_holds hq
  rw [value] at hq
  obtain ⟨r, hr, hr0, hr1, hrle⟩ := factor.exists_product hq nonneg le_one
  obtain ⟨rfl, -⟩ := toRat_of_nonneg hq nonneg
  refine ⟨roundAway r, realToInteger_scale value hq hr tolerance, roundAway_nonneg hr0, ?_, ?_⟩
  · intro hzero
    have hle := hrle 0 0 (by decide) (by decide) (by decide)
      (by rw [hzero, zero_mul, dyadic_zero])
    rw [dyadic_zero] at hle
    exact Int.le_antisymm (roundAway_le hr0 (by exact_mod_cast hle)) (roundAway_nonneg hr0)
  · split
    · next refused =>
      obtain ⟨-, -, hfactor⟩ := factor.wide refused.2
      have hnext : r = ((high + 1 : Int) : Rat) := by
        rw [hr1 refused.1, hfactor, Int.cast_add, Int.cast_one]
      rw [hnext, roundAway_intCast (by omega)]
    · next converted =>
      obtain ⟨n, k, hn, hleast, hgreatest, hproduct, hbound⟩ :=
        factor.exists_bound holds le_one converted
      have hle : r ≤ high := (hrle n k hn hleast hgreatest hproduct).trans hbound
      refine ⟨roundAway_le hr0 hle, fun hone => ?_⟩
      have hsize : t.size ≠ 8 := fun h => converted ⟨hone, h⟩
      rw [hr1 hone, factor.narrow hsize, roundAway_intCast hhigh]

/-! ## One element -/

/-- The real number that an element holds, without an imaginary part. -/
def Scalar.realPart? : Scalar → Option Real64
  | .integer _ => none
  | .real x => some x
  | .complex re _ => some re

theorem Scalar.convert?_scale {v : Scalar} {x : Real64} (part : v.realPart? = some x)
    {target : NumericType} {low high : Int} (range : target.range? = some (low, high))
    {tolerance : Real64} {n : Int} (h : realToInteger x high .scale tolerance = some n)
    (clips : Bool) :
    v.convert? target ⟨.scale, clips⟩ tolerance = (clampTo low high clips n).map .integer := by
  have converted : v.toInteger high ⟨.scale, clips⟩ tolerance = some n := by
    cases v with
    | integer v => cases part
    | real y =>
      obtain rfl := Option.some.inj part
      exact h
    | complex re im =>
      obtain rfl := Option.some.inj part
      exact h
  unfold Scalar.convert?
  rw [range]
  dsimp only
  rw [converted, Option.bind_some]

/-- **Scaling maps the unit interval into every integer type.** Take an element with a real part from
zero to one, any integer type and any tolerance. The clipping method makes an integer of it that lies
between zero and the greatest value of the type. The plain method makes the same integer, unless the type
has eight bytes and the number is one: that it refuses. Zero becomes zero and one, where it is converted,
the greatest value. -/
theorem scale_unit_interval {target : NumericType} {low high : Int}
    (range : target.range? = some (low, high)) {v : Scalar} {x : Real64}
    (part : v.realPart? = some x) {q : Rat} (value : x.value.toRat = some q) (nonneg : 0 ≤ q)
    (le_one : q ≤ 1) (tolerance : Real64) :
    ∃ n : Int, 0 ≤ n ∧ n ≤ high ∧
      v.convert? target ⟨.scale, true⟩ tolerance = some (.integer n) ∧
      v.convert? target ⟨.scale, false⟩ tolerance =
        (if q = 1 ∧ target.size = 8 then none else some (.integer n)) ∧
      (q = 0 → n = 0) ∧ (q = 1 → n = high) := by
  obtain ⟨m, e, factor⟩ := NumericType.exists_factor range
  obtain ⟨hlow, hhigh⟩ : low ≤ 0 ∧ 0 ≤ high := by cases target <;> cases range <;> decide
  obtain ⟨n, scaled, hn, hzero, hn'⟩ := factor.exists_integer hhigh value nonneg le_one tolerance
  have hrange := NumericType.range_le range
  have clipped := Scalar.convert?_scale part range scaled true
  have plain := Scalar.convert?_scale part range scaled false
  rw [clampTo_eq hrange] at clipped plain
  by_cases hrefused : q = 1 ∧ target.size = 8
  · simp only [if_pos hrefused] at hn' ⊢
    have hbeyond : ¬(false = true ∨ low ≤ n ∧ n ≤ high) := by
      rintro (h | h)
      · cases h
      · omega
    have hnearest : nearest low high n = high := by
      unfold nearest
      omega
    rw [if_pos (.inl rfl), hnearest] at clipped
    rw [if_neg hbeyond] at plain
    exact ⟨high, hhigh, le_rfl, clipped, plain, fun h => absurd (h.symm.trans hrefused.1) zero_ne_one,
      fun _ => rfl⟩
  · simp only [if_neg hrefused] at hn' ⊢
    have hmem : low ≤ n ∧ n ≤ high := ⟨hlow.trans hn, hn'.1⟩
    rw [if_pos (.inr hmem), nearest_of_mem hmem.1 hmem.2] at clipped plain
    exact ⟨n, hn, hn'.1, clipped, plain, hzero, hn'.2⟩

/-- One. -/
def realOne : Real64 := ⟨0x3ff0000000000000⟩

/-- One half. -/
def realHalf : Real64 := ⟨0x3fe0000000000000⟩

/-- One becomes the greatest integer of four bytes, and of eight bytes when the method clips; a half, with
any imaginary part, becomes an integer of eight bytes under the plain method too. -/
theorem scale_unit_interval_oneAndHalf :
    (Scalar.real realOne).convert? .uint32 ⟨.scale, false⟩ .zero = some (.integer 4294967295) ∧
    (Scalar.real realOne).convert? .uint64 ⟨.scale, true⟩ .zero =
      some (.integer 18446744073709551615) ∧
    ∃ n : Int, 0 ≤ n ∧ n ≤ 9223372036854775807 ∧
      (Scalar.complex realHalf realOne).convert? .int64 ⟨.scale, false⟩ .zero =
        some (.integer n) := by
  have one : realOne.value.toRat = some 1 := by decide +kernel
  have half : realHalf.value.toRat = some (1 / 2) := by decide +kernel
  have words : NumericType.uint32.range? = some (0, 4294967295) := rfl
  have doublewords : NumericType.uint64.range? = some (0, 18446744073709551615) := rfl
  have signed : NumericType.int64.range? = some (-9223372036854775808, 9223372036854775807) := rfl
  refine ⟨?_, ?_, ?_⟩
  · obtain ⟨n, -, -, -, plain, -, greatest⟩ := scale_unit_interval words
      (v := .real realOne) rfl one zero_le_one le_rfl .zero
    rw [plain, if_neg (by decide), greatest rfl]
  · obtain ⟨n, -, -, clipped, -, -, greatest⟩ := scale_unit_interval doublewords
      (v := .real realOne) rfl one zero_le_one le_rfl .zero
    rw [clipped, greatest rfl]
  · obtain ⟨n, hn, hn', -, plain, -⟩ := scale_unit_interval signed
      (v := .complex realHalf realOne) rfl half (by norm_num) (by norm_num) .zero
    rw [if_neg (by norm_num)] at plain
    exact ⟨n, hn, hn', plain⟩

/-- **One is refused.** With integers of eight bytes the plain method does not convert one, which the
clipping method takes to the greatest value. -/
theorem scale_one_refused :
    realOne.value.toRat = some 1 ∧
    (Scalar.real realOne).convert? .int64 ⟨.scale, false⟩ .zero = none ∧
    (Scalar.real realOne).convert? .int64 ⟨.scale, true⟩ .zero =
      some (.integer 9223372036854775807) := by
  decide +kernel

end Marshal
