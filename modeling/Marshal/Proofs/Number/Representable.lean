import Marshal.Proofs.Number.Rounding

/-!
# `Proofs.Number.Representable` — the doubles that single precision represents

A double is represented by single precision if some single is the same number, where zeros are told
apart by their sign and nothing is the same as what is no number. Packing sees the number alone, and a
number of a format has one pattern only, so such a double is what the single widens to. Widening in turn
makes the same number of every single that is one.

## Contents

* `Extended.Same` — two extended reals that are the same number;
* `Format.encode_decode` — a pattern is found again from the number that it denotes;
* `Real64.IsSingle`, `Real64.isSingle_iff` — the doubles that are widened singles.
-/

namespace Marshal.Number

-- powers of integers are those of core, whatever algebra is in scope
attribute [local instance (2000)] instPowNat

/-! ## The same number -/

/-- Two extended reals are the same number. Zeros have to have the same sign, and `nan` is the same as
nothing. -/
def Extended.Same : Extended → Extended → Prop
  | .infinity negative, .infinity negative' => negative = negative'
  | .finite negative m e, .finite negative' m' e' => negative = negative' ∧ dyadic m e = dyadic m' e'
  | _, _ => False

theorem Extended.Same.ne_nan {v w : Extended} (h : v.Same w) : v ≠ .nan := by
  rintro rfl
  exact h

/-- Packing sees the number alone. -/
theorem Extended.Same.encode_eq {v w : Extended} (h : v.Same w) (f : Format) :
    f.encode v = f.encode w := by
  cases v with
  | nan => exact absurd rfl h.ne_nan
  | infinity negative =>
    cases w with
    | infinity negative' => rw [show negative = negative' from h]
    | nan => exact False.elim h
    | finite => exact False.elim h
  | finite negative m e =>
    cases w with
    | finite negative' m' e' =>
      obtain ⟨hsign, hvalue⟩ := h
      rw [Format.encode, Format.encode, hsign, Format.magnitudeBits_congr hvalue]
    | nan => exact False.elim h
    | infinity => exact False.elim h

/-! ## Patterns found again -/

namespace Format

variable {f : Format}

/-- The pattern of a number of the format, without its sign. -/
theorem Holds.magnitudeBits_eq (hp : 1 ≤ f.precision) {m : Nat} {e : Int} (h : f.Holds m e) :
    f.magnitudeBits m e = (e - f.minExponent).toNat * f.unit + m := by
  by_cases hm : m = 0
  · have hleast : e = f.minExponent := by
      refine h.normal.resolve_right ?_
      rw [hm]
      exact Nat.not_le.mpr unit_pos
    rw [hm, hleast, Int.sub_self, Int.toNat_zero, Nat.zero_mul]
    rfl
  · have htarget := h.targetExponent_eq hp hm
    simp only [magnitudeBits, if_neg hm, htarget, if_pos (Int.le_refl e), Int.sub_self, Int.toNat_zero,
      Nat.pow_zero, Nat.mul_one]
    exact Nat.min_eq_left h.bits_le

/-- A pattern has a sign, an exponent field and a fraction. -/
theorem exists_fields (hp : 1 ≤ f.precision) {bits : Nat} (hbits : bits < 2 * f.signWeight) :
    ∃ negative field fraction, field < 2 ^ f.exponentBits ∧ fraction < f.unit ∧
      bits = f.signBits negative + (field * f.unit + fraction) := by
  obtain ⟨negative, magnitude, hlt, rfl⟩ : ∃ negative magnitude, magnitude < f.signWeight ∧
      bits = f.signBits negative + magnitude := by
    rcases Nat.lt_or_ge bits f.signWeight with hlt | hge
    · exact ⟨false, bits, hlt, (Nat.zero_add bits).symm⟩
    · exact ⟨true, bits - f.signWeight, by omega, (Nat.add_sub_of_le hge).symm⟩
  refine ⟨negative, magnitude / f.unit, magnitude % f.unit, ?_, Nat.mod_lt _ unit_pos, ?_⟩
  · rwa [Nat.div_lt_iff_lt_mul unit_pos, ← signWeight_eq hp]
  · rw [Nat.div_add_mod']

/-- **A number has one pattern only**: packing what a pattern denotes finds the pattern again. -/
theorem encode_decode (hp : 1 ≤ f.precision) (he : 3 ≤ 2 ^ f.exponentBits) {bits : Nat}
    (hbits : bits < 2 * f.signWeight) (number : f.decode bits ≠ .nan) :
    f.encode (f.decode bits) = bits := by
  obtain ⟨negative, field, fraction, hfield, hfraction, rfl⟩ := exists_fields hp hbits
  rw [decode_fields hp negative field fraction hfield hfraction] at number ⊢
  by_cases hfull : field = 2 ^ f.exponentBits - 1
  · by_cases hnone : fraction = 0
    · rw [if_pos hfull, if_pos hnone, hfull, hnone, Nat.add_zero]
      rfl
    · rw [if_pos hfull, if_neg hnone] at number
      exact absurd rfl number
  · rw [if_neg hfull]
    by_cases hzero : field = 0
    · have holds : f.Holds fraction f.minExponent := ⟨by omega, Int.le_refl _, .inl rfl, by omega⟩
      rw [if_pos hzero, encode, holds.magnitudeBits_eq hp, Int.sub_self, hzero]
      rfl
    · -- the leading bit, which the field stands for, goes back into the field
      obtain ⟨n, rfl⟩ : ∃ n, field = n + 1 := ⟨field - 1, by omega⟩
      have holds : f.Holds (f.unit + fraction) (f.minExponent + (n + 1 : Nat) - 1) :=
        ⟨by omega, by omega, .inr (Nat.le_add_right ..), by omega⟩
      have hplaces : (f.minExponent + (n + 1 : Nat) - 1 - f.minExponent).toNat = n := by omega
      rw [if_neg hzero, encode, holds.magnitudeBits_eq hp, hplaces, Nat.succ_mul, Nat.add_assoc (n * _)]
      rfl

end Format

/-! ## Doubles that are singles -/

namespace Real64

/-- A double that is a number is the nearest one to itself. -/
theorem ofValue_value {x : Real64} (number : x.value ≠ .nan) : ofValue x.value = x := by
  have hbits : x.bits.toNat < 2 * Format.binary64.signWeight := x.bits.toNat_lt
  rw [ofValue, value, Format.encode_decode (by decide) (by decide) hbits number, UInt64.ofNat_toNat]

/-- Whether single precision represents a double: some single is the same number. -/
def IsSingle (x : Real64) : Prop := ∃ s : Real32, x.value.Same s.value

end Real64

/-- A single that is a number widens to the same number. -/
theorem Real32.same_widen {s : Real32} (number : s.value ≠ .nan) : s.widen.value.Same s.value := by
  have hp : 1 ≤ Format.binary64.precision := by decide
  rw [value_widen]
  rcases Format.decode_cases (f := .binary32) (by decide) (by decide) s.bits.toNat with
    h | ⟨negative, h⟩ | ⟨negative, m, e, h, holds⟩
  · exact absurd h number
  · rw [value, h, Format.decode_encode_infinity hp]
    rfl
  · rw [value, h]
    by_cases hm : m = 0
    · rw [hm, Format.decode_encode_zero hp (by decide)]
      refine ⟨rfl, ?_⟩
      rw [dyadic_zero, dyadic_zero]
    · obtain ⟨hexact, hfinite⟩ := holds.exact_binary64 hm
      rw [Format.decode_encode_finite hp negative hm hexact hfinite]
      exact ⟨rfl, (dyadic_eq_of_le m hexact).symm⟩

/-- **The doubles that single precision represents are the widened singles.** -/
theorem Real64.isSingle_iff {x : Real64} : x.IsSingle ↔ ∃ s : Real32, s.value ≠ .nan ∧ s.widen = x := by
  constructor
  · rintro ⟨s, same⟩
    have number : s.value ≠ .nan := by
      intro h
      rw [h] at same
      cases hx : x.value <;> rw [hx] at same <;> exact same
    refine ⟨s, number, ?_⟩
    rw [← ofValue_value same.ne_nan, ofValue, same.encode_eq]
    rfl
  · rintro ⟨s, number, rfl⟩
    exact ⟨s, Real32.same_widen number⟩

end Marshal.Number
