import Marshal.Number.Binary

/-!
# `Proofs.Number.Single` — a single is exactly a double

Widening a single rounds nothing: the double has more significant bits and a greater range of
exponents, so the nearest double has the very value of the single. Narrowing that double finds the
single again, because what a number is packed to depends on its value alone and not on how it is split
into a significand and a power of two. All singles that denote no number become the same one.

## Contents

* `Format.decode_fields`, `Format.decode_cases` — patterns by their fields;
* `Format.magnitudeBits_shift` — packing depends on the value alone;
* `Format.decode_encode_finite` — a number that needs no rounding is packed exactly;
* `Real32.value_narrow_widen`, `Real32.widen_narrow_widen` — singles through doubles and back.
-/

namespace Marshal.Number

-- powers of integers are those of core, whatever algebra is in scope
attribute [local instance (2000)] instPowNat

/-! ## Rounding a scaled quotient -/

/-- Scaling the number and the divisor alike changes nothing. -/
theorem roundShift_mul_two_pow_add (m s k : Nat) : roundShift (m * 2 ^ k) (s + k) = roundShift m s := by
  have hpos : 0 < 2 ^ k := Nat.two_pow_pos k
  have hquotient : m * 2 ^ k / (2 ^ s * 2 ^ k) = m / 2 ^ s := Nat.mul_div_mul_right _ _ hpos
  have hremainder : m * 2 ^ k % (2 ^ s * 2 ^ k) = m % 2 ^ s * 2 ^ k := Nat.mul_mod_mul_right ..
  have hdouble : 2 * (m % 2 ^ s * 2 ^ k) = 2 * (m % 2 ^ s) * 2 ^ k := (Nat.mul_assoc ..).symm
  have hgt : 2 ^ s * 2 ^ k < 2 * (m % 2 ^ s) * 2 ^ k ↔ 2 ^ s < 2 * (m % 2 ^ s) :=
    Nat.mul_lt_mul_right hpos
  have heq : 2 * (m % 2 ^ s) * 2 ^ k = 2 ^ s * 2 ^ k ↔ 2 * (m % 2 ^ s) = 2 ^ s :=
    Nat.mul_left_inj (Nat.ne_of_gt hpos)
  simp only [roundShift, Nat.pow_add, hquotient, hremainder, hdouble, gt_iff_lt, hgt, heq]

theorem log2_mul_two_pow {m : Nat} (hm : m ≠ 0) (k : Nat) : (m * 2 ^ k).log2 = m.log2 + k := by
  have hpos : 0 < 2 ^ k := Nat.two_pow_pos k
  refine (Nat.log2_eq_iff (Nat.mul_ne_zero hm (Nat.ne_of_gt hpos))).mpr ⟨?_, ?_⟩
  · rw [Nat.pow_add]
    exact Nat.mul_le_mul_right _ (Nat.log2_self_le hm)
  · rw [Nat.add_right_comm, Nat.pow_add]
    exact Nat.mul_lt_mul_of_pos_right Nat.lt_log2_self hpos

namespace Format

variable {f : Format}

/-! ## Patterns by their fields -/

/-- The weight that the sign contributes to a pattern. -/
def signBits (f : Format) (negative : Bool) : Nat := if negative then f.signWeight else 0

/-- The weight of the exponent field. -/
def unit (f : Format) : Nat := 2 ^ (f.precision - 1)

theorem unit_pos : 0 < f.unit := Nat.two_pow_pos _

theorem two_mul_unit (hp : 1 ≤ f.precision) : 2 * f.unit = 2 ^ f.precision := by
  rw [unit, ← Nat.pow_succ', Nat.succ_eq_add_one, Nat.sub_add_cancel hp]

theorem signWeight_eq (hp : 1 ≤ f.precision) : f.signWeight = 2 ^ f.exponentBits * f.unit := by
  rw [signWeight, unit, ← Nat.pow_add, Nat.add_sub_assoc hp]

/-- What a pattern denotes, by its sign, its exponent field and its fraction. -/
theorem decode_fields (hp : 1 ≤ f.precision) (negative : Bool) (field fraction : Nat)
    (hfield : field < 2 ^ f.exponentBits) (hfraction : fraction < f.unit) :
    f.decode (f.signBits negative + (field * f.unit + fraction)) =
      if field = 2 ^ f.exponentBits - 1 then
        if fraction = 0 then .infinity negative else .nan
      else if field = 0 then .finite negative fraction f.minExponent
      else .finite negative (f.unit + fraction) (f.minExponent + field - 1) := by
  have hlt : field * f.unit + fraction < f.signWeight := by
    have hle : (field + 1) * f.unit ≤ 2 ^ f.exponentBits * f.unit := Nat.mul_le_mul_right _ hfield
    rw [signWeight_eq hp]
    rw [Nat.succ_mul] at hle
    omega
  have hpos : 0 < f.signWeight := Nat.two_pow_pos _
  have hsign : (f.signBits negative + (field * f.unit + fraction)) / f.signWeight =
      negative.toNat := by
    cases negative with
    | false =>
      show (0 + (field * f.unit + fraction)) / f.signWeight = 0
      rw [Nat.zero_add]
      exact Nat.div_eq_of_lt hlt
    | true =>
      show (f.signWeight + (field * f.unit + fraction)) / f.signWeight = 1
      rw [Nat.add_div_left _ hpos, Nat.div_eq_of_lt hlt]
  have hmagnitude : (f.signBits negative + (field * f.unit + fraction)) % f.signWeight =
      field * f.unit + fraction := by
    cases negative with
    | false =>
      show (0 + (field * f.unit + fraction)) % f.signWeight = _
      rw [Nat.zero_add]
      exact Nat.mod_eq_of_lt hlt
    | true =>
      show (f.signWeight + (field * f.unit + fraction)) % f.signWeight = _
      rw [Nat.add_mod_left]
      exact Nat.mod_eq_of_lt hlt
  have hdiv : (field * f.unit + fraction) / f.unit = field := by
    rw [Nat.add_comm, Nat.add_mul_div_right _ _ unit_pos, Nat.div_eq_of_lt hfraction, Nat.zero_add]
  have hmod : (field * f.unit + fraction) % f.unit = fraction := by
    rw [Nat.add_comm, Nat.add_mul_mod_self_right]
    exact Nat.mod_eq_of_lt hfraction
  have hnegative : (negative.toNat % 2 == 1) = negative := by cases negative <;> rfl
  have hunit : 2 ^ (f.precision - 1) = f.unit := rfl
  simp only [decode, hsign, hmagnitude, hunit, hdiv, hmod, hnegative]

/-- The numbers of a format: a significand of limited length, at full length unless the exponent is
    the least one. -/
structure Holds (f : Format) (m : Nat) (e : Int) : Prop where
  significand : m < 2 * f.unit
  least : f.minExponent ≤ e
  normal : e = f.minExponent ∨ f.unit ≤ m
  greatest : e + 3 ≤ f.minExponent + (2 ^ f.exponentBits : Nat)

/-- A pattern denotes no number, an infinity, or a number of the format. -/
theorem decode_cases (hp : 1 ≤ f.precision) (he : 3 ≤ 2 ^ f.exponentBits) (bits : Nat) :
    f.decode bits = .nan ∨ (∃ negative, f.decode bits = .infinity negative) ∨
      ∃ negative m e, f.decode bits = .finite negative m e ∧ f.Holds m e := by
  have hfield : bits % f.signWeight / f.unit < 2 ^ f.exponentBits := by
    rw [Nat.div_lt_iff_lt_mul unit_pos, ← signWeight_eq hp]
    exact Nat.mod_lt _ (Nat.two_pow_pos _)
  have hfraction : bits % f.signWeight % f.unit < f.unit := Nat.mod_lt _ unit_pos
  have hunit : 2 ^ (f.precision - 1) = f.unit := rfl
  simp only [decode, hunit]
  generalize bits % f.signWeight / f.unit = field at hfield ⊢
  generalize bits % f.signWeight % f.unit = fraction at hfraction ⊢
  split
  · split
    · exact .inr (.inl ⟨_, rfl⟩)
    · exact .inl rfl
  · split
    · exact .inr (.inr ⟨_, _, _, rfl, ⟨by omega, Int.le_refl _, .inl rfl, by omega⟩⟩)
    · exact .inr (.inr ⟨_, _, _, rfl, ⟨by omega, by omega, .inr (Nat.le_add_right ..), by omega⟩⟩)

/-! ## Packing -/

/-- The kept places depend on the value alone. -/
theorem targetExponent_shift {m : Nat} (hm : m ≠ 0) (k : Nat) (e : Int) :
    f.targetExponent (m * 2 ^ k) e = f.targetExponent m (e + k) := by
  rw [targetExponent, targetExponent, log2_mul_two_pow hm]
  omega

/-- **Packing depends on the value alone**, not on how it is split into significand and exponent. -/
theorem magnitudeBits_shift (m k : Nat) (e : Int) :
    f.magnitudeBits (m * 2 ^ k) e = f.magnitudeBits m (e + k) := by
  by_cases hm : m = 0
  · rw [hm, Nat.zero_mul]
    rfl
  have hne : m * 2 ^ k ≠ 0 := Nat.mul_ne_zero hm (Nat.ne_of_gt (Nat.two_pow_pos k))
  simp only [magnitudeBits, if_neg hm, if_neg hne, targetExponent_shift hm]
  generalize f.targetExponent m (e + k) = target
  congr 2
  by_cases hlow : target ≤ e
  · -- nothing is cut off on either side
    have hexp : (e + k - target).toNat = k + (e - target).toNat := by omega
    rw [if_pos hlow, if_pos (by omega), hexp, Nat.pow_add, Nat.mul_assoc]
  · rw [if_neg hlow]
    by_cases hmid : target ≤ e + k
    · -- only zeros are cut off
      obtain ⟨j, hj⟩ : ∃ j, k = j + (target - e).toNat := ⟨k - (target - e).toNat, by omega⟩
      have hexp : (e + k - target).toNat = j := by omega
      rw [if_pos hmid, hexp, hj, Nat.pow_add, ← Nat.mul_assoc]
      exact roundShift_mul_two_pow _ _
    · have hexp : (target - e).toNat = (target - (e + k)).toNat + k := by omega
      rw [if_neg hmid, hexp, roundShift_mul_two_pow_add]

/-- The significand that is kept of a number that needs no rounding. -/
theorem holds_targetExponent (hp : 1 ≤ f.precision) {m : Nat} (hm : m ≠ 0) {e : Int}
    (hexact : f.targetExponent m e ≤ e)
    (hfinite : f.targetExponent m e + 3 ≤ f.minExponent + (2 ^ f.exponentBits : Nat)) :
    f.Holds (m * 2 ^ (e - f.targetExponent m e).toNat) (f.targetExponent m e) := by
  have htarget : f.targetExponent m e =
      max (e + (m.log2 + 1 : Nat) - f.precision) f.minExponent := rfl
  generalize f.targetExponent m e = target at *
  obtain ⟨k, hk⟩ : ∃ k : Nat, (e - target).toNat = k := ⟨_, rfl⟩
  rw [hk]
  refine ⟨?_, by omega, ?_, hfinite⟩
  · rw [two_mul_unit hp]
    calc m * 2 ^ k < 2 ^ (m.log2 + 1) * 2 ^ k :=
          Nat.mul_lt_mul_of_pos_right Nat.lt_log2_self (Nat.two_pow_pos k)
      _ = 2 ^ (m.log2 + 1 + k) := (Nat.pow_add ..).symm
      _ ≤ 2 ^ f.precision := Nat.pow_le_pow_right (by decide) (by omega)
  · by_cases hleast : target = f.minExponent
    · exact .inl hleast
    · right
      calc f.unit = 2 ^ (f.precision - 1) := rfl
        _ ≤ 2 ^ (m.log2 + k) := Nat.pow_le_pow_right (by decide) (by omega)
        _ = 2 ^ m.log2 * 2 ^ k := Nat.pow_add ..
        _ ≤ m * 2 ^ k := Nat.mul_le_mul_right _ (Nat.log2_self_le hm)

/-- The pattern of a number of the format denotes the number. -/
theorem Holds.decode (hp : 1 ≤ f.precision) (negative : Bool) {m : Nat} {e : Int}
    (h : f.Holds m e) :
    f.decode (f.signBits negative + ((e - f.minExponent).toNat * f.unit + m)) =
      .finite negative m e := by
  obtain ⟨j, hj⟩ : ∃ j : Nat, e = f.minExponent + j :=
    ⟨(e - f.minExponent).toNat, by have := h.least; omega⟩
  have hgreatest := h.greatest
  have hsignificand := h.significand
  have hoffset : (e - f.minExponent).toNat = j := by omega
  rw [hoffset]
  by_cases hsmall : m < f.unit
  · -- the leading bit is not set, so the exponent is the least one and the field is zero
    have hzero : j = 0 := by
      have := h.normal
      omega
    rw [hzero, decode_fields hp negative 0 m (by omega) hsmall, if_neg (by omega), if_pos rfl, hj,
      hzero]
    congr 1
    omega
  · -- the leading bit moves into the field
    have hbits : j * f.unit + m = (j + 1) * f.unit + (m - f.unit) := by
      rw [Nat.succ_mul]
      omega
    rw [hbits, decode_fields hp negative (j + 1) (m - f.unit) (by omega) (by omega),
      if_neg (by omega), if_neg (Nat.succ_ne_zero j)]
    congr 1 <;> omega

/-- The pattern of a number of the format is not past the bound from which on patterns are those of
    infinities. -/
theorem Holds.bits_le {m : Nat} {e : Int} (h : f.Holds m e) :
    (e - f.minExponent).toNat * f.unit + m ≤ f.infinityBits := by
  have hfield : (e - f.minExponent).toNat + 2 ≤ 2 ^ f.exponentBits - 1 := by
    have hgreatest := h.greatest
    have hleast := h.least
    generalize 2 ^ f.exponentBits = fields at hgreatest ⊢
    omega
  have hle : ((e - f.minExponent).toNat + 2) * f.unit ≤ f.infinityBits :=
    Nat.mul_le_mul_right _ hfield
  have hsignificand := h.significand
  rw [Nat.add_mul] at hle
  omega

/-- **A number that needs no rounding is packed exactly**: its pattern denotes the number again, with
    the places that are kept. -/
theorem decode_encode_finite (hp : 1 ≤ f.precision) (negative : Bool) {m : Nat} (hm : m ≠ 0)
    {e : Int} (hexact : f.targetExponent m e ≤ e)
    (hfinite : f.targetExponent m e + 3 ≤ f.minExponent + (2 ^ f.exponentBits : Nat)) :
    f.decode (f.encode (.finite negative m e)) =
      .finite negative (m * 2 ^ (e - f.targetExponent m e).toNat) (f.targetExponent m e) := by
  have holds := holds_targetExponent hp hm hexact hfinite
  rw [← holds.decode hp negative]
  show f.decode (f.signBits negative + f.magnitudeBits m e) = _
  simp only [magnitudeBits, if_neg hm, if_pos hexact]
  exact congrArg (fun bits => f.decode (f.signBits negative + bits)) (Nat.min_eq_left holds.bits_le)

/-- Numbers of the format need no rounding. -/
theorem Holds.targetExponent_eq (hp : 1 ≤ f.precision) {m : Nat} (hm : m ≠ 0) {e : Int}
    (h : f.Holds m e) : f.targetExponent m e = e := by
  have hlog : m.log2 < f.precision := (Nat.log2_lt hm).mpr (two_mul_unit hp ▸ h.significand)
  have hleast := h.least
  rw [targetExponent]
  rcases h.normal with hnormal | hnormal
  · omega
  · have hlog' : f.precision - 1 ≤ m.log2 := (Nat.le_log2 hm).mpr hnormal
    omega

/-- A double keeps more places than a single has, and takes greater and smaller numbers. -/
theorem Holds.exact_binary64 {m : Nat} {e : Int} (h : binary32.Holds m e) (hm : m ≠ 0) :
    binary64.targetExponent m e ≤ e ∧
      binary64.targetExponent m e + 3 ≤ binary64.minExponent + (2 ^ binary64.exponentBits : Nat) := by
  have hsignificand : m < 2 ^ 24 := h.significand
  have hleast : -149 ≤ e := h.least
  have hgreatest : e + 3 ≤ -149 + 256 := h.greatest
  have hlog : m.log2 < 24 := (Nat.log2_lt hm).mpr hsignificand
  have htarget : binary64.targetExponent m e = max (e + (m.log2 + 1 : Nat) - 53) (-1074) := rfl
  constructor
  · omega
  · show _ ≤ (-1074 : Int) + 2048
    omega

/-- A zero keeps its sign. -/
theorem decode_encode_zero (hp : 1 ≤ f.precision) (he : 2 ≤ 2 ^ f.exponentBits) (negative : Bool)
    (e : Int) : f.decode (f.encode (.finite negative 0 e)) = .finite negative 0 f.minExponent := by
  have hfields := decode_fields hp negative 0 0 (by omega) unit_pos
  rw [if_neg (by omega), if_pos rfl, Nat.zero_mul] at hfields
  exact hfields

theorem decode_encode_infinity (hp : 1 ≤ f.precision) (negative : Bool) :
    f.decode (f.encode (.infinity negative)) = .infinity negative := by
  have hpos : 0 < 2 ^ f.exponentBits := Nat.two_pow_pos _
  have hfields := decode_fields hp negative (2 ^ f.exponentBits - 1) 0 (by omega) unit_pos
  rw [if_pos rfl, if_pos rfl] at hfields
  exact hfields

theorem decode_encode_nan (hp : 2 ≤ f.precision) : f.decode (f.encode .nan) = .nan := by
  have hpos : 0 < 2 ^ f.exponentBits := Nat.two_pow_pos _
  have hquiet : 2 ^ (f.precision - 2) < f.unit := Nat.pow_lt_pow_right (by omega) (by omega)
  have hfields := decode_fields (by omega) false (2 ^ f.exponentBits - 1) (2 ^ (f.precision - 2))
    (by omega) hquiet
  rw [if_pos rfl, if_neg (Nat.ne_of_gt (Nat.two_pow_pos _)), signBits, if_neg Bool.false_ne_true,
    Nat.zero_add] at hfields
  exact hfields

/-- A packed number is a pattern of the format. -/
theorem encode_lt (hp : 2 ≤ f.precision) (v : Extended) : f.encode v < 2 * f.signWeight := by
  have hpos : 0 < 2 ^ f.exponentBits := Nat.two_pow_pos _
  have hweight : f.infinityBits + f.unit = f.signWeight := by
    have hsucc : 2 ^ f.exponentBits = (2 ^ f.exponentBits - 1) + 1 := by omega
    rw [signWeight_eq (by omega), hsucc, Nat.succ_mul]
    rfl
  have hquiet : 2 ^ (f.precision - 2) < f.unit := Nat.pow_lt_pow_right (by omega) (by omega)
  have hsign : ∀ negative, f.signBits negative ≤ f.signWeight := by
    intro negative
    cases negative <;> simp [signBits]
  have hunit : 0 < f.unit := unit_pos
  cases v with
  | nan =>
    show f.infinityBits + 2 ^ (f.precision - 2) < _
    omega
  | infinity negative =>
    show f.signBits negative + f.infinityBits < _
    have := hsign negative
    omega
  | finite negative m e =>
    show f.signBits negative + f.magnitudeBits m e < _
    have := hsign negative
    have hle : f.magnitudeBits m e ≤ f.infinityBits := by
      rw [magnitudeBits]
      split
      · exact Nat.zero_le _
      · exact Nat.min_le_right ..
    omega

end Format

/-! ## Singles and doubles -/

/-- The number that the nearest double denotes. -/
theorem Real64.value_ofValue (v : Extended) :
    (Real64.ofValue v).value = Format.binary64.decode (Format.binary64.encode v) := by
  have hlt : Format.binary64.encode v < 2 ^ 64 := Format.encode_lt (by decide) v
  show Format.binary64.decode (UInt64.ofNat (Format.binary64.encode v)).toNat = _
  rw [UInt64.toNat_ofNat_of_lt' hlt]

/-- A double with a value is a number of the format. -/
theorem Real64.exists_holds {x : Real64} {q : Rat} (h : x.value.toRat = some q) :
    ∃ negative m e, x.value = .finite negative m e ∧ Format.binary64.Holds m e := by
  rcases Format.decode_cases (f := .binary64) (by decide) (by decide) x.bits.toNat with
    hvalue | ⟨negative, hvalue⟩ | hvalue
  · rw [value, hvalue] at h
    cases h
  · rw [value, hvalue] at h
    cases h
  · exact hvalue

namespace Real32

/-- The number that a single denotes. -/
def value (x : Real32) : Extended := Format.binary32.decode x.bits.toNat

/-- The number that a widened single denotes, with as many places as a double keeps. -/
theorem value_widen (x : Real32) :
    x.widen.value = Format.binary64.decode (Format.binary64.encode x.value) :=
  Real64.value_ofValue _

theorem value_narrow (x : Real64) :
    x.narrow.value = Format.binary32.decode (Format.binary32.encode x.value) := by
  have hlt : Format.binary32.encode x.value < 2 ^ 32 := Format.encode_lt (by decide) x.value
  show Format.binary32.decode (UInt32.ofNat (Format.binary32.encode x.value)).toNat = _
  rw [UInt32.toNat_ofNat_of_lt' hlt]

/-- **Widening loses nothing**: the double narrows to a single of the same value. -/
theorem value_narrow_widen (x : Real32) : x.widen.narrow.value = x.value := by
  have hp : 1 ≤ Format.binary32.precision := by decide
  have hp' : 1 ≤ Format.binary64.precision := by decide
  rw [value_narrow, value_widen]
  rcases Format.decode_cases hp (by decide) x.bits.toNat with h | ⟨negative, h⟩ |
    ⟨negative, m, e, h, holds⟩
  · rw [value, h, Format.decode_encode_nan (by decide), Format.decode_encode_nan (by decide)]
  · rw [value, h, Format.decode_encode_infinity hp', Format.decode_encode_infinity hp]
  · rw [value, h]
    by_cases hm : m = 0
    · have hzero : e = Format.binary32.minExponent := by
        refine holds.normal.resolve_right ?_
        rw [hm]
        exact Nat.not_le.mpr Format.unit_pos
      rw [hm, Format.decode_encode_zero hp' (by decide), Format.decode_encode_zero hp (by decide),
        hzero]
    · obtain ⟨hexact, hfinite⟩ := holds.exact_binary64 hm
      rw [Format.decode_encode_finite hp' negative hm hexact hfinite]
      generalize hk : (e - Format.binary64.targetExponent m e).toNat = k
      have hshift : Format.binary64.targetExponent m e + (k : Int) = e := by omega
      have hpack : Format.binary32.encode (.finite negative (m * 2 ^ k)
          (Format.binary64.targetExponent m e)) =
          Format.binary32.encode (.finite negative m e) := by
        rw [Format.encode, Format.encode, Format.magnitudeBits_shift, hshift]
      have htarget := holds.targetExponent_eq hp hm
      rw [hpack, Format.decode_encode_finite hp negative hm (Int.le_of_eq htarget)
        (by rw [htarget]; exact holds.greatest), htarget, Int.sub_self]
      show Extended.finite negative (m * 2 ^ 0) e = _
      rw [Nat.pow_zero, Nat.mul_one]

/-- What has been widened once is not changed by narrowing and widening it again. -/
theorem widen_narrow_widen (x : Real32) : x.widen.narrow.widen = x.widen :=
  congrArg Real64.ofValue x.value_narrow_widen

end Real32

end Marshal.Number
