import Mathlib.Algebra.Order.Field.Power
import Mathlib.Algebra.Order.Field.Rat
import Mathlib.Data.Rat.Floor
import Mathlib.Tactic.Linarith
import Mathlib.Tactic.Positivity
import Mathlib.Tactic.Ring
import Marshal.Proofs.Number.Single

/-!
# `Proofs.Number.Rounding` — rounding keeps to the side of a number of the format

Packing takes the nearest number of the format. So a number that is no greater than one of the format
is not packed to a greater one, and a number that has the value of one of the format is packed to that
one, whatever significand it comes with. Both are shown for the places that are kept: these are a
rounded quotient, which does not pass an integer, and a carry out of them is the next power of two.

## Contents

* `dyadic` — a significand times a power of two, as a rational, and the order of such numbers;
* `roundShift_le`, `le_roundShift` — a rounded quotient does not pass an integer;
* `Format.kept` — the places that packing keeps;
* `Format.Holds.decode_encode_of_eq`, `Format.decode_encode_le` — what a packed number denotes;
* `Real64.exists_value_ofInt` — the integers that a double holds exactly;
* `roundAway_le`, `roundAway_nonneg` — the integer nearest to a number does not pass an integer.
-/

namespace Marshal.Number

-- powers of integers are those of core, whatever algebra is in scope
attribute [local instance (2000)] instPowNat

/-! ## Significands and powers of two -/

/-- A significand times a power of two. -/
def dyadic (m : Nat) (e : Int) : Rat := (m : Rat) * (2 : Rat) ^ e

theorem dyadic_nonneg (m : Nat) (e : Int) : 0 ≤ dyadic m e := by
  unfold dyadic
  positivity

@[simp] theorem dyadic_zero (e : Int) : dyadic 0 e = 0 := by
  rw [dyadic, Nat.cast_zero, zero_mul]

@[simp] theorem dyadic_zero_right (m : Nat) : dyadic m 0 = m := by
  rw [dyadic, zpow_zero, mul_one]

theorem dyadic_mul (m n : Nat) (e k : Int) : dyadic (m * n) (e + k) = dyadic m e * dyadic n k := by
  rw [dyadic, dyadic, dyadic, zpow_add₀ two_ne_zero, Nat.cast_mul]
  ring

theorem dyadic_add (m n : Nat) (e : Int) : dyadic (m + n) e = dyadic m e + dyadic n e := by
  rw [dyadic, dyadic, dyadic, Nat.cast_add, add_mul]

/-- Places may be moved between the significand and the power. -/
theorem dyadic_shift (m k : Nat) (e : Int) : dyadic (m * 2 ^ k) e = dyadic m (e + k) := by
  have hpow : ((2 ^ k : Nat) : Rat) = (2 : Rat) ^ (k : Int) := by
    rw [zpow_natCast]
    exact Nat.cast_pow 2 k
  rw [dyadic, dyadic, zpow_add₀ two_ne_zero, Nat.cast_mul, hpow]
  ring

/-- A number with fewer places of its own. -/
theorem dyadic_eq_of_le (m : Nat) {e k : Int} (h : k ≤ e) :
    dyadic m e = dyadic (m * 2 ^ (e - k).toNat) k := by
  rw [dyadic_shift, Int.toNat_of_nonneg (by omega), add_sub_cancel]

theorem dyadic_le_iff {m n : Nat} {e : Int} : dyadic m e ≤ dyadic n e ↔ m ≤ n := by
  have hpos : (0 : Rat) < 2 ^ e := zpow_pos two_pos e
  rw [dyadic, dyadic, mul_le_mul_iff_left₀ hpos, Nat.cast_le]

theorem dyadic_lt_iff {m n : Nat} {e : Int} : dyadic m e < dyadic n e ↔ m < n := by
  rw [← not_le, dyadic_le_iff, not_le]

theorem dyadic_mono (m : Nat) {e k : Int} (h : e ≤ k) : dyadic m e ≤ dyadic m k := by
  rw [dyadic_eq_of_le m h, dyadic_le_iff]
  exact Nat.le_mul_of_pos_right m (Nat.two_pow_pos _)

/-- Below a significand's bound there is one place less. -/
theorem dyadic_le_pred {m n : Nat} {e k : Int} (hm : m < n) (h : dyadic m e < dyadic n k) :
    dyadic m e ≤ dyadic (n - 1) k := by
  by_cases hk : k ≤ e
  · rw [dyadic_eq_of_le m hk] at h ⊢
    exact dyadic_le_iff.mpr (Nat.le_sub_one_of_lt (dyadic_lt_iff.mp h))
  · calc dyadic m e ≤ dyadic (n - 1) e := dyadic_le_iff.mpr (Nat.le_sub_one_of_lt hm)
      _ ≤ dyadic (n - 1) k := dyadic_mono _ (by omega)

/-! ## Rounded quotients -/

/-- A quotient that is no greater than an integer is not rounded past it. -/
theorem roundShift_le {m s n : Nat} (h : m ≤ n * 2 ^ s) : roundShift m s ≤ n := by
  rcases Nat.lt_or_ge (m / 2 ^ s) n with hlt | hge
  · exact (roundShift_bounds m s).2.trans hlt
  · have hm : m = n * 2 ^ s := Nat.le_antisymm h ((Nat.le_div_iff_mul_le (Nat.two_pow_pos s)).mp hge)
    rw [hm, roundShift_mul_two_pow]

theorem le_roundShift {m s n : Nat} (h : n * 2 ^ s ≤ m) : n ≤ roundShift m s :=
  ((Nat.le_div_iff_mul_le (Nat.two_pow_pos s)).mpr h).trans (roundShift_bounds m s).1

namespace Format

variable {f : Format}

/-! ## The kept places -/

/-- The significand that packing keeps, with its last place at the target exponent. -/
def kept (f : Format) (m : Nat) (e : Int) : Nat :=
  if f.targetExponent m e ≤ e then m * 2 ^ (e - f.targetExponent m e).toNat
  else roundShift m (f.targetExponent m e - e).toNat

/-- What is kept does not pass a number with the same last place. -/
theorem kept_le {m n : Nat} {e : Int} (h : dyadic m e ≤ dyadic n (f.targetExponent m e)) :
    f.kept m e ≤ n := by
  unfold kept
  split
  · next shorter =>
    rw [dyadic_eq_of_le m shorter] at h
    exact dyadic_le_iff.mp h
  · next longer =>
    have hle : e ≤ f.targetExponent m e := by omega
    rw [dyadic_eq_of_le n hle] at h
    exact roundShift_le (dyadic_le_iff.mp h)

theorem le_kept {m n : Nat} {e : Int} (h : dyadic n (f.targetExponent m e) ≤ dyadic m e) :
    n ≤ f.kept m e := by
  unfold kept
  split
  · next shorter =>
    rw [dyadic_eq_of_le m shorter] at h
    exact dyadic_le_iff.mp h
  · next longer =>
    have hle : e ≤ f.targetExponent m e := by omega
    rw [dyadic_eq_of_le n hle] at h
    exact le_roundShift (dyadic_le_iff.mp h)

/-- A number lies between the powers of two that its length says. -/
theorem dyadic_log2_bounds {m : Nat} (hm : m ≠ 0) (e : Int) :
    dyadic 1 (e + m.log2) ≤ dyadic m e ∧ dyadic m e < dyadic 1 (e + (m.log2 + 1 : Nat)) := by
  rw [← dyadic_shift, ← dyadic_shift, dyadic_le_iff, dyadic_lt_iff, Nat.one_mul, Nat.one_mul]
  exact ⟨Nat.log2_self_le hm, Nat.lt_log2_self⟩

theorem kept_le_two_mul_unit (hp : 1 ≤ f.precision) {m : Nat} (hm : m ≠ 0) (e : Int) :
    f.kept m e ≤ 2 * f.unit := by
  refine kept_le ?_
  have hplaces : f.targetExponent m e = max (e + (m.log2 + 1 : Nat) - f.precision) f.minExponent := rfl
  rw [two_mul_unit hp, ← Nat.one_mul (2 ^ f.precision), dyadic_shift]
  exact (dyadic_log2_bounds hm e).2.le.trans (dyadic_mono 1 (by omega))

/-- The leading place is kept, unless the number is too small for the format. -/
theorem unit_le_kept (hp : 1 ≤ f.precision) {m : Nat} (hm : m ≠ 0) {e : Int}
    (h : f.targetExponent m e ≠ f.minExponent) : f.unit ≤ f.kept m e := by
  refine le_kept ?_
  have hplaces : f.targetExponent m e = max (e + (m.log2 + 1 : Nat) - f.precision) f.minExponent := rfl
  rw [unit, ← Nat.one_mul (2 ^ (f.precision - 1)), dyadic_shift]
  exact (dyadic_mono 1 (by omega)).trans (dyadic_log2_bounds hm e).1

/-! ## What a packed number denotes -/

/-- The kept places are a number of the format, with the carry of a rounding up moved into the
exponent. -/
theorem exists_holds_kept (hp : 1 ≤ f.precision) {m : Nat} (hm : m ≠ 0) {e : Int}
    (hfinite : f.targetExponent m e + 4 ≤ f.minExponent + (2 ^ f.exponentBits : Nat)) :
    ∃ n k, f.Holds n k ∧ dyadic n k = dyadic (f.kept m e) (f.targetExponent m e) ∧
      (k - f.minExponent).toNat * f.unit + n =
        (f.targetExponent m e - f.minExponent).toNat * f.unit + f.kept m e := by
  have hle := kept_le_two_mul_unit hp hm e
  have hleast : f.minExponent ≤ f.targetExponent m e := Int.le_max_right ..
  have hleading := unit_le_kept hp hm (e := e)
  generalize f.targetExponent m e = target at *
  generalize f.kept m e = n at *
  rcases Nat.lt_or_ge n (2 * f.unit) with hlt | hge
  · have hnormal : target = f.minExponent ∨ f.unit ≤ n := by
      by_cases h : target = f.minExponent
      · exact .inl h
      · exact .inr (hleading h)
    exact ⟨n, target, ⟨hlt, hleast, hnormal, by omega⟩, rfl, rfl⟩
  · -- all kept places are ones and the number is rounded up
    have hunit : 0 < f.unit := unit_pos
    obtain rfl : n = 2 * f.unit := Nat.le_antisymm hle hge
    have hplace : (target + 1 - f.minExponent).toNat = (target - f.minExponent).toNat + 1 := by omega
    refine ⟨f.unit, target + 1, ⟨by omega, by omega, .inr (Nat.le_refl _), by omega⟩, ?_, ?_⟩
    · rw [Nat.mul_comm]
      exact (dyadic_shift f.unit 1 target).symm
    · rw [hplace, Nat.succ_mul]
      omega

/-- A packed number denotes the kept places, unless it is too great for the format. -/
theorem decode_encode_kept (hp : 1 ≤ f.precision) (negative : Bool) {m : Nat} (hm : m ≠ 0) {e : Int}
    (hfinite : f.targetExponent m e + 4 ≤ f.minExponent + (2 ^ f.exponentBits : Nat)) :
    ∃ n k, f.decode (f.encode (.finite negative m e)) = .finite negative n k ∧
      dyadic n k = dyadic (f.kept m e) (f.targetExponent m e) := by
  obtain ⟨n, k, holds, value, bits⟩ := exists_holds_kept hp hm hfinite
  refine ⟨n, k, ?_, value⟩
  have packed : f.magnitudeBits m e = (k - f.minExponent).toNat * f.unit + n := by
    rw [bits, magnitudeBits, if_neg hm]
    exact Nat.min_eq_left (bits ▸ holds.bits_le)
  rw [← holds.decode hp negative, ← packed]
  rfl

/-- **Rounding does not pass a number of the format**: what is no greater than one is packed to one
that is no greater. -/
theorem decode_encode_le (hp : 1 ≤ f.precision) (he : 2 ≤ 2 ^ f.exponentBits) (negative : Bool)
    {m n : Nat} {e k : Int} (hle : dyadic m e ≤ dyadic n k) (hn : n < 2 * f.unit)
    (hleast : f.minExponent ≤ k)
    (hgreatest : k + 4 ≤ f.minExponent + (2 ^ f.exponentBits : Nat)) :
    ∃ m' e', f.decode (f.encode (.finite negative m e)) = .finite negative m' e' ∧
      dyadic m' e' ≤ dyadic n k := by
  by_cases hm : m = 0
  · refine ⟨0, f.minExponent, hm ▸ decode_encode_zero hp he negative e, ?_⟩
    rw [dyadic_zero]
    exact dyadic_nonneg n k
  -- the places that are cut off lie below the last place of the other number
  have htarget : f.targetExponent m e ≤ k := by
    refine Int.max_le.mpr ⟨?_, hleast⟩
    by_contra hbeyond
    have hlower := (dyadic_log2_bounds hm e).1
    have hupper : dyadic n k < dyadic 1 (k + f.precision) := by
      rw [← dyadic_shift, dyadic_lt_iff, Nat.one_mul, ← two_mul_unit hp]
      exact hn
    have hpower : dyadic 1 (k + f.precision) ≤ dyadic 1 (e + m.log2) := dyadic_mono 1 (by omega)
    linarith
  have hfinite : f.targetExponent m e + 4 ≤ f.minExponent + (2 ^ f.exponentBits : Nat) := by omega
  obtain ⟨m', e', decoded, value⟩ := decode_encode_kept hp negative hm hfinite
  refine ⟨m', e', decoded, ?_⟩
  rw [dyadic_eq_of_le n htarget] at hle ⊢
  rw [value]
  exact dyadic_le_iff.mpr (kept_le hle)

/-- Packing depends on the value alone. -/
theorem magnitudeBits_congr {m n : Nat} {e k : Int} (h : dyadic m e = dyadic n k) :
    f.magnitudeBits m e = f.magnitudeBits n k := by
  have aligned : ∀ {m n : Nat} {e k : Int}, e ≤ k → dyadic m e = dyadic n k →
      f.magnitudeBits m e = f.magnitudeBits n k := by
    intro m n e k hek h
    rw [dyadic_eq_of_le n hek] at h
    obtain rfl : m = n * 2 ^ (k - e).toNat :=
      Nat.le_antisymm (dyadic_le_iff.mp h.le) (dyadic_le_iff.mp h.ge)
    rw [magnitudeBits_shift, Int.toNat_of_nonneg (by omega), add_sub_cancel]
  rcases Int.le_total e k with hek | hke
  · exact aligned hek h
  · exact (aligned hke h.symm).symm

/-- **A number with the value of one of the format is packed to that one.** -/
theorem Holds.decode_encode_of_eq (hp : 1 ≤ f.precision) (negative : Bool) {m n : Nat} {e k : Int}
    (holds : f.Holds n k) (h : dyadic m e = dyadic n k) :
    f.decode (f.encode (.finite negative m e)) = .finite negative n k := by
  have hpack : f.encode (.finite negative m e) = f.encode (.finite negative n k) := by
    rw [encode, encode, magnitudeBits_congr h]
  rw [hpack]
  by_cases hn : n = 0
  · have hgreatest := holds.greatest
    have hleast : k = f.minExponent := by
      refine holds.normal.resolve_right ?_
      rw [hn]
      exact Nat.not_le.mpr unit_pos
    rw [hn, decode_encode_zero hp (by omega), hleast]
  · have htarget := holds.targetExponent_eq hp hn
    rw [decode_encode_finite hp negative hn htarget.le (by rw [htarget]; exact holds.greatest),
      htarget, Int.sub_self]
    show Extended.finite negative (n * 2 ^ 0) k = _
    rw [Nat.pow_zero, Nat.mul_one]

end Format

/-! ## Integers -/

/-- **A natural number of at most as many places as a double keeps** is a double. -/
theorem Real64.exists_value_ofInt {n : Nat} (hn : n < 2 ^ 53) :
    ∃ m e, (Real64.ofInt n).value = .finite false m e ∧ Format.binary64.Holds m e ∧ e ≤ 0 ∧
      dyadic m e = n := by
  have hp : 1 ≤ Format.binary64.precision := by decide
  have hsign : decide ((n : Int) < 0) = false := decide_eq_false (by omega)
  have hvalue : (Real64.ofInt n).value =
      Format.binary64.decode (Format.binary64.encode (.finite false n 0)) := by
    rw [ofInt, value_ofValue, hsign, Int.natAbs_natCast]
  by_cases hzero : n = 0
  · refine ⟨0, -1074, ?_, ⟨by decide, by decide, .inl rfl, by decide⟩, by decide, ?_⟩
    · rw [hvalue, hzero]
      exact Format.decode_encode_zero hp (by decide) false 0
    · rw [hzero, dyadic_zero, Nat.cast_zero]
  · have hlog : n.log2 < 53 := (Nat.log2_lt hzero).mpr hn
    have htarget : Format.binary64.targetExponent n 0 =
        max ((0 : Int) + (n.log2 + 1 : Nat) - 53) (-1074) := rfl
    have hexact : Format.binary64.targetExponent n 0 ≤ 0 := by omega
    have holds := Format.holds_targetExponent hp hzero hexact
      (show _ ≤ (-1074 : Int) + 2048 by omega)
    have hdyadic := (dyadic_eq_of_le n hexact).symm.trans (dyadic_zero_right n)
    refine ⟨_, _, ?_, holds, hexact, hdyadic⟩
    rw [hvalue]
    exact holds.decode_encode_of_eq hp false ((dyadic_zero_right n).trans hdyadic.symm)

/-- The nearest integer does not pass an integer. -/
theorem roundAway_le {q : Rat} (hq : 0 ≤ q) {n : Int} (h : q ≤ n) : roundAway q ≤ n := by
  rw [roundAway, if_neg (not_lt.mpr hq)]
  refine Int.lt_add_one_iff.mp (Rat.floor_lt_iff.mpr ?_)
  push_cast
  linarith

theorem roundAway_nonneg {q : Rat} (hq : 0 ≤ q) : 0 ≤ roundAway q := by
  rw [roundAway, if_neg (not_lt.mpr hq)]
  refine Rat.le_floor_iff.mpr ?_
  push_cast
  linarith

/-- A natural number is nearest to itself. -/
theorem roundAway_intCast {n : Int} (hn : 0 ≤ n) : roundAway n = n := by
  have hcast : (0 : Rat) ≤ n := Int.cast_nonneg hn
  refine Int.le_antisymm (roundAway_le hcast le_rfl) ?_
  rw [roundAway, if_neg (not_lt.mpr hcast)]
  refine Rat.le_floor_iff.mpr ?_
  linarith

end Marshal.Number
