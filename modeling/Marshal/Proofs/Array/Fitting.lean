import Mathlib.Data.List.Forall2
import Marshal.Proofs.Array.Conversion

/-!
# `Proofs.Array.Fitting` — what has been converted fits its type

Writing an element asks no questions: an integer that is too large loses its highest bits, and an
element of another shape than the type stores is not written at all. So it is for conversion to hand
over nothing but what the target type can hold. It does, whatever it starts from: the last step towards
an integer target is always the clamp, and the other targets choose the shape by the type alone.

## Contents

* `Scalar.convert?_fits` — a converted element fits its target;
* `Scalar.HeldBy`, `Scalar.Fits.heldBy` — what it means for an element to fit;
* `converted_held` — whatever is converted is held by its target;
* `mapM_eq_some_iff`, `Dense.elements_convert?` — the elements of a converted array.
-/

namespace Marshal

open Marshal.Number Marshal.Text

-- powers of integers are those of core, whatever algebra is in scope
attribute [local instance (2000)] instPowNat

/-! ## One element -/

/-- **A converted element fits its target.** -/
theorem Scalar.convert?_fits {v s : Scalar} {target : NumericType} {method : Method}
    {tolerance : Real64} (h : v.convert? target method tolerance = some s) : s.Fits target := by
  cases range : target.range? with
  | some bounds =>
    obtain ⟨low, high⟩ := bounds
    simp only [convert?, range] at h
    obtain ⟨n, -, clamped⟩ := Option.bind_eq_some_iff.mp h
    obtain ⟨m, hm, rfl⟩ := Option.map_eq_some_iff.mp clamped
    obtain ⟨ge, le⟩ := clampTo_bounds (NumericType.range_le range) hm
    exact ⟨low, high, range, ge, le⟩
  | none =>
    simp only [convert?, range] at h
    split at h
    · cases h
    · split at h
      · cases h
      · -- the shape depends on the target alone
        split at h
        · split at h
          · cases h
          · obtain rfl := Option.some.inj h
            exact .inl rfl
        · split at h
          · cases h
          · obtain rfl := Option.some.inj h
            exact .inr rfl
        · obtain rfl := Option.some.inj h
          exact .inl rfl
        · obtain rfl := Option.some.inj h
          exact .inr rfl
        · cases h

/-- Nothing fits the undefined type, so nothing can be converted to it. -/
theorem Scalar.convert?_undefined (v : Scalar) (method : Method) (tolerance : Real64) :
    v.convert? .undefined method tolerance = none := by
  apply Option.eq_none_iff_forall_ne_some.mpr
  intro s converted
  have fits := convert?_fits converted
  cases s with
  | integer n =>
    obtain ⟨_, _, range, -⟩ := fits
    cases range
  | real x => rcases fits with h | h <;> cases h
  | complex re im => rcases fits with h | h <;> cases h

/-- **An element that a type holds.** It has the shape that the type stores, and an integer lies in the
type's range. There are bytes to write for it, as many as the type says, and what is read from them is
the element, which nothing but single precision rounds. In an array the element gets the place that it
is written to, and no other place changes. -/
structure Scalar.HeldBy (s : Scalar) (t : NumericType) : Prop where
  shape : match t with
    | .undefined => False
    | .real32 | .real64 => ∃ x, s = .real x
    | .complex32 | .complex64 => ∃ re im, s = .complex re im
    | _ => ∃ n low high, s = .integer n ∧ t.range? = some (low, high) ∧ low ≤ n ∧ n ≤ high
  written : ∃ b, Scalar.toBytes? t s = some b ∧ b.length = t.size ∧
    Scalar.ofBytes t b = s.roundedTo t
  unrounded : t.isSingle = false → s.roundedTo t = s
  placed : ∀ a : Dense, a.WellFormed → a.storage = t → ∀ i < a.length, ∀ j,
    (a.set i s).get j = if j = i then s.roundedTo t else a.get j

/-- A type holds what fits it. -/
theorem Scalar.Fits.heldBy {s : Scalar} {t : NumericType} (h : s.Fits t) : s.HeldBy t where
  shape := by
    cases s with
    | integer n =>
      obtain ⟨low, high, range, ge, le⟩ := h
      cases t <;> first
        | exact ⟨n, low, high, rfl, range, ge, le⟩
        | cases range
    | real x => rcases h with rfl | rfl <;> exact ⟨x, rfl⟩
    | complex re im => rcases h with rfl | rfl <;> exact ⟨re, im, rfl⟩
  written := by
    obtain ⟨b, hb, read⟩ := ofBytes_toBytes?_of_fits h
    exact ⟨b, hb, length_toBytes? hb, read⟩
  unrounded := by
    intro double
    cases t <;> first
      | rfl
      | cases double
  placed := by
    rintro a wf rfl i hi j
    exact Dense.get_set wf hi h j

/-- **Whatever is converted is held by its target.** Take an element of any shape and value, integers
of any size and reals that are no numbers among them, any target, any method and any tolerance. What
the element becomes, if the method does not refuse it, the target holds; and nothing becomes an element
of the undefined type. -/
theorem converted_held (v : Scalar) (target : NumericType) (method : Method) (tolerance : Real64) :
    (∀ s, v.convert? target method tolerance = some s → s.HeldBy target) ∧
      v.convert? .undefined method tolerance = none :=
  ⟨fun _ converted => (Scalar.convert?_fits converted).heldBy,
    v.convert?_undefined method tolerance⟩

/-- Half of the greatest double is scaled to an integer beyond every range, and then clipped. -/
theorem converted_held_scaled :
    (Scalar.real ⟨0x7fdfffffffffffff⟩).convert? .int64 ⟨.scale, true⟩ .zero =
        some (.integer 9223372036854775807) ∧
      (Scalar.integer 9223372036854775807).HeldBy .int64 := by
  have converted : (Scalar.real ⟨0x7fdfffffffffffff⟩).convert? .int64 ⟨.scale, true⟩ .zero =
      some (.integer 9223372036854775807) := by decide +kernel
  exact ⟨converted, (converted_held _ _ _ _).1 _ converted⟩

/-! ## All elements of an array -/

/-- A list is gone through successfully exactly if each of its members is. -/
theorem mapM_eq_some_iff {α β : Type} {f : α → Option β} {xs : List α} {ys : List β} :
    xs.mapM f = some ys ↔ List.Forall₂ (fun x y => f x = some y) xs ys := by
  induction xs generalizing ys with
  | nil =>
    constructor
    · intro h
      cases h
      exact .nil
    · rintro ⟨⟩
      rfl
  | cons x xs ih =>
    rw [List.mapM_cons]
    constructor
    · intro h
      obtain ⟨y, hy, h⟩ := Option.bind_eq_some_iff.mp h
      obtain ⟨rest, hrest, h⟩ := Option.bind_eq_some_iff.mp h
      cases h
      exact .cons hy (ih.mp hrest)
    · intro h
      cases h with
      | cons hy hrest =>
        rw [hy, ih.mpr hrest]
        rfl

/-- Converted elements fit the target one by one. -/
theorem fits_of_converted {target : NumericType} {method : Method} {tolerance : Real64}
    {values results : List Scalar} (h : List.Forall₂
      (fun v w => v.convert? target method tolerance = some w) values results) :
    ∀ w ∈ results, w.Fits target := by
  induction h with
  | nil => exact fun w hw => absurd hw List.not_mem_nil
  | cons converted _ ih => exact List.forall_mem_cons.mpr ⟨Scalar.convert?_fits converted, ih⟩

/-- **A converted array** has the target's type and the same shape, and each of its elements is the one
of the source converted, as the target keeps it. -/
theorem Dense.elements_convert? {a b : Dense} (wf : a.WellFormed) {target : NumericType}
    {method : Method} {tolerance : Real64} (h : a.convert? target method tolerance = some b) :
    b.type = .numeric target ∧ b.dims = a.dims ∧
      ∃ values, List.Forall₂ (fun v w => v.convert? target method tolerance = some w)
        a.elements values ∧ b.elements = values.map (·.roundedTo target) := by
  unfold Dense.convert? at h
  split at h
  · cases h
  · split at h
    · cases h
    · next copy made =>
      obtain ⟨values, converted, rfl⟩ := Option.map_eq_some_iff.mp h
      obtain ⟨copied, htype, hdims, -⟩ := wellFormed_create? made
      have each := mapM_eq_some_iff.mp converted
      have hstorage : copy.storage = target := by rw [storage, htype]; rfl
      have fits : ∀ w ∈ values, w.Fits copy.storage := hstorage.symm ▸ fits_of_converted each
      have hlength : values.length = copy.length := by
        have hcount := copied.counted
        rw [hdims, wf.counted] at hcount
        rw [← each.length_eq, length_elements]
        exact Option.some.inj hcount
      refine ⟨by rw [type_overwrite, htype], by rw [dims_overwrite, hdims], values, each, ?_⟩
      rw [elements_overwrite_of_fits copied fits hlength, hstorage]

end Marshal
