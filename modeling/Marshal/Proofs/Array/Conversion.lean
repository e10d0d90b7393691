import Mathlib.Tactic.Choose
import Marshal.Array.Conversion
import Marshal.Proofs.Array.Storage

/-!
# `Proofs.Array.Conversion` — integers converted to integers

An integer of any type is converted as itself, whatever the rule of the method and the tolerance are:
these are about fractions. What the method decides is whether an integer outside the target's range is
moved to the nearer bound or refused, and one that is refused makes the whole conversion fail.

## Contents

* `signedNat_bounds`, `ofBytes_mem_range` — what is read from a type's bytes lies in its range;
* `nearest`, `clampTo_eq` — the integer of a range that is nearest to a given one;
* `Method.Takes` — the lists of integers that a method converts;
* `Dense.convert?_of_converted` — the conversion of an array, from that of its elements;
* `Dense.convert?_integers` — the conversion of an array of integers.
-/

namespace Marshal

open Marshal.Number Marshal.Text

-- powers of integers are those of core, whatever algebra is in scope
attribute [local instance (2000)] instPowNat

/-! ## The range of a type -/

/-- What is read from as many bits as the type is wide lies in the type's range. -/
theorem signedNat_bounds (signed : Bool) {width n : Nat} (hwidth : 0 < width) (hn : n < 2 ^ width) :
    (if signed then -(2 ^ (width - 1)) else 0) ≤ signedNat signed width n ∧
      signedNat signed width n ≤ if signed then 2 ^ (width - 1) - 1 else 2 ^ width - 1 := by
  obtain ⟨k, rfl⟩ : ∃ k, width = k + 1 := ⟨width - 1, by omega⟩
  have hdouble : 2 ^ (k + 1) = 2 * 2 ^ k := Nat.pow_succ'
  have hcast : ((2 ^ k : Nat) : Int) = 2 ^ k := Int.natCast_pow 2 k
  have hcast' : ((2 ^ (k + 1) : Nat) : Int) = 2 ^ (k + 1) := Int.natCast_pow 2 (k + 1)
  rw [signedNat, Nat.add_sub_cancel, ← hcast, ← hcast']
  cases signed with
  | false =>
    simp only [Bool.false_eq_true, false_and, if_false]
    omega
  | true =>
    simp only [true_and, if_true]
    split <;> omega

/-- A range has a least and a greatest integer. -/
theorem NumericType.range_le {t : NumericType} {low high : Int} (range : t.range? = some (low, high)) :
    low ≤ high := by
  cases t <;> cases range <;> decide

/-- The bytes of an integer type are read as an integer in the type's range. -/
theorem ofBytes_mem_range {t : NumericType} {low high : Int} (range : t.range? = some (low, high))
    {b : Bytes} (hb : b.length = t.size) :
    ∃ v, Scalar.ofBytes t b = .integer v ∧ low ≤ v ∧ v ≤ high := by
  obtain ⟨signed, width, hwidth, rfl, rfl⟩ := NumericType.range?_eq_some_iff.mp range
  obtain ⟨hbits, hpos⟩ := NumericType.bits_size hwidth
  have hlt : leNat b < 2 ^ width := hbits ▸ hb ▸ leNat_lt b
  exact ⟨_, ofBytes_of_integerWidth hwidth b, signedNat_bounds signed hpos hlt⟩

/-! ## One integer -/

/-- The integer of a range that is nearest to a given one. -/
def nearest (low high v : Int) : Int := max low (min v high)

/-- An integer in the range is nearest to itself. -/
theorem nearest_of_mem {low high v : Int} (ge : low ≤ v) (le : v ≤ high) : nearest low high v = v := by
  unfold nearest
  omega

theorem nearest_mem {low high : Int} (hrange : low ≤ high) (v : Int) :
    low ≤ nearest low high v ∧ nearest low high v ≤ high := by
  unfold nearest
  omega

/-- Clamping takes the nearest integer of the range, if the method clips or there is nothing to
clip. -/
theorem clampTo_eq {low high : Int} (hrange : low ≤ high) (clips : Bool) (v : Int) :
    clampTo low high clips v =
      if clips = true ∨ low ≤ v ∧ v ≤ high then some (nearest low high v) else none := by
  unfold clampTo
  by_cases hv : low ≤ v ∧ v ≤ high
  · rw [if_pos hv, if_pos (.inr hv), nearest_of_mem hv.1 hv.2]
  · rw [if_neg hv]
    cases clips with
    | false => simp [hv]
    | true =>
      have taken : true = true ∨ low ≤ v ∧ v ≤ high := .inl rfl
      have hbound : (if v < low then low else high) = nearest low high v := by
        unfold nearest
        omega
      rw [if_pos rfl, if_pos taken, hbound]

/-- The conversion of an integer does not ask for the rule or the tolerance. -/
theorem convert?_integer {target : NumericType} {low high : Int}
    (range : target.range? = some (low, high)) (method : Method) (tolerance : Real64) (v : Int) :
    (Scalar.integer v).convert? target method tolerance =
      if method.clips = true ∨ low ≤ v ∧ v ≤ high then some (.integer (nearest low high v))
      else none := by
  unfold Scalar.convert?
  rw [range]
  dsimp only [Scalar.toInteger, Option.bind_some]
  rw [clampTo_eq (NumericType.range_le range), apply_ite (Option.map Scalar.integer)]
  rfl

/-! ## Lists of integers -/

/-- A method takes integers to a range: it clips, or there is nothing to clip. -/
def Method.Takes (method : Method) (low high : Int) (values : List Int) : Prop :=
  method.clips = true ∨ ∀ v ∈ values, low ≤ v ∧ v ≤ high

instance (method : Method) (low high : Int) (values : List Int) :
    Decidable (method.Takes low high values) :=
  inferInstanceAs (Decidable (_ ∨ _))

theorem Method.takes_cons {method : Method} {low high v : Int} {values : List Int} :
    method.Takes low high (v :: values) ↔
      (method.clips = true ∨ low ≤ v ∧ v ≤ high) ∧ method.Takes low high values := by
  unfold Method.Takes
  rw [List.forall_mem_cons, or_and_left]

/-- **Integers one after the other**: all become the nearest ones, or one is refused. -/
theorem mapM_convert?_integers {target : NumericType} {low high : Int}
    (range : target.range? = some (low, high)) (method : Method) (tolerance : Real64)
    (values : List Int) :
    (values.map Scalar.integer).mapM (Scalar.convert? · target method tolerance) =
      if method.Takes low high values then
        some (values.map fun v => .integer (nearest low high v))
      else none := by
  induction values with
  | nil => rw [if_pos (.inr fun _ hv => absurd hv List.not_mem_nil)]; rfl
  | cons v rest ih =>
    rw [List.map_cons, List.mapM_cons, convert?_integer range, ih]
    by_cases hv : method.clips = true ∨ low ≤ v ∧ v ≤ high
    · by_cases hrest : method.Takes low high rest
      · rw [if_pos hv, if_pos hrest, if_pos (Method.takes_cons.mpr ⟨hv, hrest⟩)]
        rfl
      · rw [if_pos hv, if_neg hrest, if_neg fun h => hrest (Method.takes_cons.mp h).2]
        rfl
    · rw [if_neg hv, if_neg fun h => hv (Method.takes_cons.mp h).1]
      rfl

/-! ## Arrays of integers -/

namespace Dense

variable {a : Dense}

/-- An element has all the bytes of its place. -/
theorem WellFormed.length_chunk (wf : a.WellFormed) {i : Nat} (hi : i < a.length) :
    (a.chunk i).length = a.stride := by
  have hplace := wf.place_le hi
  rw [chunk, List.length_take, List.length_drop]
  omega

/-- An array of an integer type has integers in the type's range. -/
theorem WellFormed.exists_integers (wf : a.WellFormed) {low high : Int}
    (range : a.storage.range? = some (low, high)) :
    ∃ values : List Int, a.elements = values.map .integer ∧ ∀ v ∈ values, low ≤ v ∧ v ≤ high := by
  have each : ∀ i ∈ List.range a.length, ∃ v, a.get i = .integer v ∧ low ≤ v ∧ v ≤ high :=
    fun i hi => ofBytes_mem_range range (wf.length_chunk (List.mem_range.mp hi))
  choose! value hvalue using each
  refine ⟨(List.range a.length).map value, ?_, ?_⟩
  · rw [elements, List.map_map]
    exact List.map_congr_left fun i hi => (hvalue i hi).1
  · intro v hv
    obtain ⟨i, hi, rfl⟩ := List.mem_map.mp hv
    exact (hvalue i hi).2

/-- If an element is refused there is no result. -/
theorem convert?_of_refused {target : NumericType} {method : Method} {tolerance : Real64}
    (refused : a.elements.mapM (Scalar.convert? · target method tolerance) = none) :
    a.convert? target method tolerance = none := by
  unfold Dense.convert?
  rw [refused]
  split
  · rfl
  · split <;> rfl

/-- **The converted elements in the shape of the source**: if they are values of the target they make an
array of their own, provided that its bytes can be addressed. -/
theorem convert?_of_converted (wf : a.WellFormed) {source target : NumericType}
    (typed : a.type = .numeric source) (defined : target ≠ .undefined)
    (addressable : a.length * target.size < addressLimit) {method : Method} {tolerance : Real64}
    {values : List Scalar}
    (converted : a.elements.mapM (Scalar.convert? · target method tolerance) = some values)
    (native : ∀ v ∈ values, v.Native target) (counted : values.length = a.length) :
    ∃ b, a.convert? target method tolerance = some b ∧ b.WellFormed ∧ b.type = .numeric target ∧
      b.dims = a.dims ∧ b.shares = 0 ∧ b.elements = values := by
  have htarget : ElementType.numeric target ≠ .numeric .undefined :=
    fun h => defined (ElementType.numeric.inj h)
  have made := create?_eq_some htarget wf.counted addressable
  obtain ⟨copied, htype, hdims, hshares⟩ := wellFormed_create? made
  generalize hcopy : (⟨.numeric target, a.dims, a.length,
    List.replicate (a.length * (ElementType.numeric target).storage.size) 0, 0⟩ : Dense) = copy at *
  have hlength : values.length = copy.length := hcopy ▸ counted
  have hstorage : copy.storage = target := by rw [storage, htype]; rfl
  refine ⟨copy.overwrite 0 values, ?_, copied.overwrite 0 _, ?_, ?_, ?_, ?_⟩
  · unfold Dense.convert?
    rw [typed]
    dsimp only
    rw [made]
    dsimp only
    rw [converted, Option.map_some]
  · rw [type_overwrite, htype]
  · rw [dims_overwrite, hdims]
  · rw [shares_overwrite, hshares]
  · exact elements_overwrite copied (hstorage.symm ▸ native) hlength

/-- **Conversion of integers to integers.** The result has the nearest integers of the target's range
in the same shape, and there is none exactly if the method refuses one of them. -/
theorem convert?_integers (wf : a.WellFormed) {source target : NumericType} {low high : Int}
    (typed : a.type = .numeric source) (range : target.range? = some (low, high))
    (addressable : a.length * target.size < addressLimit) {values : List Int}
    (elements : a.elements = values.map .integer) (method : Method) (tolerance : Real64) :
    if method.Takes low high values then
      ∃ b, a.convert? target method tolerance = some b ∧ b.WellFormed ∧ b.type = .numeric target ∧
        b.dims = a.dims ∧ b.shares = 0 ∧
        b.elements = values.map fun v => .integer (nearest low high v)
    else a.convert? target method tolerance = none := by
  have defined : target ≠ .undefined := by
    rintro rfl
    cases range
  have each := mapM_convert?_integers range method tolerance values
  rw [← elements] at each
  split
  · next taken =>
    rw [if_pos taken] at each
    refine convert?_of_converted wf typed defined addressable each (fun u hu => ?_) ?_
    · obtain ⟨v, -, rfl⟩ := List.mem_map.mp hu
      obtain ⟨ge, le⟩ := nearest_mem (NumericType.range_le range) v
      exact .integer range ge le
    · rw [List.length_map, ← a.length_elements, elements, List.length_map]
  · next refused => exact convert?_of_refused (each.trans (if_neg refused))

end Dense

end Marshal
