import Marshal.Array.Dense
import Marshal.Proofs.Number.Single

/-!
# `Proofs.Array.Storage` — elements come back out of storage as they went in

An array is bytes, and an element is whatever its bytes say. An element that is a value of the machine
type has bytes that say the same element, and its bytes fill its place exactly, so writing one element
leaves all the others as they are. It follows that an array shows the elements that it has been filled
with, whatever the machine type is.

## Contents

* `Scalar.Native`, `Scalar.roundedTo` — the values of a machine type, and what it keeps of others;
* `ofBytes_toBytes?_of_fits`, `ofBytes_toBytes?` — what comes back from the bytes of an element;
* `Dense.WellFormed` — arrays whose storage agrees with their shape;
* `Dense.get_set`, `Dense.get_overwrite` — what is read after writing;
* `Dense.elements_overwrite_of_fits` — an array shows what it has been filled with.
-/

namespace Marshal

open Marshal.Number Marshal.Text

-- powers of integers are those of core, whatever algebra is in scope
attribute [local instance (2000)] instPowNat

/-! ## The values of a machine type -/

/-- The values of a machine type: integers in range, doubles, singles as doubles, and pairs of
    these. -/
inductive Scalar.Native : NumericType → Scalar → Prop
  | integer {t : NumericType} {low high v : Int} (range : t.range? = some (low, high))
    (ge : low ≤ v) (le : v ≤ high) : Native t (.integer v)
  | real64 (x : Real64) : Native .real64 (.real x)
  | real32 (x : Real32) : Native .real32 (.real x.widen)
  | complex64 (re im : Real64) : Native .complex64 (.complex re im)
  | complex32 (re im : Real32) : Native .complex32 (.complex re.widen im.widen)

/-- What a machine type keeps of an element: single precision keeps the nearest singles, and the
other types keep everything. -/
def Scalar.roundedTo : NumericType → Scalar → Scalar
  | .real32, .real x => .real x.narrow.widen
  | .complex32, .complex re im => .complex re.narrow.widen im.narrow.widen
  | _, v => v

@[simp] theorem Scalar.roundedTo_integer (t : NumericType) (v : Int) :
    (Scalar.integer v).roundedTo t = .integer v := by
  cases t <;> rfl

/-- An integer in range is the integer with its lowest bits. -/
theorem signedNat_mod {signed : Bool} {width : Nat} (hwidth : 0 < width) {v : Int}
    (ge : (if signed then -(2 ^ (width - 1)) else 0) ≤ v)
    (le : v ≤ if signed then 2 ^ (width - 1) - 1 else 2 ^ width - 1) :
    signedNat signed width (v % 2 ^ width).toNat = v := by
  obtain ⟨n, rfl⟩ : ∃ n, width = n + 1 := ⟨width - 1, by omega⟩
  have hdouble : (2 : Int) ^ (n + 1) = 2 * 2 ^ n := by rw [Int.pow_succ, Int.mul_comm]
  have hdouble' : 2 ^ (n + 1) = 2 * 2 ^ n := Nat.pow_succ'
  have hcast : ((2 ^ n : Nat) : Int) = 2 ^ n := Int.natCast_pow 2 n
  have hpos : (0 : Int) < 2 ^ n := hcast ▸ Int.natCast_pos.mpr (Nat.two_pow_pos n)
  rw [Nat.add_sub_cancel] at ge le
  by_cases hv : 0 ≤ v
  · -- nothing is cut off
    have hlt : v < 2 ^ (n + 1) := by
      cases signed
      · exact Int.lt_of_le_sub_one le
      · have le' : v ≤ 2 ^ n - 1 := le
        omega
    rw [Int.emod_eq_of_lt hv hlt, signedNat, if_neg ?_, Int.toNat_of_nonneg hv]
    rintro ⟨rfl, hsign⟩
    have le' : v ≤ 2 ^ n - 1 := le
    rw [Nat.add_sub_cancel] at hsign
    omega
  · -- a negative integer comes back through the sign bit
    cases signed
    · exact absurd ge hv
    · have ge' : -(2 ^ n) ≤ v := ge
      have hmod : v % 2 ^ (n + 1) = v + 2 ^ (n + 1) := by
        rw [← Int.add_emod_right]
        exact Int.emod_eq_of_lt (by omega) (by omega)
      have hnonneg : 0 ≤ v + 2 ^ (n + 1) := by omega
      have hsign : 2 ^ n ≤ (v + 2 ^ (n + 1)).toNat := by omega
      rw [hmod, signedNat, if_pos ⟨rfl, hsign⟩, Int.toNat_of_nonneg hnonneg, Int.add_sub_cancel]

/-- The bytes of an integer type hold as many bits as the type is wide. -/
theorem NumericType.bits_size {t : NumericType} {signed : Bool} {width : Nat}
    (h : t.integerWidth? = some (signed, width)) : 256 ^ t.size = 2 ^ width ∧ 0 < width := by
  cases t <;> cases h <;> exact ⟨rfl, by decide⟩

/-- The bounds of an integer type. -/
theorem NumericType.range?_eq_some_iff {t : NumericType} {low high : Int} :
    t.range? = some (low, high) ↔ ∃ signed width, t.integerWidth? = some (signed, width) ∧
      low = (if signed then -(2 ^ (width - 1)) else 0) ∧
      high = if signed then 2 ^ (width - 1) - 1 else 2 ^ width - 1 := by
  rw [NumericType.range?, Option.map_eq_some_iff]
  constructor
  · rintro ⟨⟨signed, width⟩, hwidth, hbounds⟩
    refine ⟨signed, width, hwidth, ?_⟩
    cases signed <;> cases hbounds <;> exact ⟨rfl, rfl⟩
  · rintro ⟨signed, width, hwidth, rfl, rfl⟩
    exact ⟨_, hwidth, by cases signed <;> rfl⟩

/-- The element in the bytes of an integer type. -/
theorem ofBytes_of_integerWidth {t : NumericType} {signed : Bool} {width : Nat}
    (h : t.integerWidth? = some (signed, width)) (b : Bytes) :
    Scalar.ofBytes t b = .integer (signedNat signed width (leNat b)) := by
  cases t <;> cases h <;> rfl

theorem leNat_leBytes_word32 (x : UInt32) : UInt32.ofNat (leNat (leBytes 4 x.toNat)) = x := by
  rw [leNat_leBytes, Nat.mod_eq_of_lt x.toNat_lt, UInt32.ofNat_toNat]

theorem leNat_leBytes_word64 (x : UInt64) : UInt64.ofNat (leNat (leBytes 8 x.toNat)) = x := by
  rw [leNat_leBytes, Nat.mod_eq_of_lt x.toNat_lt, UInt64.ofNat_toNat]

/-- **An element comes back from its bytes** as its type keeps it, if the type can hold it. -/
theorem ofBytes_toBytes?_of_fits {t : NumericType} {v : Scalar} (h : v.Fits t) :
    ∃ b, Scalar.toBytes? t v = some b ∧ Scalar.ofBytes t b = v.roundedTo t := by
  cases v with
  | integer v =>
    obtain ⟨low, high, range, ge, le⟩ := h
    obtain ⟨signed, width, hwidth, rfl, rfl⟩ := NumericType.range?_eq_some_iff.mp range
    obtain ⟨hbits, hpos⟩ := NumericType.bits_size hwidth
    refine ⟨_, by rw [Scalar.toBytes?, hwidth]; rfl, ?_⟩
    have hpow : ((2 ^ width : Nat) : Int) = 2 ^ width := Int.natCast_pow 2 width
    have hmodulus : (0 : Int) < 2 ^ width := hpow ▸ Int.natCast_pos.mpr (Nat.two_pow_pos width)
    have hnonneg := Int.emod_nonneg v (Int.ne_of_gt hmodulus)
    have hlt : (v % 2 ^ width).toNat < 2 ^ width := by
      have hmod := Int.emod_lt_of_pos v hmodulus
      omega
    rw [ofBytes_of_integerWidth hwidth, leNat_leBytes, hbits, Nat.mod_eq_of_lt hlt,
      signedNat_mod hpos ge le, Scalar.roundedTo_integer]
  | real x =>
    rcases h with rfl | rfl
    · refine ⟨_, rfl, ?_⟩
      show Scalar.real (Real32.widen ⟨UInt32.ofNat (leNat (leBytes 4 x.narrow.bits.toNat))⟩) = _
      rw [leNat_leBytes_word32]
      rfl
    · refine ⟨_, rfl, ?_⟩
      show Scalar.real ⟨UInt64.ofNat (leNat (leBytes 8 x.bits.toNat))⟩ = _
      rw [leNat_leBytes_word64]
      rfl
  | complex re im =>
    rcases h with rfl | rfl
    · refine ⟨_, rfl, ?_⟩
      generalize hre : re.narrow = re'
      generalize him : im.narrow = im'
      show Scalar.complex
        (Real32.widen
          ⟨.ofNat (leNat ((leBytes 4 re'.bits.toNat ++ leBytes 4 im'.bits.toNat).take 4))⟩)
        (Real32.widen
          ⟨.ofNat (leNat ((leBytes 4 re'.bits.toNat ++ leBytes 4 im'.bits.toNat).drop 4))⟩) = _
      rw [List.take_left' (length_leBytes ..), List.drop_left' (length_leBytes ..),
        leNat_leBytes_word32, leNat_leBytes_word32, ← hre, ← him]
      rfl
    · refine ⟨_, rfl, ?_⟩
      show Scalar.complex
        ⟨.ofNat (leNat ((leBytes 8 re.bits.toNat ++ leBytes 8 im.bits.toNat).take 8))⟩
        ⟨.ofNat (leNat ((leBytes 8 re.bits.toNat ++ leBytes 8 im.bits.toNat).drop 8))⟩ = _
      rw [List.take_left' (length_leBytes ..), List.drop_left' (length_leBytes ..),
        leNat_leBytes_word64, leNat_leBytes_word64]
      rfl

/-- A value of a type can be held by it, and the type keeps it as it is. -/
theorem Scalar.Native.kept {t : NumericType} {v : Scalar} (h : v.Native t) :
    v.Fits t ∧ v.roundedTo t = v := by
  cases h with
  | integer range ge le => exact ⟨⟨_, _, range, ge, le⟩, roundedTo_integer ..⟩
  | real64 => exact ⟨.inr rfl, rfl⟩
  | real32 x => exact ⟨.inl rfl, congrArg Scalar.real x.widen_narrow_widen⟩
  | complex64 => exact ⟨.inr rfl, rfl⟩
  | complex32 re im =>
    refine ⟨.inl rfl, ?_⟩
    rw [roundedTo, re.widen_narrow_widen, im.widen_narrow_widen]

/-- **A value comes back from its bytes.** -/
theorem ofBytes_toBytes? {t : NumericType} {v : Scalar} (h : v.Native t) :
    ∃ b, Scalar.toBytes? t v = some b ∧ Scalar.ofBytes t b = v := by
  obtain ⟨fits, rounded⟩ := h.kept
  obtain ⟨b, hb, hv⟩ := ofBytes_toBytes?_of_fits fits
  exact ⟨b, hb, hv.trans rounded⟩

/-! ## Places in storage -/

/-- Bytes put in place of as many others. -/
theorem getElem?_splice (data b : Bytes) {start : Nat} (hstart : start + b.length ≤ data.length)
    (n : Nat) : (data.take start ++ b ++ data.drop (start + b.length))[n]? =
      if start ≤ n ∧ n < start + b.length then b[n - start]? else data[n]? := by
  have htake : (data.take start).length = start := List.length_take_of_le (by omega)
  have hlength : (data.take start ++ b).length = start + b.length := by
    rw [List.length_append, htake]
  by_cases hlow : n < start
  · rw [if_neg (by omega), List.getElem?_append_left (by omega), List.getElem?_append_left (by omega),
      List.getElem?_take_of_lt hlow]
  · by_cases hhigh : n < start + b.length
    · rw [if_pos (by omega), List.getElem?_append_left (by omega),
        List.getElem?_append_right (by omega), htake]
    · rw [if_neg (by omega), List.getElem?_append_right (by omega), hlength, List.getElem?_drop]
      congr 1
      omega

namespace Dense

/-- **An array whose storage agrees with its shape**: it has as many elements as the shape says, all
    of a type that elements can have, and their bytes and no others. -/
structure WellFormed (a : Dense) : Prop where
  typed : a.type ≠ .numeric .undefined
  counted : elementCount? a.dims = some a.length
  filled : a.data.length = a.length * a.stride
  addressable : a.length * a.stride < addressLimit

variable {a : Dense}

/-- An array of zeros is well formed, and it has the type and the shape that are asked for. -/
theorem wellFormed_create? {type : ElementType} {dims : List Int} (h : create? type dims = some a) :
    a.WellFormed ∧ a.type = type ∧ a.dims = dims ∧ a.shares = 0 := by
  rw [create?] at h
  split at h
  · cases h
  · next htyped =>
    split at h
    · cases h
    · next length hcount =>
      split at h
      · cases h
      · next size hsize =>
        rw [boundedMul?] at hsize
        split at hsize
        · next hlt =>
          obtain rfl := Option.some.inj hsize
          obtain rfl := Option.some.inj h
          exact ⟨⟨htyped, hcount, List.length_replicate, hlt⟩, rfl, rfl, rfl⟩
        · cases hsize

/-- There is an array of zeros exactly if the shape can be counted and its bytes can be addressed. -/
theorem create?_eq_some {type : ElementType} {dims : List Int} {length : Nat}
    (typed : type ≠ .numeric .undefined) (counted : elementCount? dims = some length)
    (addressable : length * type.storage.size < addressLimit) :
    create? type dims =
      some ⟨type, dims, length, List.replicate (length * type.storage.size) 0, 0⟩ := by
  simp only [create?, if_neg typed, counted, boundedMul?, if_pos addressable]

theorem WellFormed.of_shares (wf : a.WellFormed) (shares : Int) :
    WellFormed { a with shares := shares } := ⟨wf.typed, wf.counted, wf.filled, wf.addressable⟩

/-- The bytes of a place lie inside the storage. -/
theorem WellFormed.place_le (wf : a.WellFormed) {i : Nat} (hi : i < a.length) :
    i * a.stride + a.stride ≤ a.data.length := by
  rw [wf.filled, ← Nat.succ_mul]
  exact Nat.mul_le_mul_right _ hi

theorem getElem?_chunk (a : Dense) (i k : Nat) :
    (a.chunk i)[k]? = if k < a.stride then a.data[i * a.stride + k]? else none := by
  rw [chunk]
  by_cases hk : k < a.stride
  · rw [if_pos hk, List.getElem?_take_of_lt hk, List.getElem?_drop]
  · rw [if_neg hk, List.getElem?_take_eq_none (Nat.not_lt.mp hk)]

/-- The array after an element has been written whose bytes are given. -/
theorem set_eq {i : Nat} {v : Scalar} {b : Bytes} (hi : i < a.length)
    (hb : Scalar.toBytes? a.storage v = some b) : a.set i v =
      { a with data := a.data.take (i * a.stride) ++ b ++ a.data.drop (i * a.stride + b.length) } := by
  have hlength : b.length = a.stride := length_toBytes? hb
  rw [set, if_pos hi, hb, hlength, ← Nat.succ_mul]

/-- Writing keeps an array well formed, whatever is written. -/
theorem WellFormed.set (wf : a.WellFormed) (i : Nat) (v : Scalar) : (a.set i v).WellFormed := by
  by_cases hi : i < a.length
  · cases hb : Scalar.toBytes? a.storage v with
    | none =>
      have hsame : a.set i v = a := by rw [Dense.set, if_pos hi, hb]
      rw [hsame]
      exact wf
    | some b =>
      have hlength : b.length = a.stride := length_toBytes? hb
      have hplace := wf.place_le hi
      rw [set_eq hi hb]
      refine ⟨wf.typed, wf.counted, ?_, wf.addressable⟩
      show (a.data.take _ ++ b ++ a.data.drop _).length = a.length * a.stride
      rw [List.length_append, List.length_append, List.length_take, List.length_drop, ← wf.filled]
      omega
  · have hsame : a.set i v = a := by rw [Dense.set, if_neg hi]
    rw [hsame]
    exact wf

theorem WellFormed.overwrite (wf : a.WellFormed) (start : Nat) (values : List Scalar) :
    (a.overwrite start values).WellFormed := by
  induction values generalizing a start with
  | nil => exact wf
  | cons v rest ih => exact ih (wf.set start v) (start + 1)

/-- The bytes of a place after an element has been written. -/
theorem chunk_set (wf : a.WellFormed) {i : Nat} (hi : i < a.length) {v : Scalar} {b : Bytes}
    (hb : Scalar.toBytes? a.storage v = some b) (j : Nat) :
    (a.set i v).chunk j = if j = i then b else a.chunk j := by
  have hlength : b.length = a.stride := length_toBytes? hb
  have hplace : i * a.stride + b.length ≤ a.data.length := hlength ▸ wf.place_le hi
  apply List.ext_getElem?
  intro k
  rw [set_eq hi hb, getElem?_chunk]
  show (if k < a.stride then _ else none) = _
  by_cases hk : k < a.stride
  · rw [if_pos hk]
    refine (getElem?_splice a.data b hplace (j * a.stride + k)).trans ?_
    by_cases hj : j = i
    · subst hj
      rw [if_pos rfl, if_pos (by omega), Nat.add_sub_cancel_left]
    · -- the places of different elements do not overlap
      have hapart : ¬ (i * a.stride ≤ j * a.stride + k ∧
          j * a.stride + k < i * a.stride + b.length) := by
        rcases Nat.lt_or_gt_of_ne hj with hlt | hgt
        · have hle : (j + 1) * a.stride ≤ i * a.stride := Nat.mul_le_mul_right _ hlt
          rw [Nat.succ_mul] at hle
          omega
        · have hle : (i + 1) * a.stride ≤ j * a.stride := Nat.mul_le_mul_right _ hgt
          rw [Nat.succ_mul] at hle
          omega
      rw [if_neg hapart, if_neg hj, getElem?_chunk, if_pos hk]
  · rw [if_neg hk]
    split
    · exact (List.getElem?_eq_none (by omega)).symm
    · rw [getElem?_chunk, if_neg hk]

@[simp] theorem storage_set (a : Dense) (i : Nat) (v : Scalar) : (a.set i v).storage = a.storage := by
  rw [storage, type_set, storage]

/-- **Writing one element** changes that element only. -/
theorem get_set (wf : a.WellFormed) {i : Nat} (hi : i < a.length) {v : Scalar}
    (fits : v.Fits a.storage) (j : Nat) :
    (a.set i v).get j = if j = i then v.roundedTo a.storage else a.get j := by
  obtain ⟨b, hb, hv⟩ := ofBytes_toBytes?_of_fits fits
  rw [get, storage_set, chunk_set wf hi hb]
  split
  · exact hv
  · rfl

/-- **Writing elements one after the other** changes these elements only. -/
theorem get_overwrite (wf : a.WellFormed) {start : Nat} {values : List Scalar}
    (fits : ∀ v ∈ values, v.Fits a.storage) (hfits : start + values.length ≤ a.length) (j : Nat) :
    (a.overwrite start values).get j =
      if start ≤ j then ((values.map (·.roundedTo a.storage))[j - start]?).getD (a.get j)
      else a.get j := by
  induction values generalizing a start with
  | nil => simp [Dense.overwrite]
  | cons v rest ih =>
    rw [List.length_cons] at hfits
    have hi : start < a.length := by omega
    have hrest : start + 1 + rest.length ≤ (a.set start v).length := by
      rw [length_set]
      omega
    have fits' : ∀ u ∈ rest, u.Fits (a.set start v).storage := by
      intro u hu
      rw [storage_set]
      exact fits u (List.mem_cons_of_mem _ hu)
    rw [Dense.overwrite, ih (wf.set start v) fits' hrest, storage_set,
      get_set wf hi (fits v List.mem_cons_self), List.map_cons]
    rcases Nat.lt_trichotomy j start with hlt | rfl | hgt
    · rw [if_neg (by omega), if_neg (by omega), if_neg (by omega)]
    · rw [if_neg (by omega), if_pos rfl, if_pos (Nat.le_refl _), Nat.sub_self]
      rfl
    · have hnext : j - start = (j - (start + 1)) + 1 := by omega
      rw [if_pos (by omega), if_neg (by omega), if_pos (by omega), hnext, List.getElem?_cons_succ]

@[simp] theorem length_overwrite (a : Dense) (start : Nat) (values : List Scalar) :
    (a.overwrite start values).length = a.length := by
  induction values generalizing a start with
  | nil => rfl
  | cons v rest ih => rw [Dense.overwrite, ih, length_set]

@[simp] theorem type_overwrite (a : Dense) (start : Nat) (values : List Scalar) :
    (a.overwrite start values).type = a.type := by
  induction values generalizing a start with
  | nil => rfl
  | cons v rest ih => rw [Dense.overwrite, ih, type_set]

@[simp] theorem dims_overwrite (a : Dense) (start : Nat) (values : List Scalar) :
    (a.overwrite start values).dims = a.dims := by
  induction values generalizing a start with
  | nil => rfl
  | cons v rest ih => rw [Dense.overwrite, ih, dims_set]

@[simp] theorem shares_set (a : Dense) (i : Nat) (v : Scalar) : (a.set i v).shares = a.shares := by
  unfold Dense.set
  split
  · split <;> rfl
  · rfl

@[simp] theorem shares_overwrite (a : Dense) (start : Nat) (values : List Scalar) :
    (a.overwrite start values).shares = a.shares := by
  induction values generalizing a start with
  | nil => rfl
  | cons v rest ih => rw [Dense.overwrite, ih, shares_set]

/-- **An array shows what it has been filled with**, as its type keeps it. -/
theorem elements_overwrite_of_fits (wf : a.WellFormed) {values : List Scalar}
    (fits : ∀ v ∈ values, v.Fits a.storage) (hlength : values.length = a.length) :
    (a.overwrite 0 values).elements = values.map (·.roundedTo a.storage) := by
  apply List.ext_getElem
  · rw [length_elements, length_overwrite, List.length_map, hlength]
  · intro i hi hi'
    have hfits : 0 + values.length ≤ a.length := by omega
    have hget := get_overwrite wf fits hfits i
    rw [if_pos (Nat.zero_le i), Nat.sub_zero, List.getElem?_eq_getElem hi', Option.getD_some] at hget
    rw [← hget]
    simp [elements]

/-- Values of the type are kept as they are. -/
theorem elements_overwrite (wf : a.WellFormed) {values : List Scalar}
    (native : ∀ v ∈ values, v.Native a.storage) (hlength : values.length = a.length) :
    (a.overwrite 0 values).elements = values := by
  rw [elements_overwrite_of_fits wf (fun v hv => (native v hv).kept.1) hlength]
  exact (List.map_congr_left fun v hv => (native v hv).kept.2).trans (List.map_id values)

end Dense

end Marshal
