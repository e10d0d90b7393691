import Marshal.Proofs.Array.Words
import Marshal.Proofs.Number.Representable

/-!
# `Proofs.Array.Writes` — storage is an array of elements

The place of an element is a range of bytes that belongs to it alone. Whatever is written as element `i`
goes to that range, which lies inside the storage, and a value that the type represents is read from there
again. An array is known once the bytes in all places are known, so writes to different places may change
places with each other, and a loop that writes every element once gives the same array whatever order it
goes in: the one that the loop in ascending order gives.

## Contents

* `Scalar.Represented` — the values that a machine type represents;
* `Dense.chunk_set_eq`, `Dense.WellFormed.eq_of_chunks` — a write and an array, place by place;
* `Dense.set_comm`, `Dense.setAll_perm` — writes in another order;
* `Dense.overwrite_eq_setAll`, `Dense.setAll_order` — loops;
* `Dense.StoresElements`, `storage_keeps_elements` — all of it.
-/

namespace Marshal

open Marshal.Number Marshal.Text

/-! ## The values that a machine type represents -/

/-- The values that a machine type represents: integers in range, all doubles, and of these, for the types
of single precision, the ones that some single is the same number as. -/
inductive Scalar.Represented : NumericType → Scalar → Prop
  | integer {t : NumericType} {low high v : Int} (range : t.range? = some (low, high))
    (ge : low ≤ v) (le : v ≤ high) : Represented t (.integer v)
  | real64 (x : Real64) : Represented .real64 (.real x)
  | real32 {x : Real64} (single : x.IsSingle) : Represented .real32 (.real x)
  | complex64 (re im : Real64) : Represented .complex64 (.complex re im)
  | complex32 {re im : Real64} (single : re.IsSingle) (single' : im.IsSingle) :
    Represented .complex32 (.complex re im)

/-- What a machine type represents are values of it. -/
theorem Scalar.Represented.native {t : NumericType} {v : Scalar} (h : v.Represented t) :
    v.Native t := by
  cases h with
  | integer range ge le => exact .integer range ge le
  | real64 x => exact .real64 x
  | real32 single =>
    obtain ⟨s, -, rfl⟩ := Real64.isSingle_iff.mp single
    exact .real32 s
  | complex64 re im => exact .complex64 re im
  | complex32 single single' =>
    obtain ⟨s, -, rfl⟩ := Real64.isSingle_iff.mp single
    obtain ⟨s', -, rfl⟩ := Real64.isSingle_iff.mp single'
    exact .complex32 s s'

namespace Dense

variable {a a' : Dense}

/-! ## Place by place -/

/-- The bytes of a place after a write, whatever is written and wherever. -/
theorem chunk_set_eq (wf : a.WellFormed) (i : Nat) (v : Scalar) (j : Nat) :
    (a.set i v).chunk j =
      if j = i ∧ i < a.length then (Scalar.toBytes? a.storage v).getD (a.chunk j) else a.chunk j := by
  by_cases hi : i < a.length
  · cases hb : Scalar.toBytes? a.storage v with
    | none =>
      have hsame : a.set i v = a := by rw [set, if_pos hi, hb]
      rw [hsame, Option.getD_none, ite_self]
    | some b =>
      rw [chunk_set wf hi hb, Option.getD_some]
      simp only [hi, and_true]
  · have hsame : a.set i v = a := by rw [set, if_neg hi]
    rw [hsame, if_neg (fun h => hi h.2)]

/-- A write changes no other element. -/
theorem get_set_of_ne (wf : a.WellFormed) (i : Nat) (v : Scalar) {j : Nat} (hj : j ≠ i) :
    (a.set i v).get j = a.get j := by
  rw [get, storage_set, chunk_set_eq wf, if_neg (fun h => hj h.1), get]

/-- A value that the type represents is read again. -/
theorem get_set_self (wf : a.WellFormed) {i : Nat} (hi : i < a.length) {v : Scalar}
    (represented : v.Represented a.storage) : (a.set i v).get i = v := by
  obtain ⟨fits, kept⟩ := represented.native.kept
  rw [get_set wf hi fits, if_pos rfl, kept]

/-- **An array is known once the bytes in all places are known**, besides its type, its shape and how many
share it. -/
theorem WellFormed.eq_of_chunks (wf : a.WellFormed) (wf' : a'.WellFormed) (type : a'.type = a.type)
    (dims : a'.dims = a.dims) (shares : a'.shares = a.shares)
    (chunks : ∀ j < a.length, a'.chunk j = a.chunk j) : a' = a := by
  have length : a'.length = a.length := by
    have hcount := wf'.counted
    rw [dims, wf.counted] at hcount
    exact (Option.some.inj hcount).symm
  have stride : a'.stride = a.stride := by rw [Dense.stride, storage, type, ← storage, ← Dense.stride]
  have data : a'.data = a.data := by
    apply List.ext_getElem?
    intro n
    by_cases hn : n < a.length * a.stride
    · -- every byte lies in one place
      have hpos : 0 < a.stride := Nat.pos_of_lt_mul_left hn
      have hplace := (Nat.div_lt_iff_lt_mul hpos).mpr hn
      have hbyte := congrArg (fun b : Bytes => b[n % a.stride]?) (chunks _ hplace)
      simpa only [getElem?_chunk, stride, if_pos (Nat.mod_lt n hpos), Nat.div_add_mod'] using hbyte
    · have hnone : a.data.length ≤ n := by
        rw [wf.filled]
        exact Nat.not_lt.mp hn
      have hnone' : a'.data.length ≤ n := by
        rw [wf'.filled, length, stride, ← wf.filled]
        exact hnone
      rw [List.getElem?_eq_none hnone, List.getElem?_eq_none hnone']
  cases a
  cases a'
  rw [mk.injEq]
  exact ⟨type, dims, length, data, shares⟩

/-- **Writes to different places** may change places with each other. -/
theorem set_comm (wf : a.WellFormed) {i j : Nat} (hij : i ≠ j) (v w : Scalar) :
    (a.set i v).set j w = (a.set j w).set i v := by
  have wfi := wf.set i v
  have wfj := wf.set j w
  apply WellFormed.eq_of_chunks (wfj.set i v) (wfi.set j w)
  · simp
  · simp
  · simp
  · intro k _
    rw [chunk_set_eq wfi, chunk_set_eq wf, chunk_set_eq wfj, chunk_set_eq wf]
    simp only [storage_set, length_set]
    by_cases hki : k = i
    · have hkj : ¬ (k = j ∧ j < a.length) := fun h => hij (hki.symm.trans h.1)
      simp only [if_neg hkj]
    · have hki' : ¬ (k = i ∧ i < a.length) := fun h => hki h.1
      simp only [if_neg hki']

/-! ## Loops -/

/-- Carry out writes one after the other, each with the number and the value of its element. -/
def setAll (a : Dense) : List (Nat × Scalar) → Dense
  | [] => a
  | w :: rest => (a.set w.1 w.2).setAll rest

/-- **Writes in another order** give the same array if no element is written twice. -/
theorem setAll_perm {writes writes' : List (Nat × Scalar)} (h : writes.Perm writes') :
    ∀ {a : Dense}, a.WellFormed → (writes.map Prod.fst).Nodup →
      a.setAll writes = a.setAll writes' := by
  induction h with
  | nil =>
    intro a _ _
    rfl
  | cons w _ ih =>
    intro a wf nodup
    exact ih (wf.set w.1 w.2) (List.nodup_cons.mp nodup).2
  | swap w u rest =>
    intro a wf nodup
    have hne : u.1 ≠ w.1 := by
      intro heq
      exact (List.nodup_cons.mp nodup).1 (heq ▸ List.mem_cons_self)
    rw [setAll, setAll, setAll, setAll, set_comm wf hne]
  | trans first _ ih ih' =>
    intro a wf nodup
    have nodup' := (first.map Prod.fst).nodup_iff.mp nodup
    exact (ih wf nodup).trans (ih' wf nodup')

/-- Elements written one after the other are writes in ascending order. -/
theorem overwrite_eq_setAll (a : Dense) (value : Nat → Scalar) (start count : Nat) :
    a.overwrite start ((List.range' start count).map value) =
      a.setAll ((List.range' start count).map fun i => (i, value i)) := by
  induction count generalizing a start with
  | zero => rfl
  | succ count ih =>
    rw [List.range'_succ, List.map_cons, List.map_cons, overwrite, setAll]
    exact ih (a.set start (value start)) (start + 1)

/-- **A loop over all elements** gives the same array in every order. -/
theorem setAll_order (wf : a.WellFormed) {order : List Nat} (each : order.Perm (List.range a.length))
    (value : Nat → Scalar) :
    a.setAll (order.map fun i => (i, value i)) = a.overwrite 0 ((List.range a.length).map value) := by
  have ascending := overwrite_eq_setAll a value 0 a.length
  have places : (order.map fun i => (i, value i)).map Prod.fst = order := by
    rw [List.map_map]
    exact List.map_id order
  rw [← List.range_eq_range'] at ascending
  rw [ascending]
  apply setAll_perm (each.map _) wf
  rw [places]
  exact each.nodup_iff.mpr List.nodup_range

/-! ## Storage as an array of elements -/

/-- **Storage that is an array of elements** of a machine type. -/
structure StoresElements (a : Dense) (t : NumericType) : Prop where
  /-- The range of bytes of an element lies inside the storage, which can be addressed. -/
  inside : ∀ i < a.length, i * t.size + t.size ≤ a.data.length ∧ a.data.length < addressLimit
  /-- Whatever is written with the shape of the type has as many bytes, and they go to that range. -/
  written : ∀ i < a.length, ∀ v b, Scalar.toBytes? t v = some b → b.length = t.size ∧
    (a.set i v).data = a.data.take (i * t.size) ++ b ++ a.data.drop (i * t.size + t.size)
  /-- Words hold the bytes. -/
  held : ∃ m : Block, m.Holds a
  /-- In words, the range is in use, and writing changes no byte that is left over in the last word. -/
  put : ∀ m : Block, m.Holds a → ∀ i < a.length, ∀ v b, Scalar.toBytes? t v = some b →
    ∃ m', m.put? (i * t.size) b = some m' ∧ m'.Holds (a.set i v) ∧ m'.padding = m.padding
  /-- An element is read from its range. -/
  read : ∀ m : Block, m.Holds a → ∀ i,
    a.get i = Scalar.ofBytes t ((m.bytes.drop (i * t.size)).take t.size)
  /-- What the type represents can be written and is read again. -/
  back : ∀ i < a.length, ∀ v : Scalar, v.Represented t →
    (∃ b, Scalar.toBytes? t v = some b) ∧ (a.set i v).get i = v
  /-- Writing changes no other element, whatever is written. -/
  others : ∀ i < a.length, ∀ v, ∀ j, j ≠ i → (a.set i v).get j = a.get j
  /-- A loop that writes every element once stores the intended ones whatever order it goes in, and it
  makes the array that the ascending loop makes. -/
  loop : ∀ (value : Nat → Scalar) (order : List Nat), order.Perm (List.range a.length) →
    (∀ i < a.length, (value i).Represented t) →
    (a.setAll (order.map fun i => (i, value i))).elements = (List.range a.length).map value ∧
      a.setAll (order.map fun i => (i, value i)) = a.overwrite 0 ((List.range a.length).map value)

end Dense

/-- **Storage keeps elements apart and as they are.** Take any array with elements of a machine type, in
any shape; a new one is well formed, and so is what writing makes of it. Whatever is written as element `i`
goes to bytes inside the storage, which in words are in use; a value that the type represents is read
again, and every other element reads as before. So a loop that writes every element stores exactly the
intended ones, in whatever order it goes. -/
theorem storage_keeps_elements {a : Dense} {t : NumericType} (wf : a.WellFormed)
    (typed : a.type = .numeric t) : a.StoresElements t := by
  obtain rfl : a.storage = t := by
    rw [Dense.storage, typed]
    rfl
  constructor
  case inside =>
    intro i hi
    refine ⟨wf.place_le hi, ?_⟩
    rw [wf.filled]
    exact wf.addressable
  case written =>
    intro i hi v b hb
    have hlength := length_toBytes? hb
    refine ⟨hlength, ?_⟩
    rw [Dense.set_eq hi hb, hlength]
    rfl
  case held => exact Block.exists_holds wf
  case put =>
    intro m holds i hi v b hb
    exact holds.put? wf hi hb
  case read =>
    intro m holds i
    exact holds.get_eq i
  case back =>
    intro i hi v represented
    obtain ⟨b, hb, -⟩ := ofBytes_toBytes? represented.native
    exact ⟨⟨b, hb⟩, Dense.get_set_self wf hi represented⟩
  case others =>
    intro i _ v j hj
    exact Dense.get_set_of_ne wf i v hj
  case loop =>
    intro value order each represented
    have same := Dense.setAll_order wf each value
    refine ⟨?_, same⟩
    rw [same]
    apply Dense.elements_overwrite wf
    · intro v hv
      obtain ⟨i, hi, rfl⟩ := List.mem_map.mp hv
      exact (represented i (List.mem_range.mp hi)).native
    · rw [List.length_map, List.length_range]

/-- An array of three singles, all zero. They take a word and a half. -/
def threeSingles : Dense := ⟨.numeric .real32, [3], 3, List.replicate 12 0, 0⟩

/-- A half more than one, an infinity and a negative zero. -/
def representedReals : Nat → Real64
  | 0 => ⟨0x3ff8000000000000⟩
  | 1 => ⟨0xfff0000000000000⟩
  | _ => ⟨0x8000000000000000⟩

/-- They are written into the array from the last to the first, and the bytes of the last one go to the
word that is only half in use. -/
theorem storage_keeps_elements_threeSingles :
    Dense.create? (.numeric .real32) [3] = some threeSingles ∧
    (threeSingles.setAll [(2, .real (representedReals 2)), (1, .real (representedReals 1)),
        (0, .real (representedReals 0))]).elements =
      [.real (representedReals 0), .real (representedReals 1), .real (representedReals 2)] ∧
    (∃ m m' : Block, m.Holds threeSingles ∧ m.words.length = 2 ∧
      m.put? 8 [0, 0, 0, 0x80] = some m' ∧
      m'.Holds (threeSingles.set 2 (.real (representedReals 2))) ∧ m'.padding = m.padding) := by
  have created : Dense.create? (.numeric .real32) [3] = some threeSingles := rfl
  have stores := storage_keeps_elements (t := .real32) (Dense.wellFormed_create? created).1 rfl
  have single : ∀ i, (representedReals i).IsSingle := by
    intro i
    match i with
    | 0 => exact Real64.isSingle_iff.mpr ⟨⟨0x3fc00000⟩, by decide +kernel, by decide +kernel⟩
    | 1 => exact Real64.isSingle_iff.mpr ⟨⟨0xff800000⟩, by decide +kernel, by decide +kernel⟩
    | _ + 2 =>
      show Real64.IsSingle ⟨0x8000000000000000⟩
      exact Real64.isSingle_iff.mpr ⟨⟨0x80000000⟩, by decide +kernel, by decide +kernel⟩
  have descending : [2, 1, 0].Perm (List.range threeSingles.length) := by decide
  obtain ⟨stored, -⟩ := stores.loop (fun i => .real (representedReals i)) [2, 1, 0] descending
    (fun i _ => .real32 (single i))
  obtain ⟨m, holds⟩ := stores.held
  have bytes : Scalar.toBytes? .real32 (.real (representedReals 2)) = some [0, 0, 0, 0x80] := by
    decide +kernel
  obtain ⟨m', put, holds', padding⟩ := stores.put m holds 2 (by decide) _ _ bytes
  exact ⟨created, stored, m, m', holds, holds.words, put, holds', padding⟩

end Marshal
