import Marshal.Proofs.Array.Storage

/-!
# `Proofs.Array.Words` — storage in whole words

Storage is allocated in words of eight bytes, so that elements of every type lie where the machine wants
them. The bytes of an array are the leading bytes of its words, and up to seven bytes of the last word are
left over. A byte with address `k` is byte `k % 8` of word `k / 8`, and putting a byte there changes nothing
else in memory. So bytes that are put into a range of the bytes in use are put into a list of bytes, and the
bytes that are left over stay as they are.

## Contents

* `wordBytes`, `memoryOf`, `poke`, `pokeAll` — words, and single bytes of words;
* `Block`, `Block.zeros`, `Block.put?` — words of which the leading bytes are in use;
* `Block.Holds` — blocks that hold the elements of an array;
* `Block.holds_zeros`, `Block.exists_holds`, `Block.Holds.put?` — new arrays, all arrays, and writing.
-/

namespace Marshal

open Marshal.Text

-- powers of integers are those of core, whatever algebra is in scope
attribute [local instance (2000)] instPowNat

/-! ## Bytes of words -/

/-- The bytes of a word, lowest first. -/
def wordBytes (w : UInt64) : Bytes := leBytes 8 w.toNat

/-- The word with byte number `k` replaced. -/
def setWordByte (w : UInt64) (k : Nat) (b : UInt8) : UInt64 :=
  UInt64.ofNat (leNat ((wordBytes w).set k b))

@[simp] theorem length_wordBytes (w : UInt64) : (wordBytes w).length = 8 := length_leBytes ..

@[simp] theorem wordBytes_setWordByte (w : UInt64) (k : Nat) (b : UInt8) :
    wordBytes (setWordByte w k b) = (wordBytes w).set k b := by
  have hlength : ((wordBytes w).set k b).length = 8 := by simp
  have hlt := leNat_lt ((wordBytes w).set k b)
  have hbytes := leBytes_leNat ((wordBytes w).set k b)
  rw [hlength] at hlt hbytes
  rw [wordBytes, setWordByte, UInt64.toNat_ofNat_of_lt' hlt, hbytes]

/-- The bytes of words in memory, one word after the other. -/
def memoryOf (words : List UInt64) : Bytes := words.flatMap wordBytes

theorem memoryOf_cons (w : UInt64) (rest : List UInt64) :
    memoryOf (w :: rest) = wordBytes w ++ memoryOf rest := List.flatMap_cons

@[simp] theorem length_memoryOf (words : List UInt64) :
    (memoryOf words).length = 8 * words.length := by
  induction words with
  | nil => rfl
  | cons w rest ih =>
    rw [memoryOf_cons, List.length_append, length_wordBytes, ih, List.length_cons]
    omega

/-- Replace the byte with address `k`. -/
def poke (words : List UInt64) (k : Nat) (b : UInt8) : List UInt64 :=
  words.modify (k / 8) (setWordByte · (k % 8) b)

@[simp] theorem length_poke (words : List UInt64) (k : Nat) (b : UInt8) :
    (poke words k b).length = words.length := List.length_modify ..

/-- **A byte is replaced in its word**, and nothing else in memory. -/
theorem memoryOf_poke (words : List UInt64) (k : Nat) (b : UInt8) :
    memoryOf (poke words k b) = (memoryOf words).set k b := by
  induction words generalizing k with
  | nil => simp [poke, memoryOf]
  | cons w rest ih =>
    rw [memoryOf_cons]
    by_cases hk : k < 8
    · have hfirst : k < (wordBytes w).length := by simpa using hk
      rw [poke, Nat.div_eq_of_lt hk, Nat.mod_eq_of_lt hk, List.modify_zero_cons, memoryOf_cons,
        wordBytes_setWordByte, List.set_append_left _ _ hfirst]
    · obtain ⟨j, rfl⟩ : ∃ j, k = j + 8 := ⟨k - 8, by omega⟩
      have hlater : (wordBytes w).length ≤ j + 8 := by simp
      have hword : poke (w :: rest) (j + 8) b = w :: poke rest j b := by
        rw [poke, poke, Nat.add_div_right j (by decide), Nat.add_mod_right, List.modify_succ_cons]
      rw [hword, memoryOf_cons, ih, List.set_append_right _ _ hlater, length_wordBytes,
        Nat.add_sub_cancel]

/-- Replace the bytes from address `start` on. -/
def pokeAll (words : List UInt64) (start : Nat) : Bytes → List UInt64
  | [] => words
  | b :: rest => pokeAll (poke words start b) (start + 1) rest

@[simp] theorem length_pokeAll (words : List UInt64) (start : Nat) (b : Bytes) :
    (pokeAll words start b).length = words.length := by
  induction b generalizing words start with
  | nil => rfl
  | cons x rest ih => rw [pokeAll, ih, length_poke]

/-- Bytes are put in place of as many others. -/
theorem memoryOf_pokeAll {words : List UInt64} {start : Nat} {b : Bytes}
    (h : start + b.length ≤ 8 * words.length) :
    memoryOf (pokeAll words start b) =
      (memoryOf words).take start ++ b ++ (memoryOf words).drop (start + b.length) := by
  induction b generalizing words start with
  | nil => simp [pokeAll]
  | cons x rest ih =>
    rw [List.length_cons] at h
    have hrest : start + 1 + rest.length ≤ 8 * (poke words start x).length := by
      rw [length_poke]
      omega
    have hin : start < (memoryOf words).length := by
      rw [length_memoryOf]
      omega
    have htaken : ((memoryOf words).take start ++ [x]).length = start + 1 := by
      rw [List.length_append, List.length_take_of_le (Nat.le_of_lt hin), List.length_singleton]
    have hset : (memoryOf words).set start x =
        ((memoryOf words).take start ++ [x]) ++ (memoryOf words).drop (start + 1) := by
      rw [List.set_eq_take_append_cons_drop, if_pos hin, List.append_assoc, List.singleton_append]
    have hdrop : start + 1 + rest.length = start + (rest.length + 1) := by omega
    rw [pokeAll, ih hrest, memoryOf_poke, List.drop_set_of_lt (by omega), hset,
      List.take_left' htaken, List.length_cons, hdrop, List.append_assoc _ [x], List.singleton_append]

/-! ## Blocks -/

/-- A block of storage: words, of which the first `size` bytes are in use. -/
structure Block where
  words : List UInt64
  size : Nat
  room : size ≤ 8 * words.length

namespace Block

/-- The bytes in use. -/
def bytes (m : Block) : Bytes := (memoryOf m.words).take m.size

/-- The bytes that are left over in the last word. -/
def padding (m : Block) : Bytes := (memoryOf m.words).drop m.size

@[simp] theorem length_bytes (m : Block) : m.bytes.length = m.size := by
  have hroom := m.room
  simp [bytes, hroom]

theorem bytes_append_padding (m : Block) : m.bytes ++ m.padding = memoryOf m.words :=
  List.take_append_drop ..

/-- A block of `size` bytes, all zero, in no more words than are needed. -/
def zeros (size : Nat) : Block where
  words := List.replicate ((size + 7) / 8) 0
  size := size
  room := by
    rw [List.length_replicate]
    omega

@[simp] theorem bytes_zeros (size : Nat) : (zeros size).bytes = List.replicate size 0 := by
  have hword : wordBytes 0 = List.replicate 8 0 := rfl
  have hsize : min size ((size + 7) / 8 * 8) = size := by omega
  rw [bytes, zeros, memoryOf, List.flatMap_replicate, hword, List.flatten_replicate_replicate,
    List.take_replicate, hsize]

/-- Put bytes in place of others from address `start` on. There is no result if one of the addresses is
not in use. -/
def put? (m : Block) (start : Nat) (b : Bytes) : Option Block :=
  if start + b.length ≤ m.size then
    some { m with
      words := pokeAll m.words start b
      room := by
        rw [length_pokeAll]
        exact m.room }
  else none

/-- **Bytes are put into a list of bytes.** If the range is in use there is a result, in as many words, and
neither the other bytes in use nor the bytes left over have changed. -/
theorem exists_put? {m : Block} {start : Nat} {b : Bytes} (h : start + b.length ≤ m.size) :
    ∃ m', m.put? start b = some m' ∧ m'.words.length = m.words.length ∧ m'.size = m.size ∧
      m'.bytes = m.bytes.take start ++ b ++ m.bytes.drop (start + b.length) ∧
      m'.padding = m.padding := by
  have hinUse : start + b.length ≤ m.bytes.length := by
    rw [length_bytes]
    exact h
  have hmemory : memoryOf (pokeAll m.words start b) =
      (m.bytes.take start ++ b ++ m.bytes.drop (start + b.length)) ++ m.padding := by
    rw [memoryOf_pokeAll (Nat.le_trans h m.room), ← bytes_append_padding,
      List.take_append_of_le_length (by omega), List.drop_append_of_le_length hinUse,
      List.append_assoc (_ ++ b)]
  have hlength : (m.bytes.take start ++ b ++ m.bytes.drop (start + b.length)).length = m.size := by
    rw [List.length_append, List.length_append, List.length_take, List.length_drop, length_bytes]
    omega
  refine ⟨_, if_pos h, length_pokeAll .., rfl, ?_, ?_⟩
  · rw [bytes, hmemory]
    exact List.take_left' hlength
  · rw [padding, hmemory]
    exact List.drop_left' hlength

/-! ## Blocks that hold arrays -/

/-- **A block that holds an array**: it has the words that the elements need and no others, and its bytes
in use are those of the elements. -/
structure Holds (m : Block) (a : Dense) : Prop where
  words : m.words.length = (a.length * a.stride + 7) / 8
  size : m.size = a.length * a.stride
  bytes : m.bytes = a.data

/-- A block of zeros holds a new array. -/
theorem holds_zeros {type : ElementType} {dims : List Int} {a : Dense}
    (created : Dense.create? type dims = some a) : (zeros (a.length * a.stride)).Holds a := by
  obtain ⟨wf, rfl, rfl, -⟩ := Dense.wellFormed_create? created
  rw [Dense.create?_eq_some wf.typed wf.counted wf.addressable] at created
  refine ⟨List.length_replicate, rfl, ?_⟩
  rw [bytes_zeros]
  exact congrArg Dense.data (Option.some.inj created)

/-- Every array can be held: its bytes are put over the zeros of a new one. -/
theorem exists_holds {a : Dense} (wf : a.WellFormed) : ∃ m : Block, m.Holds a := by
  have new := holds_zeros (Dense.create?_eq_some wf.typed wf.counted wf.addressable)
  have hsize : 0 + a.data.length ≤ (zeros (a.length * a.stride)).size := by
    rw [Nat.zero_add, wf.filled]
    exact Nat.le_refl _
  obtain ⟨m, -, words, size, bytes, -⟩ := exists_put? hsize
  refine ⟨m, words.trans new.words, size, ?_⟩
  rw [bytes, Nat.zero_add, wf.filled]
  simp [zeros]

/-- **Writing an element into a block.** The bytes of the element go to addresses in use, the block then
holds the array with the element replaced, and the bytes left over have not changed. -/
theorem Holds.put? {m : Block} {a : Dense} (holds : m.Holds a) (wf : a.WellFormed) {i : Nat}
    (hi : i < a.length) {v : Scalar} {b : Bytes} (hb : Scalar.toBytes? a.storage v = some b) :
    ∃ m', m.put? (i * a.stride) b = some m' ∧ m'.Holds (a.set i v) ∧ m'.padding = m.padding := by
  have hplace : i * a.stride + b.length ≤ m.size := by
    rw [length_toBytes? hb, holds.size, ← wf.filled]
    exact wf.place_le hi
  obtain ⟨m', put, words, size, bytes, padding⟩ := exists_put? hplace
  refine ⟨m', put, ?_, padding⟩
  rw [Dense.set_eq hi hb]
  exact ⟨words.trans holds.words, size.trans holds.size, by rw [bytes, holds.bytes]⟩

/-- An element is read from the block that holds the array. -/
theorem Holds.get_eq {m : Block} {a : Dense} (holds : m.Holds a) (i : Nat) :
    a.get i = Scalar.ofBytes a.storage ((m.bytes.drop (i * a.stride)).take a.stride) := by
  rw [holds.bytes]
  rfl

end Block

end Marshal
