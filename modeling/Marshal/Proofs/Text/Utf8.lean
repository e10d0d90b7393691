import Marshal.Text.Utf8

/-!
# `Proofs.Text.Utf8` — texts and their bytes

Writing a text as bytes and reading it back undo each other, in both directions: the strict reader
accepts exactly the bytes that writing produces. Everything is settled one character at a time. What a
first byte announces falls into four classes (`Leads`), one for each length of a character, and in each
class the number of the character and its bytes determine each other.

## Contents

* `tails_tail`, `tails_succ_char` — one tail byte, forwards and backwards;
* `Leads` — the classes of first bytes;
* `step_encodeChar`, `eq_encodeChar_of_step` — one character;
* `decode_eq_ok_iff`, `decodeLossy_encode` — texts;
* `infix_of_mem_decodeLossy` — what the lenient reader reads stands in the bytes;
* `bytesOf_eq_toByteArray`, `lossyString_bytesOf`, `hasNul_lossyString` — strings.
-/

namespace Marshal.Text

namespace Utf8

/-! ## Tail bytes -/

theorem toNat_ofNat {n : Nat} (h : n < 256) : (UInt8.ofNat n).toNat = n := by
  rw [UInt8.toNat_ofNat']
  omega

theorem toNat_tail (n : Nat) : (tail n).toNat = 0x80 + n % 0x40 := toNat_ofNat (by omega)

/-- A byte in the range of tail bytes is determined by the six bits that it carries. -/
theorem tail_of_range {b : UInt8} {n : Nat} (low : 0x80 ≤ b.toNat) (high : b.toNat ≤ 0xBF)
    (bits : n % 0x40 = b.toNat % 0x40) : tail n = b := by
  apply UInt8.toNat_inj.mp
  rw [toNat_tail]
  omega

/-- A tail byte in range adds its six bits to what has been read. -/
theorem tails_tail {count seen low high acc n : Nat} (rest : Bytes)
    (hlow : low ≤ 0x80 + n % 0x40) (hhigh : 0x80 + n % 0x40 ≤ high) :
    tails (count + 1) seen low high acc (tail n :: rest) =
      tails count (seen + 1) 0x80 0xBF (acc * 0x40 + n % 0x40) rest := by
  have bits : (0x80 + n % 0x40) % 0x40 = n % 0x40 := by omega
  rw [tails, toNat_tail, if_pos ⟨hlow, hhigh⟩, bits]

theorem tails_zero_char {seen low high acc : Nat} {b rest : Bytes} {c : Char}
    (h : tails 0 seen low high acc b = .char c rest) : c = Char.ofNat acc ∧ b = rest := by
  rw [tails] at h
  injection h with hc hb
  exact ⟨hc.symm, hb⟩

/-- A character that needs one more tail byte has it at the front, and in range. -/
theorem tails_succ_char {count seen low high acc : Nat} {b rest : Bytes} {c : Char}
    (h : tails (count + 1) seen low high acc b = .char c rest) :
    ∃ x more, b = x :: more ∧ low ≤ x.toNat ∧ x.toNat ≤ high ∧
      tails count (seen + 1) 0x80 0xBF (acc * 0x40 + x.toNat % 0x40) more = .char c rest := by
  cases b with
  | nil => cases h
  | cons x more =>
    rw [tails] at h
    split at h
    · next hrange => exact ⟨x, more, rfl, hrange.1, hrange.2, h⟩
    · cases h

/-! ## First bytes -/

/-- The first byte of a character of several bytes is a marker plus the upper bits. -/
inductive Leads : UInt8 → Lead → Prop
  | one {v : Nat} (bound : v < 0x80) : Leads (UInt8.ofNat v) ⟨0, 0, 0, v⟩
  | two {v : Nat} (long : 2 ≤ v) (bound : v < 0x20) :
      Leads (UInt8.ofNat (0xC0 + v)) ⟨1, 0x80, 0xBF, v⟩
  | three {v : Nat} (bound : v < 0x10) :
      Leads (UInt8.ofNat (0xE0 + v))
        ⟨2, if v = 0 then 0xA0 else 0x80, if v = 0xD then 0x9F else 0xBF, v⟩
  | four {v : Nat} (bound : v < 5) :
      Leads (UInt8.ofNat (0xF0 + v))
        ⟨3, if v = 0 then 0x90 else 0x80, if v = 4 then 0x8F else 0xBF, v⟩

/-- **First bytes fall into classes**, and each class has one announcement. -/
theorem leads_iff {b : UInt8} {lead : Lead} : leads b = some lead ↔ Leads b lead := by
  constructor
  · intro h
    obtain ⟨n, hn, rfl⟩ : ∃ n, n < 256 ∧ b = UInt8.ofNat n := ⟨b.toNat, b.toNat_lt, by simp⟩
    unfold leads at h
    rw [toNat_ofNat hn] at h
    by_cases one : n < 0x80
    · rw [if_pos one] at h
      obtain rfl := Option.some.inj h
      exact .one one
    -- a byte below a marker is in no class: it is a tail byte or would start an overlong character
    by_cases two : n < 0xE0
    · obtain ⟨v, rfl⟩ := Nat.exists_eq_add_of_le (show 0xC0 ≤ n by grind)
      have class2 := Leads.two (v := v)
      grind
    by_cases three : n < 0xF0
    · obtain ⟨v, rfl⟩ := Nat.exists_eq_add_of_le (show 0xE0 ≤ n by grind)
      have class3 := Leads.three (v := v)
      grind
    · obtain ⟨v, rfl⟩ := Nat.exists_eq_add_of_le (show 0xF0 ≤ n by grind)
      have class4 := Leads.four (v := v)
      grind
  · intro h
    cases h with
    | one bound =>
      rw [leads, toNat_ofNat (by omega)]
      grind
    | two long bound =>
      rw [leads, toNat_ofNat (by omega)]
      grind
    | three bound =>
      rw [leads, toNat_ofNat (by omega)]
      grind
    | four bound =>
      rw [leads, toNat_ofNat (by omega)]
      grind

/-- A step on bytes with a first byte of some class reads the tail bytes that the class announces. -/
theorem step_cons {x : UInt8} {count low high bits : Nat}
    (h : Leads x ⟨count, low, high, bits⟩) (rest : Bytes) :
    step (x :: rest) = tails count 1 low high bits rest := by
  simp only [step, leads_iff.mpr h]


/-! ## One character -/

/-- **Reading what has been written.** A character comes off the front of bytes that start with it. -/
theorem step_encodeChar (c : Char) (rest : Bytes) : step (encodeChar c ++ rest) = .char c rest := by
  have valid : c.toNat < 0xD800 ∨ (0xDFFF < c.toNat ∧ c.toNat < 0x110000) := c.valid
  have done : ∀ seen low high acc, acc = c.toNat →
      tails 0 seen low high acc rest = .char c rest := by
    intro seen low high acc hacc
    rw [tails, hacc, Char.ofNat_toNat]
  unfold encodeChar encodeNumber
  generalize c.toNat = n at *
  split
  · next short =>
    rw [List.singleton_append, step_cons (.one short)]
    exact done _ _ _ _ rfl
  split
  · next long bound =>
    have sum : n / 0x40 * 0x40 + n % 0x40 = n := by omega
    show step (_ :: tail n :: rest) = _
    rw [step_cons (.two (by omega) (by omega)), tails_tail rest (by omega) (by omega)]
    exact done _ _ _ _ sum
  split
  · next long bound =>
    -- the second byte is in range: the character is not overlong and no surrogate
    have low : (if n / 0x1000 = 0 then 0xA0 else 0x80) ≤ 0x80 + n / 0x40 % 0x40 := by
      split <;> omega
    have high : 0x80 + n / 0x40 % 0x40 ≤ if n / 0x1000 = 0xD then 0x9F else 0xBF := by
      split <;> omega
    have sum : (n / 0x1000 * 0x40 + n / 0x40 % 0x40) * 0x40 + n % 0x40 = n := by omega
    show step (_ :: tail (n / 0x40) :: tail n :: rest) = _
    rw [step_cons (.three (by omega)), tails_tail _ low high, tails_tail rest (by omega) (by omega)]
    exact done _ _ _ _ sum
  · next long =>
    -- the second byte is in range: the character is not overlong and not past the last one
    have low : (if n / 0x40000 = 0 then 0x90 else 0x80) ≤ 0x80 + n / 0x1000 % 0x40 := by
      split <;> omega
    have high : 0x80 + n / 0x1000 % 0x40 ≤ if n / 0x40000 = 4 then 0x8F else 0xBF := by
      split <;> omega
    have sum : ((n / 0x40000 * 0x40 + n / 0x1000 % 0x40) * 0x40 + n / 0x40 % 0x40) * 0x40 +
        n % 0x40 = n := by omega
    show step (_ :: tail (n / 0x1000) :: tail (n / 0x40) :: tail n :: rest) = _
    rw [step_cons (.four (by omega)), tails_tail _ low high, tails_tail _ (by omega) (by omega),
      tails_tail rest (by omega) (by omega)]
    exact done _ _ _ _ sum

/-- The bytes of the character with a given number. -/
theorem encodeChar_ofNat {n : Nat} (valid : n < 0xD800 ∨ (0xDFFF < n ∧ n < 0x110000)) :
    encodeChar (Char.ofNat n) = encodeNumber n := by
  have hvalid : n.isValidChar := valid
  have hnat : (Char.ofNat n).toNat = n := by
    rw [Char.ofNat, dif_pos hvalid]
    rfl
  rw [encodeChar, hnat]

/-- **Writing what has been read.** A character read off the front stands there in its own bytes. -/
theorem eq_encodeChar_of_step {b rest : Bytes} {c : Char} (h : step b = .char c rest) :
    b = encodeChar c ++ rest := by
  cases b with
  | nil => cases h
  | cons x more =>
    cases hx : leads x with
    | none =>
      simp only [step, hx] at h
      cases h
    | some lead =>
      have hlead := leads_iff.mp hx
      cases hlead with
      | @one v bound =>
        rw [step_cons (.one bound)] at h
        obtain ⟨rfl, rfl⟩ := tails_zero_char h
        rw [encodeChar_ofNat (by omega), encodeNumber, if_pos bound]
        rfl
      | @two v long bound =>
        rw [step_cons (.two long bound)] at h
        obtain ⟨y, more, rfl, hlow, hhigh, h⟩ := tails_succ_char h
        obtain ⟨rfl, rfl⟩ := tails_zero_char h
        have hv : (v * 0x40 + y.toNat % 0x40) / 0x40 = v := by omega
        have hy : tail (v * 0x40 + y.toNat % 0x40) = y := tail_of_range hlow hhigh (by omega)
        rw [encodeChar_ofNat (by omega), encodeNumber, if_neg (by omega), if_pos (by omega), hv, hy]
        rfl
      | @three v bound =>
        rw [step_cons (.three bound)] at h
        obtain ⟨y, more, rfl, hylow, hyhigh, h⟩ := tails_succ_char h
        obtain ⟨z, more, rfl, hzlow, hzhigh, h⟩ := tails_succ_char h
        obtain ⟨rfl, rfl⟩ := tails_zero_char h
        have hlow : 0x80 ≤ y.toNat ∧ (v = 0 → 0xA0 ≤ y.toNat) := by split at hylow <;> omega
        have hhigh : y.toNat ≤ 0xBF ∧ (v = 0xD → y.toNat ≤ 0x9F) := by split at hyhigh <;> omega
        generalize hn : (v * 0x40 + y.toNat % 0x40) * 0x40 + z.toNat % 0x40 = n
        have long : 0x800 ≤ n := by omega
        have valid : n < 0xD800 ∨ (0xDFFF < n ∧ n < 0x110000) := by omega
        have hv : n / 0x1000 = v := by omega
        have hy : tail (n / 0x40) = y := tail_of_range hlow.1 hhigh.1 (by omega)
        have hz : tail n = z := tail_of_range hzlow hzhigh (by omega)
        rw [encodeChar_ofNat valid, encodeNumber, if_neg (by omega), if_neg (by omega),
          if_pos (by omega), hv, hy, hz]
        rfl
      | @four v bound =>
        rw [step_cons (.four bound)] at h
        obtain ⟨y, more, rfl, hylow, hyhigh, h⟩ := tails_succ_char h
        obtain ⟨z, more, rfl, hzlow, hzhigh, h⟩ := tails_succ_char h
        obtain ⟨t, more, rfl, htlow, hthigh, h⟩ := tails_succ_char h
        obtain ⟨rfl, rfl⟩ := tails_zero_char h
        have hlow : 0x80 ≤ y.toNat ∧ (v = 0 → 0x90 ≤ y.toNat) := by split at hylow <;> omega
        have hhigh : y.toNat ≤ 0xBF ∧ (v = 4 → y.toNat ≤ 0x8F) := by split at hyhigh <;> omega
        generalize hn : ((v * 0x40 + y.toNat % 0x40) * 0x40 + z.toNat % 0x40) * 0x40 +
          t.toNat % 0x40 = n
        have long : 0x10000 ≤ n := by omega
        have valid : n < 0xD800 ∨ (0xDFFF < n ∧ n < 0x110000) := by omega
        have hv : n / 0x40000 = v := by omega
        have hy : tail (n / 0x1000) = y := tail_of_range hlow.1 hhigh.1 (by omega)
        have hz : tail (n / 0x40) = z := tail_of_range hzlow hzhigh (by omega)
        have ht : tail n = t := tail_of_range htlow hthigh (by omega)
        rw [encodeChar_ofNat valid, encodeNumber, if_neg (by omega), if_neg (by omega),
          if_neg (by omega), hv, hy, hz, ht]
        rfl

/-- These are the bytes that core gives a character. -/
theorem encodeChar_eq (c : Char) : encodeChar c = String.utf8EncodeChar c := by
  have valid : c.toNat < 0xD800 ∨ (0xDFFF < c.toNat ∧ c.toNat < 0x110000) := c.valid
  unfold encodeChar encodeNumber tail String.utf8EncodeChar
  rw [Char.toNat_val]
  generalize c.toNat = n at *
  grind

/-! ## Texts -/

/-- Reading tail bytes finds something, if only that they are cut off. -/
theorem tails_ne_done (count seen low high acc : Nat) (b : Bytes) :
    tails count seen low high acc b ≠ .done := by
  induction count generalizing seen low high acc b with
  | zero => simp [tails]
  | succ count ih =>
    cases b with
    | nil => simp [tails]
    | cons x rest =>
      rw [tails]
      split
      · exact ih _ _ _ _ _
      · simp

/-- Only no bytes at all have nothing at their front. -/
theorem eq_nil_of_step {b : Bytes} (h : step b = .done) : b = [] := by
  cases b with
  | nil => rfl
  | cons x rest =>
    rw [step] at h
    split at h
    · cases h
    · exact absurd h (tails_ne_done _ _ _ _ _ _)

/-- A text is read back from its bytes, wherever they stand. -/
theorem decodeFrom_encode (index : Nat) (s : List Char) : decodeFrom index (encode s) = .ok s := by
  induction s generalizing index with
  | nil =>
    rw [decodeFrom]
    rfl
  | cons c s ih =>
    have hstep := step_encodeChar c (encode s)
    rw [encode_cons, decodeFrom]
    split
    · next h => cases hstep.symm.trans h
    · next h =>
      obtain ⟨rfl, rfl⟩ := Step.char.inj (hstep.symm.trans h)
      rw [ih]
      rfl
    · next h => cases hstep.symm.trans h
    · next h => cases hstep.symm.trans h

/-- A text that is read from bytes has exactly these bytes. -/
theorem eq_encode_of_decodeFrom {index : Nat} {b : Bytes} {s : List Char}
    (h : decodeFrom index b = .ok s) : b = encode s := by
  fun_induction decodeFrom index b generalizing s with
  | case1 index b hstep =>
    obtain rfl := Except.ok.inj h
    exact eq_nil_of_step hstep
  | case2 index b c rest hstep _ ih =>
    cases hrest : decodeFrom (index + (b.length - rest.length)) rest with
    | error fault =>
      rw [hrest] at h
      cases h
    | ok s' =>
      rw [hrest] at h
      obtain rfl := Except.ok.inj h
      rw [encode_cons, ← ih hrest]
      exact eq_encodeChar_of_step hstep
  | case3 => cases h
  | case4 => cases h

/-- **Reading accepts exactly what writing produces.** -/
theorem decode_eq_ok_iff {b : Bytes} {s : List Char} : decode b = .ok s ↔ b = encode s := by
  constructor
  · exact eq_encode_of_decodeFrom
  · rintro rfl
    exact decodeFrom_encode 0 s

/-- The lenient reader replaces nothing in the bytes of a text. -/
theorem decodeLossy_encode (s : List Char) : decodeLossy (encode s) = s := by
  induction s with
  | nil =>
    rw [decodeLossy]
    rfl
  | cons c s ih =>
    have hstep := step_encodeChar c (encode s)
    rw [encode_cons, decodeLossy]
    split
    · next h => cases hstep.symm.trans h
    · next h =>
      obtain ⟨rfl, rfl⟩ := Step.char.inj (hstep.symm.trans h)
      rw [ih]
    · next h => cases hstep.symm.trans h
    · next h => cases hstep.symm.trans h

/-! ## Texts read leniently -/

/-- What is left after tail bytes ends as they do. -/
theorem tails_rest_suffix {count seen low high acc : Nat} {b rest : Bytes}
    (h : (tails count seen low high acc b).rest = some rest) : rest <:+ b := by
  induction count generalizing seen low high acc b with
  | zero =>
    obtain rfl := Option.some.inj h
    exact List.suffix_refl _
  | succ count ih =>
    cases b with
    | nil => cases h
    | cons x more =>
      rw [tails] at h
      split at h
      · exact (ih h).trans (List.suffix_cons x more)
      · obtain rfl := Option.some.inj h
        exact List.suffix_refl _

/-- What a step leaves ends as the bytes do. -/
theorem step_rest_suffix {b rest : Bytes} (h : (step b).rest = some rest) : rest <:+ b := by
  cases b with
  | nil => cases h
  | cons x more =>
    rw [step] at h
    split at h
    · obtain rfl := Option.some.inj h
      exact List.suffix_cons x _
    · exact (tails_rest_suffix h).trans (List.suffix_cons x more)

/-- **What the lenient reader reads stands in the bytes**, but for the replacement character. -/
theorem infix_of_mem_decodeLossy {b : Bytes} {c : Char} (h : c ∈ decodeLossy b) :
    c = replacement ∨ encodeChar c <:+: b := by
  fun_induction decodeLossy b with
  | case1 => cases h
  | case2 b d rest hstep _ ih =>
    have hbytes := eq_encodeChar_of_step hstep
    rcases List.mem_cons.mp h with rfl | h
    · exact .inr (hbytes ▸ (List.prefix_append _ _).isInfix)
    · exact (ih h).imp id fun inside =>
        inside.trans (step_rest_suffix (congrArg Step.rest hstep)).isInfix
  | case3 b length rest hstep _ ih =>
    rcases List.mem_cons.mp h with rfl | h
    · exact .inl rfl
    · exact (ih h).imp id fun inside =>
        inside.trans (step_rest_suffix (congrArg Step.rest hstep)).isInfix
  | case4 => exact .inl (List.mem_singleton.mp h)

end Utf8

/-! ## Strings -/

/-- The bytes of a string are those in which core stores it. -/
theorem bytesOf_eq_toByteArray (s : String) : bytesOf s = s.toByteArray.data.toList := by
  have same : Utf8.encodeChar = String.utf8EncodeChar := funext Utf8.encodeChar_eq
  rw [bytesOf, Utf8.encode, ← String.utf8Encode_toList, List.utf8Encode, same]
  simp

@[simp] theorem length_bytesOf (s : String) : (bytesOf s).length = s.utf8ByteSize := by
  rw [bytesOf_eq_toByteArray]
  rfl

/-- The bytes of a string give it back. -/
@[simp] theorem lossyString_bytesOf (s : String) : lossyString (bytesOf s) = s := by
  rw [lossyString, bytesOf, Utf8.decodeLossy_encode, String.ofList_toList]

theorem decode_bytesOf (s : String) : Utf8.decode (bytesOf s) = .ok s.toList :=
  Utf8.decode_eq_ok_iff.mpr rfl

/-- Bytes that are read as a text are the bytes of the string. -/
theorem bytesOf_of_decode {b : Bytes} {s : List Char} (h : Utf8.decode b = .ok s) :
    bytesOf (String.ofList s) = b := by
  rw [bytesOf, String.toList_ofList, Utf8.decode_eq_ok_iff.mp h]

/-- **No NUL is read where there is no zero byte**, however faulty the bytes are. -/
theorem hasNul_lossyString {b : Bytes} (h : 0 ∉ b) : hasNul (lossyString b) = false := by
  rw [hasNul, lossyString, String.toList_ofList, List.any_eq_false]
  intro c mem hc
  obtain rfl : c = '\x00' := eq_of_beq hc
  rcases Utf8.infix_of_mem_decodeLossy mem with replaced | inside
  · exact absurd replaced (by decide)
  · exact h (inside.subset (List.mem_singleton.mpr rfl))

end Marshal.Text
