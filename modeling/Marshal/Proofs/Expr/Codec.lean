import Marshal.Expr.Codec
import Marshal.Proofs.Text.Utf8

/-!
# `Proofs.Expr.Codec` — expressions and their bytes

A reader is exact if it finds a thing at the front of bytes precisely when the bytes of that thing
stand there. Readers of numbers and texts are exact, an exact reader makes an exact reader of
sequences, and so, by induction on the depth, the reader of expressions is exact. What memory cannot
hold is left out (`Expr.Storable`): a count takes eight bytes, so nothing longer can be announced.

The depth is only a measure of the recursion. An expression is not nested more deeply than it has
bytes, so no depth that exceeds the number of bytes cuts a reading off, and a count never makes the
reader go on after the bytes have ended.

## Contents

* `readNumber_eq_ok_iff`, `readText_eq_ok_iff`, `readMany_eq_ok_iff` — the exact readers of parts;
* `Storable`, `height` — what memory can hold, and how deeply it is nested;
* `decodeFrom_eq_ok_iff`, `decodeFrom_congr` — one expression, and the depth;
* `decode_eq_ok_iff`, `encode_append_inj` — whole inputs, and prefixes;
* `Shortfall`, `decodeFrom_of_shortfall` — counts that announce too much;
* `decode_canonical` — all of it.
-/

namespace Marshal

open Marshal.Number Marshal.Text

-- powers of integers are those of core, whatever algebra is in scope
attribute [local instance (2000)] instPowNat

/-! ## Readers -/

theorem bind_eq_ok {ε α β : Type} {x : Except ε α} {f : α → Except ε β} {b : β} :
    (x >>= f) = .ok b ↔ ∃ a, x = .ok a ∧ f a = .ok b := by
  cases x with
  | error e =>
    constructor
    · intro h
      cases h
    · rintro ⟨a, h, -⟩
      cases h
  | ok a =>
    constructor
    · intro h
      exact ⟨a, rfl, h⟩
    · rintro ⟨a', h, hf⟩
      obtain rfl := Except.ok.inj h
      exact hf

theorem pure_eq_ok {ε α : Type} {a b : α} : (pure a : Except ε α) = .ok b ↔ a = b :=
  ⟨Except.ok.inj, congrArg Except.ok⟩

theorem ok_bind {ε α β : Type} (a : α) (f : α → Except ε β) : (Except.ok a >>= f) = f a := rfl

theorem error_bind {ε α β : Type} (e : ε) (f : α → Except ε β) :
    ((Except.error e : Except ε α) >>= f) = .error e := rfl

/-- What comes after matters only for the values that there are. -/
theorem bind_congr_ok {ε α β : Type} {x : Except ε α} {f g : α → Except ε β}
    (h : ∀ a, x = .ok a → f a = g a) : (x >>= f) = (x >>= g) := by
  cases x with
  | error e => rfl
  | ok a => exact h a rfl

/-! ## Numbers -/

/-- A number stands at the front exactly if its bytes do. -/
theorem readNumber_eq_ok_iff {count n : Nat} {b rest : Bytes} :
    readNumber count b = .ok (n, rest) ↔ n < 256 ^ count ∧ b = leBytes count n ++ rest := by
  unfold readNumber
  constructor
  · intro h
    split at h
    · cases h
    · next enough =>
      obtain ⟨rfl, rfl⟩ := Prod.mk.inj (Except.ok.inj h)
      have hlen : (b.take count).length = count := by rw [List.length_take]; omega
      have bound := leNat_lt (b.take count)
      have bytes := leBytes_leNat (b.take count)
      rw [hlen] at bound bytes
      exact ⟨bound, by rw [bytes, List.take_append_drop]⟩
  · rintro ⟨bound, rfl⟩
    have hlen := length_leBytes count n
    have enough : ¬ (leBytes count n ++ rest).length < count := by
      rw [List.length_append, hlen]
      omega
    rw [if_neg enough, List.take_left' hlen, List.drop_left' hlen, leNat_leBytes,
      Nat.mod_eq_of_lt bound]

theorem readNumber_word32 {n : Nat} (bound : n < UInt32.size) (rest : Bytes) :
    readNumber 4 (word32 n ++ rest) = .ok (n, rest) := readNumber_eq_ok_iff.mpr ⟨bound, rfl⟩

theorem readNumber_word64 {n : Nat} (bound : n < UInt64.size) (rest : Bytes) :
    readNumber 8 (word64 n ++ rest) = .ok (n, rest) := readNumber_eq_ok_iff.mpr ⟨bound, rfl⟩

/-! ## Texts -/

/-- A text stands at the front exactly if its count and its bytes do. -/
theorem readText_eq_ok_iff {s : String} {b rest : Bytes} :
    readText b = .ok (s, rest) ↔
      s.utf8ByteSize < UInt64.size ∧ b = encodeText s ++ rest := by
  rw [← length_bytesOf]
  unfold readText
  rw [bind_eq_ok]
  constructor
  · rintro ⟨⟨count, b'⟩, hcount, h⟩
    obtain ⟨bound, rfl⟩ := readNumber_eq_ok_iff.mp hcount
    dsimp only at h
    split at h
    · cases h
    · next enough =>
      have hlen : (b'.take count).length = count := by rw [List.length_take]; omega
      split at h
      · next chars hchars =>
        obtain ⟨rfl, rfl⟩ := Prod.mk.inj (Except.ok.inj h)
        have hbytes : bytesOf (String.ofList chars) = b'.take count := bytesOf_of_decode hchars
        refine ⟨by rw [hbytes, hlen]; exact bound, ?_⟩
        dsimp only [encodeText, word64]
        rw [hbytes, hlen, List.append_assoc, List.take_append_drop]
      · cases h
  · rintro ⟨bound, rfl⟩
    refine ⟨((bytesOf s).length, bytesOf s ++ rest), ?_, ?_⟩
    · refine readNumber_eq_ok_iff.mpr ⟨bound, ?_⟩
      rw [encodeText, word64, List.append_assoc]
    · have enough : ¬ (bytesOf s ++ rest).length < (bytesOf s).length := by
        rw [List.length_append]
        omega
      dsimp only
      rw [if_neg enough, List.take_left, List.drop_left, decode_bytesOf]
      dsimp only
      rw [String.ofList_toList]
      rfl

theorem readText_encodeText {s : String} (bytes : s.utf8ByteSize < UInt64.size) (rest : Bytes) :
    readText (encodeText s ++ rest) = .ok (s, rest) := readText_eq_ok_iff.mpr ⟨bytes, rfl⟩

/-- A text that announces more bytes than there are is refused. -/
theorem readText_short {n : Nat} {rest : Bytes} (counted : n < UInt64.size)
    (short : rest.length < n) : readText (word64 n ++ rest) = .error .textPastEnd := by
  simp only [readText, readNumber_word64 counted, ok_bind, if_pos short]
  rfl

/-! ## Sequences -/

section Sequences

variable {α : Type} {read : Reader α} {fits : α → Prop} {bytes : α → Bytes}

/-- **A reader of one thing makes a reader of many.** If a thing stands at the front exactly if its
bytes do, then so do things one after the other. -/
theorem readMany_eq_ok_iff
    (hread : ∀ {x b rest}, read b = .ok (x, rest) ↔ fits x ∧ b = bytes x ++ rest)
    {count : Nat} {xs : List α} {b rest : Bytes} :
    readMany read count b = .ok (xs, rest) ↔
      xs.length = count ∧ (∀ x ∈ xs, fits x) ∧ b = xs.flatMap bytes ++ rest := by
  induction count generalizing xs b with
  | zero =>
    rw [readMany, List.length_eq_zero_iff]
    constructor
    · intro h
      obtain ⟨rfl, rfl⟩ := Prod.mk.inj (Except.ok.inj h)
      exact ⟨rfl, by simp, rfl⟩
    · rintro ⟨rfl, -, rfl⟩
      rfl
  | succ count ih =>
    rw [readMany, bind_eq_ok]
    constructor
    · rintro ⟨⟨x, b'⟩, hx, h⟩
      obtain ⟨⟨ys, b''⟩, hys, h⟩ := bind_eq_ok.mp h
      obtain ⟨rfl, rfl⟩ := Prod.mk.inj (Except.ok.inj h)
      obtain ⟨hfits, rfl⟩ := hread.mp hx
      obtain ⟨rfl, hall, rfl⟩ := ih.mp hys
      refine ⟨rfl, List.forall_mem_cons.mpr ⟨hfits, hall⟩, ?_⟩
      rw [List.flatMap_cons, List.append_assoc]
    · rintro ⟨hlen, hall, rfl⟩
      cases xs with
      | nil => cases hlen
      | cons x ys =>
        obtain ⟨hfits, hall⟩ := List.forall_mem_cons.mp hall
        refine ⟨(x, ys.flatMap bytes ++ rest), hread.mpr ⟨hfits, ?_⟩, ?_⟩
        · rw [List.flatMap_cons, List.append_assoc]
        · refine bind_eq_ok.mpr ⟨(ys, rest), ih.mpr ⟨Nat.succ.inj hlen, hall, rfl⟩, rfl⟩

/-- Readers that agree on short inputs agree on sequences in them. -/
theorem readMany_congr {read' : Reader α} {bound : Nat}
    (same : ∀ b, b.length < bound → read b = read' b)
    (shorter : ∀ {x b rest}, read b = .ok (x, rest) → rest.length ≤ b.length)
    (count : Nat) {b : Bytes} (hb : b.length < bound) :
    readMany read count b = readMany read' count b := by
  induction count generalizing b with
  | zero => rfl
  | succ count ih =>
    rw [readMany, readMany, ← same b hb]
    refine bind_congr_ok fun (x, b') hx => ?_
    have hlen := shorter hx
    dsimp only
    rw [ih (Nat.lt_of_le_of_lt hlen hb)]

end Sequences

namespace Expr

/-! ## Expressions -/

/-- What memory can hold: every text has less bytes, and every application less arguments, than eight
bytes can count. -/
inductive Storable : Expr → Prop
  | integer (v : Int64) : Storable (.integer v)
  | real (x : Real64) : Storable (.real x)
  | string {s : String} (bytes : s.utf8ByteSize < UInt64.size) : Storable (.string s)
  | symbol {s : String} (bytes : s.utf8ByteSize < UInt64.size) : Storable (.symbol s)
  | function {head : String} {args : List Expr} (bytes : head.utf8ByteSize < UInt64.size)
      (count : args.length < UInt64.size) (all : ∀ x ∈ args, Storable x) :
      Storable (.function head args)

mutual

/-- How deeply applications are nested, counting the expression itself. -/
def height : Expr → Nat
  | .function _ args => heightAll args + 1
  | _ => 1

/-- The largest height of the given expressions. -/
def heightAll : List Expr → Nat
  | [] => 0
  | x :: xs => max (height x) (heightAll xs)

end

theorem heightAll_le_iff {xs : List Expr} {depth : Nat} :
    heightAll xs ≤ depth ↔ ∀ x ∈ xs, x.height ≤ depth := by
  induction xs with
  | nil => simp [heightAll]
  | cons x xs ih => rw [heightAll, Nat.max_le, ih, List.forall_mem_cons]

theorem encodeAll_eq_flatMap (xs : List Expr) : encodeAll xs = xs.flatMap encode := by
  induction xs with
  | nil => rfl
  | cons x xs ih => rw [encodeAll, ih, List.flatMap_cons]

mutual

/-- Nesting takes bytes. -/
theorem height_le_length (e : Expr) : e.height ≤ e.encode.length := by
  cases e with
  | function head args =>
    have hargs := heightAll_le_length args
    simp only [height, encode, List.length_append, word32, length_leBytes]
    omega
  | integer | real | string | symbol =>
    simp only [height, encode, List.length_append, word32, length_leBytes]
    omega

theorem heightAll_le_length (xs : List Expr) : heightAll xs ≤ (encodeAll xs).length := by
  cases xs with
  | nil => simp [heightAll]
  | cons x xs =>
    have hx := height_le_length x
    have hxs := heightAll_le_length xs
    simp only [heightAll, encodeAll, List.length_append]
    omega

end

theorem height_pos (e : Expr) : 0 < e.height := by
  cases e <;> simp [height]

/-- An application is its head, its count and as many arguments. -/
theorem decodeFrom_function {depth n : Nat} {head : String} (bytes : head.utf8ByteSize < UInt64.size)
    (counted : n < UInt64.size) (b : Bytes) :
    decodeFrom (depth + 1) (word32 4 ++ (encodeText head ++ (word64 n ++ b))) =
      (readMany (decodeFrom depth) n b).map fun (args, rest) => (.function head args, rest) := by
  simp only [decodeFrom, readNumber_word32 (n := 4) (by decide),
    readText_encodeText bytes, readNumber_word64 counted, ok_bind]
  cases readMany (decodeFrom depth) n b <;> rfl

section Step

variable {depth : Nat} {e : Expr} {b rest : Bytes}
  (ih : ∀ {e : Expr} {b rest : Bytes}, decodeFrom depth b = .ok (e, rest) ↔
    (e.Storable ∧ e.height ≤ depth) ∧ b = e.encode ++ rest)

include ih

/-- What is read with one more depth stands there in its own bytes. -/
theorem of_decodeFrom_succ (h : decodeFrom (depth + 1) b = .ok (e, rest)) :
    (e.Storable ∧ e.height ≤ depth + 1) ∧ b = e.encode ++ rest := by
  rw [decodeFrom, bind_eq_ok] at h
  obtain ⟨⟨variant, b₁⟩, hvariant, h⟩ := h
  obtain ⟨-, rfl⟩ := readNumber_eq_ok_iff.mp hvariant
  dsimp only at h
  split at h
  · -- an integer
    simp only [bind_eq_ok, pure_eq_ok, Prod.exists, Prod.mk.injEq, readNumber_eq_ok_iff] at h
    obtain ⟨n, b₂, ⟨bound, rfl⟩, rfl, rfl⟩ := h
    refine ⟨⟨.integer _, Nat.succ_le_succ (Nat.zero_le _)⟩, ?_⟩
    rw [encode, UInt64.toUInt64_toInt64, UInt64.toNat_ofNat_of_lt' bound, List.append_assoc]
    rfl
  · -- a real
    simp only [bind_eq_ok, pure_eq_ok, Prod.exists, Prod.mk.injEq, readNumber_eq_ok_iff] at h
    obtain ⟨n, b₂, ⟨bound, rfl⟩, rfl, rfl⟩ := h
    refine ⟨⟨.real _, Nat.succ_le_succ (Nat.zero_le _)⟩, ?_⟩
    rw [encode, UInt64.toNat_ofNat_of_lt' bound, List.append_assoc]
    rfl
  · -- a string
    simp only [bind_eq_ok, pure_eq_ok, Prod.exists, Prod.mk.injEq, readText_eq_ok_iff] at h
    obtain ⟨s, b₂, ⟨bytes, rfl⟩, rfl, rfl⟩ := h
    refine ⟨⟨.string bytes, Nat.succ_le_succ (Nat.zero_le _)⟩, ?_⟩
    rw [encode, List.append_assoc]
    rfl
  · -- a symbol
    simp only [bind_eq_ok, pure_eq_ok, Prod.exists, Prod.mk.injEq, readText_eq_ok_iff] at h
    obtain ⟨s, b₂, ⟨bytes, rfl⟩, rfl, rfl⟩ := h
    refine ⟨⟨.symbol bytes, Nat.succ_le_succ (Nat.zero_le _)⟩, ?_⟩
    rw [encode, List.append_assoc]
    rfl
  · -- an application, whose arguments are read with the depth that is left
    simp only [bind_eq_ok, pure_eq_ok, Prod.exists, Prod.mk.injEq, readText_eq_ok_iff,
      readNumber_eq_ok_iff, readMany_eq_ok_iff ih] at h
    obtain ⟨head, b₂, ⟨bytes, rfl⟩, count, b₃, ⟨counted, rfl⟩, args, b₄, ⟨rfl, all, rfl⟩, rfl,
      rfl⟩ := h
    have hheight : heightAll args ≤ depth := heightAll_le_iff.mpr fun x hx => (all x hx).2
    refine ⟨⟨.function bytes counted fun x hx => (all x hx).1, Nat.succ_le_succ hheight⟩, ?_⟩
    simp only [encode, encodeAll_eq_flatMap, List.append_assoc]
    rfl
  · cases h

/-- The bytes of an expression are read as that expression with one more depth. -/
theorem decodeFrom_succ_encode (storable : e.Storable) (hheight : e.height ≤ depth + 1)
    (rest : Bytes) : decodeFrom (depth + 1) (e.encode ++ rest) = .ok (e, rest) := by
  cases storable with
  | integer v =>
    simp only [encode, List.append_assoc, decodeFrom, readNumber_word32 (n := 0) (by decide),
      readNumber_word64 v.toUInt64.toNat_lt, ok_bind, UInt64.ofNat_toNat, Int64.toInt64_toUInt64]
    rfl
  | real x =>
    simp only [encode, List.append_assoc, decodeFrom, readNumber_word32 (n := 1) (by decide),
      readNumber_word64 x.bits.toNat_lt, ok_bind, UInt64.ofNat_toNat]
    rfl
  | string bytes =>
    simp only [encode, List.append_assoc, decodeFrom, readNumber_word32 (n := 2) (by decide),
      readText_encodeText bytes, ok_bind]
    rfl
  | symbol bytes =>
    simp only [encode, List.append_assoc, decodeFrom, readNumber_word32 (n := 3) (by decide),
      readText_encodeText bytes, ok_bind]
    rfl
  | @function head args bytes counted all =>
    have hargs := heightAll_le_iff.mp (Nat.le_of_succ_le_succ hheight)
    have hread : readMany (decodeFrom depth) args.length (args.flatMap encode ++ rest) =
        .ok (args, rest) :=
      (readMany_eq_ok_iff ih).mpr ⟨rfl, fun x hx => ⟨all x hx, hargs x hx⟩, rfl⟩
    simp only [encode, encodeAll_eq_flatMap, List.append_assoc]
    rw [decodeFrom_function bytes counted, hread]
    rfl

end Step

/-- **One expression.** It stands at the front exactly if its bytes do, as far as the depth allows. -/
theorem decodeFrom_eq_ok_iff {depth : Nat} {e : Expr} {b rest : Bytes} :
    decodeFrom depth b = .ok (e, rest) ↔
      (e.Storable ∧ e.height ≤ depth) ∧ b = e.encode ++ rest := by
  induction depth generalizing e b rest with
  | zero =>
    constructor
    · intro h
      cases h
    · rintro ⟨⟨-, hheight⟩, -⟩
      exact absurd e.height_pos (Nat.not_lt_of_le hheight)
  | succ depth ih =>
    constructor
    · exact of_decodeFrom_succ ih
    · rintro ⟨⟨storable, hheight⟩, rfl⟩
      exact decodeFrom_succ_encode ih storable hheight rest

/-- What is left after an expression is not longer than what was there. -/
theorem length_rest_le {depth : Nat} {e : Expr} {b rest : Bytes}
    (h : decodeFrom depth b = .ok (e, rest)) : rest.length ≤ b.length := by
  obtain ⟨-, rfl⟩ := decodeFrom_eq_ok_iff.mp h
  rw [List.length_append]
  exact Nat.le_add_left _ _

/-- **The depth never cuts a reading off.** All depths that exceed the number of bytes give the same
result, be it an expression or a fault. -/
theorem decodeFrom_congr {depth depth' : Nat} {b : Bytes} (h : b.length < depth)
    (h' : b.length < depth') : decodeFrom depth b = decodeFrom depth' b := by
  induction depth generalizing depth' b with
  | zero => exact absurd h (Nat.not_lt_zero _)
  | succ depth ih =>
    cases depth' with
    | zero => exact absurd h' (Nat.not_lt_zero _)
    | succ depth' =>
      rw [decodeFrom, decodeFrom]
      refine bind_congr_ok fun (variant, b₁) hvariant => ?_
      obtain ⟨-, rfl⟩ := readNumber_eq_ok_iff.mp hvariant
      dsimp only
      split
      · rfl
      · rfl
      · rfl
      · rfl
      · -- only the arguments of an application are read with less depth, from less bytes
        refine bind_congr_ok fun (head, b₂) hhead => ?_
        obtain ⟨-, rfl⟩ := readText_eq_ok_iff.mp hhead
        refine bind_congr_ok fun (count, b₃) hcount => ?_
        obtain ⟨-, rfl⟩ := readNumber_eq_ok_iff.mp hcount
        simp only [List.length_append, length_leBytes] at h h'
        have hargs : readMany (decodeFrom depth) count b₃ = readMany (decodeFrom depth') count b₃ :=
          readMany_congr (fun b hb => ih (Nat.lt_of_lt_of_le hb (by omega)) (by omega))
            length_rest_le count (Nat.lt_succ_self _)
        dsimp only
        rw [hargs]
      · rfl

/-- **Reading accepts exactly what writing produces**, with anything after it. -/
theorem decode_eq_ok_iff {b : Bytes} {e : Expr} :
    decode b = .ok e ↔ e.Storable ∧ ∃ rest, b = e.encode ++ rest := by
  have hmap : decode b = .ok e ↔ ∃ rest, decodeFrom (b.length + 1) b = .ok (e, rest) := by
    unfold decode
    cases decodeFrom (b.length + 1) b with
    | error fault => simp [Except.map]
    | ok r => simp [Except.map, Prod.ext_iff]
  rw [hmap]
  constructor
  · rintro ⟨rest, h⟩
    obtain ⟨⟨storable, -⟩, hb⟩ := decodeFrom_eq_ok_iff.mp h
    exact ⟨storable, rest, hb⟩
  · rintro ⟨storable, rest, rfl⟩
    refine ⟨rest, decodeFrom_eq_ok_iff.mpr ⟨⟨storable, ?_⟩, rfl⟩⟩
    have hheight := e.height_le_length
    rw [List.length_append]
    omega

/-- An expression is read back, whatever follows it. -/
theorem decode_encode_append {e : Expr} (storable : e.Storable) (rest : Bytes) :
    decode (e.encode ++ rest) = .ok e := decode_eq_ok_iff.mpr ⟨storable, rest, rfl⟩

/-- An expression is read back. -/
theorem decode_encode {e : Expr} (storable : e.Storable) : decode e.encode = .ok e := by
  have hread := decode_encode_append storable []
  rwa [List.append_nil] at hread

/-- Bytes start with one expression at most. -/
theorem encode_append_inj {e e' : Expr} {rest rest' : Bytes} (storable : e.Storable)
    (storable' : e'.Storable) (h : e.encode ++ rest = e'.encode ++ rest') :
    e = e' ∧ rest = rest' := by
  have he := decode_encode_append storable rest
  rw [h, decode_encode_append storable' rest'] at he
  obtain rfl := Except.ok.inj he
  exact ⟨rfl, List.append_cancel_left h⟩

/-- No expression starts with the bytes of another one. -/
theorem eq_of_encode_isPrefix {e e' : Expr} (storable : e.Storable) (storable' : e'.Storable)
    (h : e.encode <+: e'.encode) : e = e' := by
  obtain ⟨rest, h⟩ := h
  have hrest : e.encode ++ rest = e'.encode ++ [] := by rw [h, List.append_nil]
  exact (encode_append_inj storable storable' hrest).1

/-! ## Announcements that are not kept -/

/-- Bytes in which a count announces more than follows it: more bytes of a text than there are, more
arguments than there are bytes for, or this within an argument. No expression takes less than twelve
bytes. -/
inductive Shortfall : Bytes → Prop
  | text {variant n : Nat} {rest : Bytes} (isText : variant = 2 ∨ variant = 3 ∨ variant = 4)
      (counted : n < UInt64.size) (short : rest.length < n) :
      Shortfall (word32 variant ++ (word64 n ++ rest))
  | args {head : String} {n : Nat} {rest : Bytes} (bytes : head.utf8ByteSize < UInt64.size)
      (counted : n < UInt64.size) (short : rest.length < 12 * n) :
      Shortfall (word32 4 ++ (encodeText head ++ (word64 n ++ rest)))
  | inside {head : String} {n : Nat} {xs : List Expr} {b : Bytes}
      (bytes : head.utf8ByteSize < UInt64.size) (counted : n < UInt64.size)
      (all : ∀ x ∈ xs, x.Storable) (fewer : xs.length < n) (inner : Shortfall b) :
      Shortfall (word32 4 ++ (encodeText head ++ (word64 n ++ (encodeAll xs ++ b))))

theorem length_encode_ge (e : Expr) : 12 ≤ e.encode.length := by
  cases e with
  | function head args =>
    simp only [encode, List.length_append, word32, word64, encodeText, length_leBytes]
    omega
  | integer | real | string | symbol =>
    simp only [encode, List.length_append, word32, word64, encodeText, length_leBytes]
    omega

theorem length_encodeAll_ge (xs : List Expr) : 12 * xs.length ≤ (encodeAll xs).length := by
  induction xs with
  | nil => simp [encodeAll]
  | cons x xs ih =>
    have hx := length_encode_ge x
    rw [encodeAll, List.length_append, List.length_cons]
    omega

/-- Expressions in front of bytes that cannot be read do not help. -/
theorem readMany_error {depth n : Nat} {xs : List Expr} {b : Bytes} (all : ∀ x ∈ xs, x.Storable)
    (fewer : xs.length < n) (inner : ∃ fault, decodeFrom depth b = .error fault) :
    ∃ fault, readMany (decodeFrom depth) n (encodeAll xs ++ b) = .error fault := by
  induction xs generalizing n with
  | nil =>
    obtain ⟨m, rfl⟩ := Nat.exists_eq_add_one_of_ne_zero (Nat.ne_zero_of_lt fewer)
    obtain ⟨fault, hfault⟩ := inner
    exact ⟨fault, by rw [encodeAll, List.nil_append, readMany, hfault, error_bind]⟩
  | cons x xs ih =>
    obtain ⟨m, rfl⟩ := Nat.exists_eq_add_one_of_ne_zero (Nat.ne_zero_of_lt fewer)
    obtain ⟨hx, hxs⟩ := List.forall_mem_cons.mp all
    rw [encodeAll, List.append_assoc, readMany]
    cases hread : decodeFrom depth (x.encode ++ (encodeAll xs ++ b)) with
    | error fault => exact ⟨fault, rfl⟩
    | ok r =>
      -- what has been read is `x`, so what is left is the rest of the expressions
      obtain ⟨y, rest⟩ := r
      obtain ⟨⟨hy, -⟩, heq⟩ := decodeFrom_eq_ok_iff.mp hread
      obtain ⟨rfl, rfl⟩ := encode_append_inj hx hy heq
      obtain ⟨fault, hfault⟩ := ih hxs (Nat.lt_of_succ_lt_succ fewer)
      exact ⟨fault, by simp only [ok_bind, hfault, error_bind]⟩

/-- **A shortfall is always found**, however deep it lies. -/
theorem decodeFrom_of_shortfall {b : Bytes} (h : Shortfall b) (depth : Nat) :
    ∃ fault, decodeFrom depth b = .error fault := by
  induction h generalizing depth with
  | @text variant n rest isText counted short =>
    cases depth with
    | zero => exact ⟨_, rfl⟩
    | succ depth =>
      have hvariant : readNumber 4 (word32 variant ++ (word64 n ++ rest)) =
          .ok (variant, word64 n ++ rest) := by
        refine readNumber_word32 ?_ _
        rcases isText with rfl | rfl | rfl <;> decide
      have htext := readText_short counted short
      refine ⟨.textPastEnd, ?_⟩
      rcases isText with rfl | rfl | rfl <;>
        simp only [decodeFrom, hvariant, htext, ok_bind, error_bind]
  | @args head n rest bytes counted short =>
    cases depth with
    | zero => exact ⟨_, rfl⟩
    | succ depth =>
      rw [decodeFrom_function bytes counted]
      cases hargs : readMany (decodeFrom depth) n rest with
      | error fault => exact ⟨fault, rfl⟩
      | ok r =>
        -- as many expressions take more bytes than there are
        obtain ⟨hlen, -, rfl⟩ := (readMany_eq_ok_iff decodeFrom_eq_ok_iff).mp hargs
        have hsize := length_encodeAll_ge r.1
        rw [← encodeAll_eq_flatMap, List.length_append] at short
        omega
  | inside bytes counted all fewer inner ih =>
    cases depth with
    | zero => exact ⟨_, rfl⟩
    | succ depth =>
      obtain ⟨fault, hfault⟩ := readMany_error all fewer (ih depth)
      refine ⟨fault, ?_⟩
      rw [decodeFrom_function bytes counted, hfault]
      rfl

/-! ## The codec -/

/-- **The codec is canonical and total.** Reading bytes gives an expression exactly if they are its
bytes with anything after them, and no depth of nesting cuts a reading off. So what has been written
is read back whatever follows it, different expressions have bytes of which none starts with the
other ones, and bytes that announce more than they hold are refused. -/
theorem decode_canonical :
    (∀ (b : Bytes) (e : Expr), decode b = .ok e ↔ e.Storable ∧ ∃ rest, b = e.encode ++ rest) ∧
    (∀ (b : Bytes) (depth : Nat), b.length < depth → (decodeFrom depth b).map (·.1) = decode b) ∧
    (∀ (e : Expr) (rest : Bytes), e.Storable → decode (e.encode ++ rest) = .ok e) ∧
    (∀ e e' : Expr, e.Storable → e'.Storable → e.encode <+: e'.encode → e = e') ∧
    (∀ b, Shortfall b → ∃ fault, decode b = .error fault) := by
  refine ⟨fun b e => decode_eq_ok_iff, ?_, fun e rest h => decode_encode_append h rest,
    fun e e' => eq_of_encode_isPrefix, ?_⟩
  · intro b depth h
    rw [decode, decodeFrom_congr h (Nat.lt_succ_self _)]
  · intro b h
    obtain ⟨fault, hfault⟩ := decodeFrom_of_shortfall h (b.length + 1)
    refine ⟨fault, ?_⟩
    rw [decode, hfault]
    rfl

/-- An application with a text of two bytes, a real that is no number and an application of its own is
read back in front of other bytes, and an application that announces as many arguments as eight bytes
can count is refused. -/
theorem decode_canonical_nested :
    (function "f" [string "é", real ⟨0x7ff8000000000001⟩, function "g" []]).Storable ∧
    decode ((function "f" [string "é", real ⟨0x7ff8000000000001⟩, function "g" []]).encode ++ [1, 2])
      = .ok (function "f" [string "é", real ⟨0x7ff8000000000001⟩, function "g" []]) ∧
    Shortfall (word32 4 ++ (encodeText "f" ++ (word64 (UInt64.size - 1) ++ [0, 0, 0, 0]))) ∧
    ∃ fault, decode (word32 4 ++ (encodeText "f" ++ (word64 (UInt64.size - 1) ++ [0, 0, 0, 0])))
      = .error fault := by
  have storable : (function "f" [string "é", real ⟨0x7ff8000000000001⟩, function "g" []]).Storable := by
    refine .function (by decide) (by decide) ?_
    simp only [List.forall_mem_cons]
    refine ⟨.string (by decide), .real _, .function (by decide) (by decide) ?_, ?_⟩ <;> simp
  have short : Shortfall (word32 4 ++ (encodeText "f" ++ (word64 (UInt64.size - 1) ++ [0, 0, 0, 0]))) :=
    .args (by decide) (by decide) (by decide)
  exact ⟨storable, decode_canonical.2.2.1 _ _ storable, short, decode_canonical.2.2.2.2 _ short⟩

end Expr

end Marshal
