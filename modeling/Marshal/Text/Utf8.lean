/-!
# `Text.Utf8` — characters and their bytes

Encoding of characters as UTF-8, a strict reader that names the first fault, and a lenient reader
that puts the replacement character in place of each faulty piece. The first byte of a character
decides how many bytes follow and the range of the second one; that one table (`leads`) drives both
readers. The bytes of a piece that breaks off are faulty together, so that a cut character is
replaced once.

## Contents

* `encodeChar`, `encode` — the bytes of a character and of a text;
* `Lead`, `leads` — what a first byte announces;
* `Step`, `step` — one character, or one faulty piece, off the front of a byte list;
* `decode`, `decodeLossy` — the strict and the lenient reader.
-/

namespace Marshal.Text

/-- A run of bytes. -/
abbrev Bytes := List UInt8

namespace Utf8

/-! ## Encoding -/

/-- A byte that carries six bits of a character after its first byte. -/
def tail (n : Nat) : UInt8 := UInt8.ofNat (0x80 + n % 0x40)

/-- The bytes of the character with number `n`, one to four of them. -/
def encodeNumber (n : Nat) : Bytes :=
  if n < 0x80 then [UInt8.ofNat n]
  else if n < 0x800 then [UInt8.ofNat (0xC0 + n / 0x40), tail n]
  else if n < 0x10000 then [UInt8.ofNat (0xE0 + n / 0x1000), tail (n / 0x40), tail n]
  else [UInt8.ofNat (0xF0 + n / 0x40000), tail (n / 0x1000), tail (n / 0x40), tail n]

/-- The bytes of a character. -/
def encodeChar (c : Char) : Bytes := encodeNumber c.toNat

/-- The bytes of a text. -/
def encode (s : List Char) : Bytes := s.flatMap encodeChar

@[simp] theorem encode_cons (c : Char) (s : List Char) :
    encode (c :: s) = encodeChar c ++ encode s := rfl

/-! ## What a first byte announces -/

/-- A first byte announces how many tail bytes follow, the range of the first of them, and the bits
that it carries itself. -/
structure Lead where
  tails : Nat
  low : Nat
  high : Nat
  bits : Nat
  deriving DecidableEq, Repr

/-- The announcement of a first byte, or `none` for a byte that starts no character. The narrower
ranges of the second byte keep out overlong forms, surrogates and numbers past the last
character. -/
def leads (b : UInt8) : Option Lead :=
  let n := b.toNat
  if n < 0x80 then some ⟨0, 0, 0, n⟩
  else if n < 0xC2 then none
  else if n < 0xE0 then some ⟨1, 0x80, 0xBF, n - 0xC0⟩
  else if n = 0xE0 then some ⟨2, 0xA0, 0xBF, 0⟩
  else if n = 0xED then some ⟨2, 0x80, 0x9F, 0xD⟩
  else if n < 0xF0 then some ⟨2, 0x80, 0xBF, n - 0xE0⟩
  else if n = 0xF0 then some ⟨3, 0x90, 0xBF, 0⟩
  else if n < 0xF4 then some ⟨3, 0x80, 0xBF, n - 0xF0⟩
  else if n = 0xF4 then some ⟨3, 0x80, 0x8F, 4⟩
  else none

/-! ## One step of a reader -/

/-- What stands at the front of a byte list: nothing, a character, a piece of `length` bytes that no
character starts with, or a character that the end of the bytes cuts off. -/
inductive Step
  | done
  | char (c : Char) (rest : Bytes)
  | invalid (length : Nat) (rest : Bytes)
  | cut
  deriving DecidableEq, Repr

/-- Collect `count` tail bytes, the next of them in `low … high`, onto `acc`; `seen` bytes of the
character are already read. -/
def tails : (count seen low high acc : Nat) → Bytes → Step
  | 0, _, _, _, acc, rest => .char (Char.ofNat acc) rest
  | _ + 1, _, _, _, _, [] => .cut
  | count + 1, seen, low, high, acc, b :: rest =>
    if low ≤ b.toNat ∧ b.toNat ≤ high then
      tails count (seen + 1) 0x80 0xBF (acc * 0x40 + b.toNat % 0x40) rest
    else .invalid seen (b :: rest)

/-- The front of a byte list. -/
def step : Bytes → Step
  | [] => .done
  | b :: rest =>
    match leads b with
    | none => .invalid 1 rest
    | some lead => tails lead.tails 1 lead.low lead.high lead.bits rest

/-- The bytes that a step leaves, if it goes on. -/
def Step.rest : Step → Option Bytes
  | .done => none
  | .char _ rest => some rest
  | .invalid _ rest => some rest
  | .cut => none

/-- Tail bytes are only consumed. -/
theorem tails_rest_le {count seen low high acc : Nat} {b rest : Bytes}
    (h : (tails count seen low high acc b).rest = some rest) : rest.length ≤ b.length := by
  induction count generalizing seen low high acc b with
  | zero =>
    simp only [tails, Step.rest, Option.some.injEq] at h
    exact Nat.le_of_eq (congrArg _ h.symm)
  | succ count ih =>
    cases b with
    | nil => simp [tails, Step.rest] at h
    | cons x b =>
      simp only [tails] at h
      split at h
      · exact Nat.le_succ_of_le (ih h)
      · simp only [Step.rest, Option.some.injEq] at h
        exact Nat.le_of_eq (congrArg _ h.symm)

/-- A step that goes on takes at least one byte off the front. -/
theorem step_rest_lt {b rest : Bytes} (h : (step b).rest = some rest) :
    rest.length < b.length := by
  cases b with
  | nil => simp [step, Step.rest] at h
  | cons x b =>
    simp only [step] at h
    split at h
    · simp only [Step.rest, Option.some.injEq] at h
      simp [h]
    · exact Nat.lt_succ_of_le (tails_rest_le h)

/-! ## The readers -/

/-- Why bytes are not a text: a piece of `length` bytes at `index` starts no character, or the bytes
end inside the character at `index`. -/
inductive Fault
  | invalid (length index : Nat)
  | incomplete (index : Nat)
  deriving DecidableEq, Repr

/-- The wording of a fault. -/
def Fault.message : Fault → String
  | .invalid length index =>
    "invalid utf-8 sequence of " ++ toString length ++ " bytes from index " ++ toString index
  | .incomplete index => "incomplete utf-8 byte sequence from index " ++ toString index

/-- The characters of `b`, or the first fault; `index` bytes stand before `b`. -/
def decodeFrom (index : Nat) (b : Bytes) : Except Fault (List Char) :=
  match h : step b with
  | .done => .ok []
  | .char c rest =>
    have := step_rest_lt (congrArg Step.rest h)
    (decodeFrom (index + (b.length - rest.length)) rest).map (c :: ·)
  | .invalid length _ => .error (.invalid length index)
  | .cut => .error (.incomplete index)
termination_by b.length

/-- The characters that the bytes encode, or the first fault. -/
def decode (b : Bytes) : Except Fault (List Char) := decodeFrom 0 b

/-- The replacement character. -/
def replacement : Char := Char.ofNat 0xFFFD

/-- The characters that the bytes encode, with the replacement character for each faulty piece. -/
def decodeLossy (b : Bytes) : List Char :=
  match h : step b with
  | .done => []
  | .char c rest =>
    have := step_rest_lt (congrArg Step.rest h)
    c :: decodeLossy rest
  | .invalid _ rest =>
    have := step_rest_lt (congrArg Step.rest h)
    replacement :: decodeLossy rest
  | .cut => [replacement]
termination_by b.length

end Utf8

/-- The bytes of a string. -/
def bytesOf (s : String) : Bytes := Utf8.encode s.toList

/-- The string that bytes encode, with the replacement character for each faulty piece. -/
def lossyString (b : Bytes) : String := String.ofList (Utf8.decodeLossy b)

/-- The text of bytes that are UTF-8. -/
def textOf? (b : Bytes) : Option String := (Utf8.decode b).toOption.map String.ofList

/-- Whether a text holds the character NUL, which ends a text for the host. -/
def hasNul (s : String) : Bool := s.toList.any (· == '\x00')

end Marshal.Text
