import Marshal.Array.Scalar
import Marshal.Expr.Basic

/-!
# `Expr.Codec` — expressions as bytes

The wire format of expressions. An expression starts with its variant number in four bytes; numbers
take eight bytes, a text is its byte count in eight bytes and its UTF-8 bytes, and an application is
its head, its argument count in eight bytes and its arguments. All numbers stand lowest byte first.
Whatever follows the expression is ignored.

## Contents

* `Expr.encode` — the bytes of an expression;
* `DecodeFault` — why bytes are no expression;
* `readNumber`, `readText`, `readMany` — the parts of the format;
* `Expr.decodeFrom`, `Expr.decode` — an expression off the front of a byte list.
-/

namespace Marshal

open Marshal.Number Marshal.Text

/-! ## Encoding -/

/-- A number in four bytes. -/
def word32 (n : Nat) : Bytes := leBytes 4 n

/-- A number in eight bytes. -/
def word64 (n : Nat) : Bytes := leBytes 8 n

/-- The bytes of a text, after their count. -/
def encodeText (s : String) : Bytes :=
  let b := bytesOf s
  word64 b.length ++ b

namespace Expr

mutual

/-- The bytes of an expression. -/
def encode : Expr → Bytes
  | .integer v => word32 0 ++ word64 v.toUInt64.toNat
  | .real x => word32 1 ++ word64 x.bits.toNat
  | .string s => word32 2 ++ encodeText s
  | .symbol s => word32 3 ++ encodeText s
  | .function head args => word32 4 ++ encodeText head ++ word64 args.length ++ encodeAll args

/-- The bytes of expressions, one after the other. -/
def encodeAll : List Expr → Bytes
  | [] => []
  | x :: xs => encode x ++ encodeAll xs

end

end Expr

/-! ## Decoding -/

/-- Why bytes are no expression: they end inside a number, they end inside a text, a text is not
UTF-8, or a variant number is out of range. -/
inductive DecodeFault
  | endOfInput
  | textPastEnd
  | text (fault : Utf8.Fault)
  | variant (found : Nat)
  deriving DecidableEq, Repr

/-- The wording of a fault. -/
def DecodeFault.message : DecodeFault → String
  | .endOfInput => "io error: unexpected end of file"
  | .textPastEnd => "io error: "
  | .text fault => "string is not valid utf8: " ++ fault.message
  | .variant found =>
    "invalid value: integer \x60" ++ toString found ++ "\x60, expected variant index 0 <= i < 5"

/-- A reader takes something off the front of a byte list and returns what is left. -/
abbrev Reader (α : Type) := Bytes → Except DecodeFault (α × Bytes)

/-- A number of `count` bytes. -/
def readNumber (count : Nat) : Reader Nat := fun b =>
  if b.length < count then .error .endOfInput
  else .ok (leNat (b.take count), b.drop count)

/-- A text after its byte count. -/
def readText : Reader String := fun b => do
  let (count, b) ← readNumber 8 b
  if b.length < count then throw .textPastEnd
  match Utf8.decode (b.take count) with
  | .ok s => pure (String.ofList s, b.drop count)
  | .error fault => throw (.text fault)

/-- `count` things, one after the other. -/
def readMany {α : Type} (read : Reader α) : (count : Nat) → Reader (List α)
  | 0, b => .ok ([], b)
  | count + 1, b => do
    let (x, b) ← read b
    let (xs, b) ← readMany read count b
    pure (x :: xs, b)

namespace Expr

/-- An expression whose applications are nested less deeply than `depth`. Bytes that nest deeper
than they are long do not exist, so `depth` never cuts a reading off when it exceeds the byte
count. -/
def decodeFrom : (depth : Nat) → Reader Expr
  | 0, _ => .error .endOfInput
  | depth + 1, b => do
    let (variant, b) ← readNumber 4 b
    match variant with
    | 0 =>
      let (n, b) ← readNumber 8 b
      pure (.integer (UInt64.ofNat n).toInt64, b)
    | 1 =>
      let (n, b) ← readNumber 8 b
      pure (.real ⟨UInt64.ofNat n⟩, b)
    | 2 =>
      let (s, b) ← readText b
      pure (.string s, b)
    | 3 =>
      let (s, b) ← readText b
      pure (.symbol s, b)
    | 4 =>
      let (head, b) ← readText b
      let (count, b) ← readNumber 8 b
      let (args, b) ← readMany (decodeFrom depth) count b
      pure (.function head args, b)
    | n => throw (.variant n)

/-- The expression at the front of a byte list. -/
def decode (b : Bytes) : Except DecodeFault Expr := (decodeFrom (b.length + 1) b).map (·.1)

end Expr

/-! ## Errors about expressions -/

/-- What can be wrong with a received expression: its bytes, or its shape. -/
inductive ExprError
  | undecodable (fault : DecodeFault)
  | unexpectedShape (text : String)
  deriving DecidableEq, Repr

/-- The wording of an error. -/
def ExprError.message : ExprError → String
  | .undecodable fault => "Bincode error: " ++ fault.message
  | .unexpectedShape text => "Unexpected expression shape: " ++ text

/-- The wording of the cause of an error, if it has one. -/
def ExprError.cause? : ExprError → Option String
  | .undecodable fault => some fault.message
  | .unexpectedShape _ => none

end Marshal
