import Marshal.Kind
import Marshal.Number.Binary
import Marshal.Text.Utf8

/-!
# `Value` — slot contents and the values read from them

A slot holds a `Payload`: a number, a pair of numbers, a text by its bytes (or none at all), or the
handle of something that the host owns. A `Value` is what a reader gets: a truth value instead of a
number that may be zero, characters instead of bytes.

## Contents

* `Handle` — names of things on the host's side;
* `Payload`, `Payload.kind`, `Payload.readAs` — slot contents;
* `Value`, `Payload.value`, `Value.payload` — the values, from and to slots.
-/

namespace Marshal

open Marshal.Number Marshal.Text

/-- The name of something that the host owns. Zero names nothing. -/
abbrev Handle := Nat

/-- The handle that names nothing. -/
def Handle.null : Handle := 0

/-! ## Slot contents -/

/-- The contents of a slot or node. A text is given by its bytes, or is missing. -/
inductive Payload
  | boolean (v : Int32)
  | integer (v : Int64)
  | real (x : Real64)
  | complex (re im : Real64)
  | text (bytes : Option Bytes)
  | tensor (h : Handle)
  | sparseArray (h : Handle)
  | numericArray (h : Handle)
  | image (h : Handle)
  | collection (h : Handle)
  deriving DecidableEq, Repr, Inhabited

namespace Payload

/-- The kind of slot that has these contents. -/
def kind : Payload → Kind
  | boolean _ => .boolean
  | integer _ => .integer
  | real _ => .real
  | complex .. => .complex
  | text _ => .text
  | tensor _ => .tensor
  | sparseArray _ => .sparseArray
  | numericArray _ => .numericArray
  | image _ => .image
  | collection _ => .collection

/-- The handle in the slot; null when the slot holds something else. -/
def handle : Payload → Handle
  | tensor h | sparseArray h | numericArray h | image h | collection h => h
  | _ => Handle.null

/-- The contents of a cleared slot. -/
def zero : Kind → Payload
  | .erased => .integer 0
  | .boolean => .boolean 0
  | .integer => .integer 0
  | .real => .real Real64.zero
  | .complex => .complex Real64.zero Real64.zero
  | .text => .text none
  | .tensor => .tensor Handle.null
  | .sparseArray => .sparseArray Handle.null
  | .numericArray => .numericArray Handle.null
  | .image => .image Handle.null
  | .collection => .collection Handle.null

/-- A handle as the contents of a slot. Only container kinds hold handles. -/
def ofHandle (k : Kind) (h : Handle) : Payload :=
  match k with
  | .tensor => .tensor h
  | .sparseArray => .sparseArray h
  | .numericArray => .numericArray h
  | .image => .image h
  | .collection => .collection h
  | k => zero k

/-- The contents as a slot of kind `k` shows them. Handles are all of one size, so a slot that holds
one shows it under every container kind; nothing else is carried over to another kind. -/
def readAs (k : Kind) (p : Payload) : Payload :=
  if p.kind = k then p
  else if k.isContainer ∧ p.kind.isContainer then ofHandle k p.handle
  else zero k

/-- At its own kind a slot shows what it holds. -/
@[simp] theorem readAs_kind (p : Payload) : p.readAs p.kind = p := by simp [readAs]

/-- No contents have the erased kind. -/
theorem kind_ne_erased (p : Payload) : p.kind ≠ .erased := by
  cases p <;> simp [kind]

/-- What a slot of a kind shows has that kind. -/
theorem kind_readAs (p : Payload) {k : Kind} (h : k ≠ .erased) : (p.readAs k).kind = k := by
  unfold readAs
  split
  · assumption
  · split
    · next hk => cases k <;> simp_all [ofHandle, kind, Kind.isContainer]
    · cases k <;> simp_all [zero, kind]

end Payload

/-! ## Values -/

/-- A value together with its kind. Handles are carried along without owning anything. -/
inductive Value
  | boolean (b : Bool)
  | integer (v : Int64)
  | real (x : Real64)
  | complex (re im : Real64)
  | text (s : String)
  | tensor (h : Handle)
  | sparseArray (h : Handle)
  | numericArray (h : Handle)
  | image (h : Handle)
  | collection (h : Handle)
  deriving DecidableEq, Repr, Inhabited

/-- The value of slot contents: a number that is not zero is true, a missing text is empty, and
bytes that are not UTF-8 are replaced. -/
def Payload.value : Payload → Value
  | boolean v => .boolean (v != 0)
  | integer v => .integer v
  | real x => .real x
  | complex re im => .complex re im
  | text none => .text ""
  | text (some b) => .text (lossyString b)
  | tensor h => .tensor h
  | sparseArray h => .sparseArray h
  | numericArray h => .numericArray h
  | image h => .image h
  | collection h => .collection h

/-- The value of a slot of kind `k`. The erased kind has no value. -/
def Payload.valueAs? (k : Kind) (p : Payload) : Option Value :=
  if k = .erased then none else some (p.readAs k).value

namespace Value

/-- The kind of a value. -/
def kind : Value → Kind
  | boolean _ => .boolean
  | integer _ => .integer
  | real _ => .real
  | complex .. => .complex
  | text _ => .text
  | tensor _ => .tensor
  | sparseArray _ => .sparseArray
  | numericArray _ => .numericArray
  | image _ => .image
  | collection _ => .collection

/-- The slot contents that carry a value. -/
def payload : Value → Payload
  | boolean b => .boolean (if b then 1 else 0)
  | integer v => .integer v
  | real x => .real x
  | complex re im => .complex re im
  | text s => .text (some (bytesOf s))
  | tensor h => .tensor h
  | sparseArray h => .sparseArray h
  | numericArray h => .numericArray h
  | image h => .image h
  | collection h => .collection h

/-- A value is carried by a slot of its kind. -/
@[simp] theorem kind_payload (v : Value) : v.payload.kind = v.kind := by cases v <;> rfl

def asInteger? : Value → Option Int64
  | integer v => some v
  | _ => none

def asReal? : Value → Option Real64
  | real x => some x
  | _ => none

def asBoolean? : Value → Option Bool
  | boolean b => some b
  | _ => none

def asText? : Value → Option String
  | text s => some s
  | _ => none

end Value

/-- Reading keeps the kind. -/
@[simp] theorem Payload.kind_value (p : Payload) : p.value.kind = p.kind := by
  cases p with
  | text s => cases s <;> rfl
  | _ => rfl

end Marshal
