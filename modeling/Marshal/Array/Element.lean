import Marshal.Kind

/-!
# `Array.Element` — element types and conversion methods

A dense array belongs to one of two families. Tensors hold integers, reals or complex numbers;
numeric arrays hold any machine type. Both are stored in the same way, so an element type also names
the machine type that lies in memory (`ElementType.storage`).

## Contents

* `TensorType`, `NumericType` — the element types of the families, with the host's numbers;
* `ElementType` — an element type together with its family;
* `Method` — the ways to convert elements.
-/

namespace Marshal

-- powers of integers are those of core, whatever algebra is in scope
attribute [local instance (2000)] instPowNat

/-! ## Tensors -/

/-- The element type of a tensor, numbered like the kinds. -/
inductive TensorType
  | integer
  | real
  | complex
  deriving DecidableEq, Repr, Inhabited

namespace TensorType

def all : List TensorType := [integer, real, complex]

/-- The kind of one element. -/
def kind : TensorType → Kind
  | integer => .integer
  | real => .real
  | complex => .complex

/-- The host's number. -/
def code (t : TensorType) : Int := t.kind.code

/-- The element type with a given number. -/
def ofCode? (n : Int) : Option TensorType := all.find? (·.code == n)

@[simp] theorem ofCode?_code (t : TensorType) : ofCode? t.code = some t := by cases t <;> rfl

def name (t : TensorType) : String := t.kind.name

def ofName? (s : String) : Option TensorType := all.find? (·.name == s)

end TensorType

/-! ## Numeric arrays -/

/-- The element type of a numeric array. `undefined` is reported for handles that are no numeric
array; no array has it. -/
inductive NumericType
  | undefined
  | int8
  | uint8
  | int16
  | uint16
  | int32
  | uint32
  | int64
  | uint64
  | real32
  | real64
  | complex32
  | complex64
  deriving DecidableEq, Repr, Inhabited

namespace NumericType

/-- Every element type, in the order of the host's numbers. -/
def all : List NumericType :=
  [undefined, int8, uint8, int16, uint16, int32, uint32, int64, uint64, real32, real64, complex32,
    complex64]

/-- The host's number. -/
def code : NumericType → Int
  | undefined => 0
  | int8 => 1
  | uint8 => 2
  | int16 => 3
  | uint16 => 4
  | int32 => 5
  | uint32 => 6
  | int64 => 7
  | uint64 => 8
  | real32 => 9
  | real64 => 10
  | complex32 => 11
  | complex64 => 12

/-- The element type with a given number. -/
def ofCode? (n : Int) : Option NumericType := all.find? (·.code == n)

@[simp] theorem ofCode?_code (t : NumericType) : ofCode? t.code = some t := by cases t <;> rfl

def name : NumericType → String
  | undefined => "Undef"
  | int8 => "Bit8"
  | uint8 => "UBit8"
  | int16 => "Bit16"
  | uint16 => "UBit16"
  | int32 => "Bit32"
  | uint32 => "UBit32"
  | int64 => "Bit64"
  | uint64 => "UBit64"
  | real32 => "Real32"
  | real64 => "Real64"
  | complex32 => "ComplexReal32"
  | complex64 => "ComplexReal64"

def ofName? (s : String) : Option NumericType := all.find? (·.name == s)

/-- The bytes of one element. -/
def size : NumericType → Nat
  | undefined => 0
  | int8 | uint8 => 1
  | int16 | uint16 => 2
  | int32 | uint32 | real32 => 4
  | int64 | uint64 | real64 | complex32 => 8
  | complex64 => 16

/-- Only the undefined type takes no room. -/
theorem size_pos {t : NumericType} (h : t ≠ undefined) : 0 < t.size := by
  cases t <;> simp_all [size]

/-- The width in bits of an integer type, and whether it is signed. -/
def integerWidth? : NumericType → Option (Bool × Nat)
  | int8 => some (true, 8)
  | uint8 => some (false, 8)
  | int16 => some (true, 16)
  | uint16 => some (false, 16)
  | int32 => some (true, 32)
  | uint32 => some (false, 32)
  | int64 => some (true, 64)
  | uint64 => some (false, 64)
  | _ => none

/-- The least and the greatest value of an integer type. -/
def range? (t : NumericType) : Option (Int × Int) :=
  t.integerWidth?.map fun (signed, width) =>
    if signed then (-(2 ^ (width - 1)), 2 ^ (width - 1) - 1) else (0, 2 ^ width - 1)

/-- The types with a native element type of their own, which single precision complex numbers
lack. -/
def isNative : NumericType → Bool
  | undefined | complex32 => false
  | _ => true

end NumericType

/-! ## Both families -/

/-- The two families of dense arrays. They share their handles but not their element types. -/
inductive Family
  | tensor
  | numericArray
  deriving DecidableEq, Repr, Inhabited

/-- An element type of either family. -/
inductive ElementType
  | tensor (t : TensorType)
  | numeric (t : NumericType)
  deriving DecidableEq, Repr, Inhabited

namespace ElementType

def family : ElementType → Family
  | tensor _ => .tensor
  | numeric _ => .numericArray

/-- The host's number within the family. -/
def code : ElementType → Int
  | tensor t => t.code
  | numeric t => t.code

def name : ElementType → String
  | tensor t => t.name
  | numeric t => t.name

/-- The machine type of the elements in memory. -/
def storage : ElementType → NumericType
  | tensor .integer => .int64
  | tensor .real => .real64
  | tensor .complex => .complex64
  | numeric t => t

/-- The element type of a family with a given number. -/
def ofCode? (family : Family) (n : Int) : Option ElementType :=
  match family with
  | .tensor => (TensorType.ofCode? n).map .tensor
  | .numericArray => (NumericType.ofCode? n).map .numeric

end ElementType

/-! ## Conversion methods -/

/-- How elements are converted. `check` refuses what is not exactly representable, `coerce` cuts
fractions off, `round` rounds them, and `scale` first maps the unit interval onto the whole
range. -/
inductive Rule
  | check
  | coerce
  | round
  | scale
  deriving DecidableEq, Repr, Inhabited

/-- A conversion method: a rule, and whether values out of range are moved to the nearer bound
instead of being refused. -/
structure Method where
  rule : Rule
  clips : Bool
  deriving DecidableEq, Repr, Inhabited

namespace Method

/-- Every method, in the order of the host's numbers, which start at one. -/
def all : List Method :=
  [⟨.check, false⟩, ⟨.check, true⟩, ⟨.coerce, false⟩, ⟨.coerce, true⟩,
    ⟨.round, false⟩, ⟨.round, true⟩, ⟨.scale, false⟩, ⟨.scale, true⟩]

/-- The host's number. -/
def code (m : Method) : Int :=
  (match m.rule with
    | .check => 1
    | .coerce => 3
    | .round => 5
    | .scale => 7) + if m.clips then 1 else 0

/-- The method with a given number. -/
def ofCode? (n : Int) : Option Method := all.find? (·.code == n)

@[simp] theorem ofCode?_code (m : Method) : ofCode? m.code = some m := by
  rcases m with ⟨rule, clips⟩
  cases rule <;> cases clips <;> rfl

def name (m : Method) : String :=
  (if m.clips then "Clip" else "") ++
    match m.rule with
    | .check => "Check"
    | .coerce => "Coerce"
    | .round => "Round"
    | .scale => "Scale"

def ofName? (s : String) : Option Method := all.find? (·.name == s)

/-- Whether the method refuses what is not exactly representable. -/
def checks (m : Method) : Bool := m.rule == .check

end Method

end Marshal
