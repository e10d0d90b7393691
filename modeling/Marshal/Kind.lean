/-!
# `Kind` — the kinds of values that cross the boundary

Every call slot and every collection node has one of eleven kinds, numbered as the host numbers
them. Five kinds are held by value, five hold a handle whose lifetime has to be managed, and the
erased kind stands for a slot about which nothing is known.
-/

namespace Marshal

/-- The kind of a slot or node. `erased` has no value of its own. -/
inductive Kind
  | erased
  | boolean
  | integer
  | real
  | complex
  | tensor
  | sparseArray
  | numericArray
  | image
  | text
  | collection
  deriving DecidableEq, Repr, Inhabited

namespace Kind

/-- Every kind, in the order of the host's numbers. -/
def all : List Kind :=
  [erased, boolean, integer, real, complex, tensor, sparseArray, numericArray, image, text,
    collection]

/-- The host's number of a kind. -/
def code : Kind → Int
  | erased => 0
  | boolean => 1
  | integer => 2
  | real => 3
  | complex => 4
  | tensor => 5
  | sparseArray => 6
  | numericArray => 7
  | image => 8
  | text => 9
  | collection => 10

/-- The kind with a given number. -/
def ofCode? (n : Int) : Option Kind := all.find? (·.code == n)

/-- The name of a kind, as it stands in messages. -/
def name : Kind → String
  | erased => "MArgument"
  | boolean => "Boolean"
  | integer => "Integer"
  | real => "Real"
  | complex => "Complex"
  | tensor => "Tensor"
  | sparseArray => "SparseArray"
  | numericArray => "NumericArray"
  | image => "Image"
  | text => "UTF8String"
  | collection => "DataStore"

/-- The kind with a given name. -/
def ofName? (s : String) : Option Kind := all.find? (·.name == s)

/-- Whether a slot of this kind holds a handle with a lifetime to manage. -/
def isContainer : Kind → Bool
  | tensor | sparseArray | numericArray | image | collection => true
  | _ => false

/-- Whether a slot of this kind holds its value itself. -/
def isPrimitive : Kind → Bool
  | boolean | integer | real | complex | text => true
  | _ => false

/-- The kinds that a native type stands for by itself. Tensors and numeric arrays share one handle
type, so neither of them is among these. -/
def native : List Kind :=
  [boolean, integer, real, complex, sparseArray, image, text, collection]

end Kind

/-- The kinds of handles that a container can wrap. -/
inductive ContainerKind
  | tensor
  | numericArray
  | collection
  deriving DecidableEq, Repr, Inhabited

/-- The kind of a slot that holds such a handle. -/
def ContainerKind.kind : ContainerKind → Kind
  | tensor => .tensor
  | numericArray => .numericArray
  | collection => .collection

end Marshal
