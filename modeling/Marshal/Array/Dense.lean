import Marshal.Array.Scalar
import Marshal.Array.Shape

/-!
# `Array.Dense` — dense arrays and their storage

A `Dense` array is a shape, an element type and the bytes of its elements in row-major order. Both
families are stored alike. The share count is the number of references that the host holds besides
its own.

## Contents

* `Dense`, `Dense.create?` — arrays of zeros;
* `Dense.get`, `Dense.set`, `Dense.elements`, `Dense.overwrite` — elements by number.
-/

namespace Marshal

open Marshal.Text

/-- A dense array. -/
structure Dense where
  type : ElementType
  dims : List Int
  length : Nat
  data : Bytes
  shares : Int
  deriving DecidableEq, Repr

namespace Dense

/-- The machine type of the elements. -/
def storage (a : Dense) : NumericType := a.type.storage

/-- The bytes of one element. -/
def stride (a : Dense) : Nat := a.storage.size

/-- The array of zeros with a given type and shape. There is none for the undefined type, for a
negative dimension, or for a size beyond the address space. -/
def create? (type : ElementType) (dims : List Int) : Option Dense :=
  if type = .numeric .undefined then none
  else
    match elementCount? dims with
    | none => none
    | some length =>
      match boundedMul? length type.storage.size with
      | none => none
      | some size => some ⟨type, dims, length, List.replicate size 0, 0⟩

/-- The bytes of the element with number `i`. -/
def chunk (a : Dense) (i : Nat) : Bytes := (a.data.drop (i * a.stride)).take a.stride

/-- The element with number `i`. -/
def get (a : Dense) (i : Nat) : Scalar := Scalar.ofBytes a.storage (a.chunk i)

/-- Every element in row-major order. -/
def elements (a : Dense) : List Scalar := (List.range a.length).map a.get

@[simp] theorem length_elements (a : Dense) : a.elements.length = a.length := by
  simp [elements]

/-- Replace the element with number `i`. Numbers past the end and elements of another shape change
nothing. -/
def set (a : Dense) (i : Nat) (v : Scalar) : Dense :=
  if i < a.length then
    match Scalar.toBytes? a.storage v with
    | some b =>
      { a with data := a.data.take (i * a.stride) ++ b ++ a.data.drop ((i + 1) * a.stride) }
    | none => a
  else a

/-- Replace the elements from number `start` on, as far as there are any. -/
def overwrite (a : Dense) (start : Nat) : List Scalar → Dense
  | [] => a
  | v :: rest => (a.set start v).overwrite (start + 1) rest

@[simp] theorem length_set (a : Dense) (i : Nat) (v : Scalar) : (a.set i v).length = a.length := by
  unfold set
  split
  · split <;> rfl
  · rfl

@[simp] theorem type_set (a : Dense) (i : Nat) (v : Scalar) : (a.set i v).type = a.type := by
  unfold set
  split
  · split <;> rfl
  · rfl

@[simp] theorem dims_set (a : Dense) (i : Nat) (v : Scalar) : (a.set i v).dims = a.dims := by
  unfold set
  split
  · split <;> rfl
  · rfl

/-- The array of zeros of the same type and shape as given, filled with elements. -/
def ofElements? (type : ElementType) (dims : List Int) (values : List Scalar) : Option Dense :=
  (create? type dims).map (·.overwrite 0 values)

end Dense

end Marshal
