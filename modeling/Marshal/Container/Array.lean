import Marshal.Container.Basic

/-!
# `Container.Array` — containers of dense arrays

Tensors and numeric arrays behind a container: creation, shape, elements under a type that is
checked first, positions, writing and conversion. The handles of both families look alike, so the
type that the host reports is what tells whether the elements can be had under the type asked for.

## Contents

* `Session.tensorType?`, `Session.numericType`, `Session.rank`, `Session.dims`, `Session.length` —
  what the host reports;
* `Container.elements`, `Container.elementAt` — checked reading;
* `Act.newArray`, `Act.arrayOf`, `Container.write`, `Container.convert` — creation and change.
-/

namespace Marshal

/-- The kind of container for a family. -/
def Family.containerKind : Family → ContainerKind
  | .tensor => .tensor
  | .numericArray => .numericArray

namespace Session

/-! ## What the host reports -/

/-- The element type of a handle taken as a tensor. -/
def tensorType? (s : Session) (h : Handle) : Option TensorType :=
  TensorType.ofCode? (s.ask 0 (·.elementCode .tensor h))

/-- The element type of a handle taken as a numeric array. -/
def numericType (s : Session) (h : Handle) : NumericType :=
  (NumericType.ofCode? (s.ask 0 (·.elementCode .numericArray h))).getD .undefined

/-- The number of dimensions. -/
def rank (s : Session) (h : Handle) : Int := s.ask 0 (·.rank h)

/-- The dimensions; none for a handle that is no array. -/
def dims (s : Session) (h : Handle) : List Int := (s.ask none (·.dims? h)).getD []

/-- The number of elements. -/
def length (s : Session) (h : Handle) : Int := s.ask 0 (·.length h)

/-- Whether the host shows any storage, taking the handle as it reports it. -/
def hasData (s : Session) (family : Family) (h : Handle) : Bool :=
  match family with
  | .tensor =>
    match s.tensorType? h with
    | some t => (s.ask none (·.dataAs? (.tensor t) h)).isSome
    | none => false
  | .numericArray => (s.ask none (·.dataAs? (.numeric .undefined) h)).isSome

/-- Fail unless the host reports the element type that is asked for. -/
def checkType (s : Session) (type : ElementType) (h : Handle) : Except Fault Unit :=
  match type with
  | .tensor t =>
    let found := s.tensorType? h
    if found = some t then .ok () else .error (.tensorElement t found)
  | .numeric t =>
    let found := s.numericType h
    if found = t then .ok () else .error (.numericElement t found)

end Session

namespace Container

/-! ## Elements -/

/-- The elements under a type. The container may not be empty, the host has to report that type, and
it has to show storage unless there are no elements. -/
def elements (c : Container) (type : ElementType) (s : Session) : Except Fault (List Scalar) := do
  if c.isEmpty then throw (.emptyArray type.family)
  s.checkType type c.handle
  match s.ask none (·.dataAs? type c.handle) with
  | some elements => return elements
  | none => if s.length c.handle > 0 then throw (.noArrayData type.family) else return []

/-- The element at a position. -/
def elementAt (c : Container) (type : ElementType) (position : List Int) (s : Session) :
    Except Fault Scalar := do
  let elements ← c.elements type s
  let dims := s.dims c.handle
  match linearIndex dims position with
  | .ok offset => return elements.getD offset (.integer 0)
  | .error fault => throw (.position type.family fault position dims)

/-- The elements of a numeric array under its own type; there are none to show for anything else. -/
def ownElements? (c : Container) (s : Session) : Except Fault (Option (List Scalar)) :=
  match s.numericType c.handle with
  | .undefined => .ok none
  | type => (c.elements (.numeric type) s).map some

/-- Replace elements from number `start` on, as far as there are any. The result is how many
elements there are. -/
def write (c : Container) (type : ElementType) (start : Nat) (values : List Scalar) : Act Nat := do
  let elements ← Act.read (c.elements type)
  Act.order (·.overwriteArray c.handle start values)
  return elements.length

end Container

/-! ## Creation -/

/-- A new array of zeros, owned by the library. -/
def Act.newArray (type : ElementType) (dims : List Int) : Act Container := do
  match ← request none (·.newArray type dims) with
  | some h => return ⟨type.family.containerKind, .manual, h⟩
  | none => fail (.arrayCreation type dims)

/-- A new array with given elements. There have to be as many as the shape says; otherwise the array
is released again. -/
def Act.arrayOf (type : ElementType) (dims : List Int) (values : List Scalar) : Act Container := do
  let c ← newArray type dims
  let present ← read (c.elements type)
  if present.length ≠ values.length then
    c.release
    fail (.elementCount type.family values.length present.length)
  let _ ← c.write type 0 values
  return c

/-- The elements of a numeric array converted to another type, as a new array that the library
owns. -/
def Container.convert (c : Container) (target : NumericType) (method : Method)
    (tolerance : Number.Real64) : Act Container := do
  match ← Act.request none (·.convertArray c.handle target method tolerance) with
  | some h => return ⟨.numericArray, .manual, h⟩
  | none => Act.fail (.conversion target)

end Marshal
