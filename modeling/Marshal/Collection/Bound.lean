import Marshal.Collection.Node
import Marshal.Container.Basic
import Marshal.Number.Shortest

/-!
# `Collection.Bound` — nodes bound to a type

A node can be bound to a type that says what its reader expects: a scalar of one kind, a handle
without storage, a view of an array or collection that the host keeps, or any value at all. Binding
fails for a node of another kind. A bound node carries its name and its value; it owns nothing.

## Contents

* `NodeType`, `NodeType.name`, `NodeType.accepts` — the types;
* `Bound`, `Session.bind` — bound nodes.
-/

namespace Marshal

/-- What a reader expects of a node. A view is constant or can be written to. -/
inductive NodeType
  | integer
  | real
  | boolean
  | text
  | complex
  | sparseArray
  | image
  | typed
  | view (kind : ContainerKind) (constant : Bool)
  deriving DecidableEq, Repr

namespace NodeType

/-- The name of a type, as it stands in messages. -/
def name : NodeType → String
  | integer => "i64"
  | real => "f64"
  | boolean => "bool"
  | text => "alloc::string::String"
  | complex => "hostlink_core::abi::MComplex"
  | sparseArray => "*mut hostlink_core::abi::SparseArrayStruct"
  | image => "*mut hostlink_core::abi::ImageStruct"
  | typed => "hostlink_core::value::TypedArgument"
  | view kind constant =>
    "hostlink::container::Container<hostlink_core::kind::" ++ kind.kind.name ++
      ", hostlink::passing::" ++ (if constant then "Constant" else "Automatic") ++ ">"

/-- The one kind that a type accepts; `typed` accepts every kind that has values. -/
def kind? : NodeType → Option Kind
  | integer => some .integer
  | real => some .real
  | boolean => some .boolean
  | text => some .text
  | complex => some .complex
  | sparseArray => some .sparseArray
  | image => some .image
  | typed => none
  | view kind _ => some kind.kind

/-- Whether nodes of a kind can be bound to the type. -/
def accepts (t : NodeType) (kind : Kind) : Bool :=
  match t.kind? with
  | some k => kind == k
  | none => kind != .erased

end NodeType

/-- What a bound node holds: a value, or a view that does not own its handle. -/
inductive BoundValue
  | value (v : Value)
  | view (c : Container)
  deriving DecidableEq, Repr

/-- A node bound to a type. -/
structure Bound where
  node : Handle
  name : Option String
  value : BoundValue
  deriving DecidableEq, Repr

/-- Slot contents as a type shows them: a scalar at its own kind, a view by its handle, and any
value at the kind that the node has. -/
def NodeType.read? (t : NodeType) (kind : Kind) (p : Payload) : Option BoundValue :=
  match t with
  | .view k constant =>
    let mode : Passing := if constant then .constant else .automatic
    some (.view ⟨k, mode, (p.readAs k.kind).handle⟩)
  | .typed => (p.valueAs? kind).map .value
  | t => t.kind?.map fun k => .value (p.readAs k).value

/-- Bind a node to a type. -/
def Session.bind (s : Session) (t : NodeType) (n : Handle) : Except Fault Bound := do
  if n = Handle.null then throw .nullNode
  let kind := s.nodeKind n
  unless t.accepts kind do throw (.nodeKind kind t.name)
  let payload ← s.nodePayload n
  match t.read? kind payload with
  | some value => return ⟨n, s.nodeName n, value⟩
  | none => throw (.nodeWithoutValue kind)

namespace Bound

/-- The kind of the node, read again. -/
def kind (b : Bound) (s : Session) : Kind := s.nodeKind b.node

/-- Whether another node follows. -/
def hasNext (b : Bound) (s : Session) : Bool := s.nextNode b.node ≠ Handle.null

/-- A bound node, split into its name and its value. -/
def parts (b : Bound) : Option String × BoundValue := (b.name, b.value)

/-- The next node, bound to a type of its own. -/
def next (b : Bound) (t : NodeType) (s : Session) : Except Fault Bound :=
  s.bind t (s.nextNode b.node)

/-- The name and the value of a node that holds a number, a truth value or a text, for messages. -/
def text? (b : Bound) : Option String :=
  let value := match b.value with
    | .value (.integer v) => some (toString v.toInt)
    | .value (.real x) => some x.text
    | .value (.boolean v) => some (toString v)
    | .value (.text s) => some (Text.quoted s)
    | _ => none
  let name := match b.name with
    | some name => "Some(" ++ Text.quoted name ++ ")"
    | none => "None"
  value.map fun value => "DataNode \x7b name: " ++ name ++ ", value: " ++ value ++ " \x7d"

end Bound

end Marshal
