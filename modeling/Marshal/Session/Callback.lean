import Marshal.Session.Basic

/-!
# `Session.Callback` — the host's callbacks as the table offers them

Besides what the library does with it, the callback table can be used directly. A callback that
produces something says by its status whether it succeeded, zero or one; if there is no place to put
the product it fails before doing anything. Without an installed table every such callback fails and
every question has a null answer.

## Contents

* `Session.produce` — callbacks that produce a handle;
* `NodeReport`, `Session.reportNode` — what the callbacks tell about a node;
* `ArrayReport`, `Session.reportArray` — what they tell about an array.
-/

namespace Marshal

open Marshal.Text

/-- The status of a callback. -/
def status (succeeded : Bool) : Int := if succeeded then 0 else 1

/-- Call back for something new. The handle is null when the callback fails. -/
def Session.produce (s : Session) (hasPlace : Bool) (action : Host → Option Handle × Host) :
    (Int × Handle) × Session :=
  if hasPlace then
    match s.request none action with
    | (some h, s) => ((status true, h), s)
    | (none, s) => ((status false, Handle.null), s)
  else ((status false, Handle.null), s)

/-! ## Nodes -/

/-- What is told about a node: whether its name and its contents could be asked for, the name, the
number of its kind, and whether there is a slot with its contents. -/
structure NodeReport where
  found : Bool
  name : Option Bytes
  kind : Int
  deriving DecidableEq, Repr

/-- Ask about a node. Without a place for the answers only the kind is told. -/
def Session.reportNode (s : Session) (hasPlace : Bool) (n : Handle) : NodeReport :=
  let node := if hasPlace then s.ask none (·.node? n) else none
  { found := node.isSome
    name := node.bind (·.name)
    kind := s.ask 0 fun w => (w.nodeKind n).code }

/-! ## Arrays -/

/-- What is told about an array: the number of its element type, its shape, its shares, and under
which types its storage is shown. -/
structure ArrayReport where
  type : Int
  rank : Int
  dims : Option (List Int)
  length : Int
  shares : Int
  data : List Bool
  deriving DecidableEq, Repr

/-- Ask about an array. Storage is shown for each element type of tensors, or once for numeric
arrays. -/
def Session.reportArray (s : Session) (family : Family) (h : Handle) : ArrayReport :=
  let types := match family with
    | .tensor => TensorType.all.map ElementType.tensor
    | .numericArray => [.numeric .undefined]
  { type := s.ask 0 (·.elementCode family h)
    rank := s.ask 0 (·.rank h)
    dims := s.ask none (·.dims? h)
    length := s.ask 0 (·.length h)
    shares := s.ask 0 (·.shareCount h)
    data := types.map fun type => (s.ask none (·.dataAs? type h)).isSome }

end Marshal
