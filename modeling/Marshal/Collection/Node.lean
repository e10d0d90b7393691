import Marshal.Session.Basic

/-!
# `Collection.Node` — reading collections node by node

A collection is read through references to its nodes, which are handles: from its first or last
node, and from each node to the next. A node has a kind, contents of that kind, and a name if it was
given one. Null refers to no node; it leads nowhere and holds nothing, as does a reference to a node
whose collection is gone. Reading never changes anything.

## Contents

* `Session.collectionLength`, `front`, `back`, `nextNode`, `nodes` — the order of the nodes;
* `Session.nodeName`, `nodeKind`, `nodePayload`, `nodeValue` — what a node holds.
-/

namespace Marshal.Session

open Marshal.Text

/-! ## Order -/

/-- The number of nodes of a collection; the empty container has none. -/
def collectionLength (s : Session) (list : Handle) : Int :=
  if list = Handle.null then 0 else s.ask 0 (·.collectionLength list)

/-- The first node of a collection. -/
def front (s : Session) (list : Handle) : Handle :=
  if list = Handle.null then Handle.null else s.ask Handle.null (·.firstNode list)

/-- The last node of a collection. -/
def back (s : Session) (list : Handle) : Handle :=
  if list = Handle.null then Handle.null else s.ask Handle.null (·.lastNode list)

/-- The node after a node. -/
def nextNode (s : Session) (n : Handle) : Handle :=
  if n = Handle.null then Handle.null else s.ask Handle.null (·.nextNode n)

/-- The nodes from one on, at most `count` of them. -/
def nodesFrom (s : Session) : (count : Nat) → Handle → List Handle
  | 0, _ => []
  | count + 1, n => if n = Handle.null then [] else n :: s.nodesFrom count (s.nextNode n)

/-- The nodes of a collection, front to back. There are as many as its length says. -/
def nodes (s : Session) (list : Handle) : List Handle :=
  s.nodesFrom (s.collectionLength list).toNat (s.front list)

/-! ## Contents -/

/-- The name of a node, if it has one. -/
def nodeName (s : Session) (n : Handle) : Option String :=
  if n = Handle.null then none
  else (s.ask none fun w => (w.node? n).bind (·.name)).map lossyString

/-- The kind of a node. A reference to no node has the erased kind. -/
def nodeKind (s : Session) (n : Handle) : Kind :=
  if n = Handle.null then .erased else s.ask .erased (·.nodeKind n)

/-- The contents of a node. -/
def nodePayload (s : Session) (n : Handle) : Except Fault Payload :=
  if n = Handle.null then .error .nullNode
  else
    match s.ask none (·.node? n) with
    | some node => .ok node.payload
    | none => .error .nodeData

/-- The value of a node, read at its kind. -/
def nodeValue (s : Session) (n : Handle) : Except Fault Value := do
  let payload ← s.nodePayload n
  match payload.valueAs? (s.nodeKind n) with
  | some v => return v
  | none => throw (.nodeWithoutValue (s.nodeKind n))

/-- Null holds nothing. -/
@[simp] theorem nodeValue_null (s : Session) : s.nodeValue Handle.null = .error .nullNode := rfl

end Marshal.Session
