import Marshal.Container.Basic

/-!
# `Collection.Insert` — new collections, and appending to them

Whatever is appended, the target is checked first: the list may not be empty and the name may not
contain NUL, because NUL ends a text for the host. A text has to be free of NUL itself. Everything
else is handed to the host as it is.

## Contents

* `Act.newCollection` — new collections;
* `insertionLabel` — the check of the target;
* `Container.pushPayload`, `pushValue`, `pushContainer`, `pushErased` — the ways to append.
-/

namespace Marshal

open Marshal.Text

/-- A new empty list, owned by the library. -/
def Act.newCollection : Act Container := do
  let created ← request none fun w =>
    let (h, w) := w.newCollection
    (some h, w)
  match created with
  | some h => return ⟨.collection, .manual, h⟩
  | none => fail .collectionCreation

/-- The label under which a node can be appended to a list. -/
def insertionLabel (list : Handle) (name : Option String) : Except Fault (Option Bytes) :=
  if list = Handle.null then .error .nullCollection
  else
    match name with
    | none => .ok none
    | some name => if hasNul name then .error (.nodeName name) else .ok (some (bytesOf name))

namespace Container

open Marshal.Act

/-- Append slot contents. A handle among them belongs to the list from then on. -/
def pushPayload (list : Container) (name : Option String) (payload : Payload) : Act Unit := do
  let label ← ofExcept (insertionLabel list.handle name)
  order (·.acceptNode list.handle label payload)

/-- Append a value. -/
def pushValue (list : Container) (name : Option String) (v : Value) : Act Unit := do
  let label ← ofExcept (insertionLabel list.handle name)
  match v with
  | .text s =>
    if hasNul s then fail .nodeText
    order (·.acceptNode list.handle label v.payload)
  | v => order (·.acceptNode list.handle label v.payload)

/-- Append the contents of a container, which moves into the list. If that fails the container ends
its life. -/
def pushContainer (list : Container) (name : Option String) (c : Container) : Act Unit := do
  match insertionLabel list.handle name with
  | .ok label => order (·.acceptNode list.handle label c.payload)
  | .error fault =>
    c.release
    fail fault

/-- Append slot contents whose kind has to be named. -/
def pushErased (list : Container) (name : Option String) (kind : Kind) (payload : Payload) :
    Act Unit := do
  if kind = .erased then fail .erasedNode
  list.pushPayload name (payload.readAs kind)

end Container

end Marshal
