import Marshal.Session.Basic

/-!
# `Container.Basic` — handles with an owner

A container is a handle together with its kind and a passing mode, which says who releases the
handle and how. The library frees what it owns itself and gives back its share of what it owns
together with the host; what the host owns it leaves alone. Collections are copied and never shared.

Releasing goes through one action, which does nothing for an empty container. A copy is always owned
by the library.

## Contents

* `Passing` — the modes;
* `Container` — containers, with `copy`, `replaceBy`, `moveOut`, `clear`, `release` and `payload`.
-/

namespace Marshal

/-! ## Passing modes -/

/-- Who owns a handle: the host (`automatic`, `constant`), the library (`manual`), or both
(`shared`). A constant container may not be written to. -/
inductive Passing
  | automatic
  | manual
  | shared
  | constant
  deriving DecidableEq, Repr, Inhabited

namespace Passing

def all : List Passing := [automatic, manual, shared, constant]

def name : Passing → String
  | automatic => "Automatic"
  | manual => "Manual"
  | shared => "Shared"
  | constant => "Constant"

def ofName? (name : String) : Option Passing := all.find? (·.name == name)

/-- Whether the contents may be changed. -/
def isWritable (m : Passing) : Bool := m != constant

/-- Whether containers of a kind can have a mode. -/
def suits (m : Passing) (kind : ContainerKind) : Bool := m != shared || kind != .collection

/-- Whether the host alone owns the handle. -/
def isHostOwned (m : Passing) : Bool := m == automatic || m == constant

end Passing

/-! ## Lifetimes of handles -/

namespace Act

/-- Release a handle as its mode says. -/
def releaseHandle (kind : ContainerKind) (mode : Passing) (h : Handle) : Act Unit :=
  if h = Handle.null then pure ()
  else
    match mode, kind with
    | .automatic, _ | .constant, _ => pure ()
    | .manual, .collection => order (·.freeCollection h)
    | .manual, _ => order (·.freeArray h)
    | .shared, .collection => pure ()
    | .shared, _ => order (·.disownArray h)

/-- A copy of what a handle names. Null is its own copy. -/
def copyHandle (kind : ContainerKind) (h : Handle) : Act Handle := do
  if h = Handle.null then return h
  let copy ← match kind with
    | .collection => request none (·.copyCollection h)
    | _ => request none (·.copyArray h)
  match copy, kind with
  | some copy, _ => return copy
  | none, .tensor => fail (.arrayCopy .tensor)
  | none, .numericArray => fail (.arrayCopy .numericArray)
  | none, .collection => fail .collectionCopy

end Act

/-- The number of shares of a handle. Collections are not shared. -/
def Session.shareCount (s : Session) (kind : ContainerKind) (h : Handle) : Int :=
  if h = Handle.null then 0
  else
    match kind with
    | .collection => 0
    | _ => s.ask 0 (·.shareCount h)

/-! ## Containers -/

/-- A handle of a kind with its passing mode. The empty container has the null handle. -/
structure Container where
  kind : ContainerKind
  mode : Passing
  handle : Handle
  deriving DecidableEq, Repr, Inhabited

namespace Container

/-- The container without contents. -/
def empty (kind : ContainerKind) (mode : Passing) : Container := ⟨kind, mode, Handle.null⟩

def isEmpty (c : Container) : Bool := c.handle = Handle.null

/-- A container with a copy of the contents, owned by the library. -/
def copy (c : Container) : Act Container := do
  let copy ← Act.copyHandle c.kind c.handle
  return ⟨c.kind, .manual, copy⟩

/-- Move the contents to a container of their own: it, and what is left. -/
def moveOut (c : Container) : Container × Container := (c, { c with handle := Handle.null })

/-- Release the contents; an empty container is left. -/
def clear (c : Container) : Act Container := do
  Act.releaseHandle c.kind c.mode c.handle
  return { c with handle := Handle.null }

/-- Release the contents at the end of the container's life. -/
def release (c : Container) : Act Unit := Act.releaseHandle c.kind c.mode c.handle

/-- Replace the contents by a copy of those of another container. The copy is made before the old
contents are released. -/
def replaceBy (c other : Container) : Act Container := do
  let copy ← Act.copyHandle c.kind other.handle
  let c ← c.clear
  return { c with handle := copy }

/-- The contents as the contents of a slot. -/
def payload (c : Container) : Payload := Payload.ofHandle c.kind.kind c.handle

/-- The number of shares of the contents. -/
def shareCount (c : Container) (s : Session) : Int := s.shareCount c.kind c.handle

/-- The container as it is shown in messages, with its handle in hexadecimal digits. -/
def text (c : Container) : String :=
  "Container \x7b kind: " ++ c.kind.kind.name ++ ", mode: " ++ c.mode.name ++ ", raw: 0x" ++
    String.ofList (Nat.toDigits 16 c.handle) ++ " \x7d"

end Container

end Marshal
