import Marshal.Collection.Insert
import Marshal.Container.Basic

/-!
# `Call` — the arguments and the result of one call

A call has argument slots and a result slot. Each slot refers to a cell of storage, or to none;
after one slot has been bound to what another one refers to, both share a cell. A cell keeps its
kind whatever is written to it.

The host may keep more slots than it hands over. Arguments are read by their index among those
handed over and by the kind that the reader expects. An index past their end is an error, which the
readers of containers raise again as an error of their own. The host itself reads every slot, and so
does whoever holds one already.

## Contents

* `Call`, `Call.create` — calls and their slots;
* `payload`, `value`, `adopt`, `container` — arguments by index;
* `wrap`, `cell`, `setCell`, `rebind` — slots taken one by one;
* `valueAs?`, `values` — slots as the host sees them;
* `setResult`, `setText` — the result.
-/

namespace Marshal

open Marshal.Text

/-- The slots of a call. `slots` gives each slot of the host the number of its cell; `count` says
how many of them are handed over as arguments. -/
structure Call where
  count : Nat
  slots : List (Option Nat)
  cells : List Payload
  result : Option Payload
  deriving Repr

namespace Call

/-- Give each argument that has storage a cell of its own, from number `next` on. -/
def arrange (next : Nat) : List (Option Payload) → List (Option Nat)
  | [] => []
  | none :: rest => none :: arrange next rest
  | some _ :: rest => some next :: arrange (next + 1) rest

/-- The call with a given argument count, the contents of the host's slots, and the contents of its
result slot. Unless the slots are handed over there can be no arguments. -/
def create (count : Int) (handedOver : Bool) (slots : List (Option Payload))
    (result : Option Payload) : Except Fault Call :=
  if count < 0 then .error (.argumentCount count)
  else if 0 < count ∧ !handedOver then .error (.argumentSlots count.toNat)
  else .ok ⟨min count.toNat slots.length, arrange 0 slots, slots.filterMap id, result⟩

/-! ## Arguments by index -/

/-- What a slot of the host refers to, whether or not it is an argument. -/
def target (c : Call) (index : Nat) : Option Nat := (c.slots[index]?).getD none

/-- The cell of an argument. -/
def slot (c : Call) (index : Nat) : Except Fault (Option Nat) :=
  if index < c.count then .ok (c.target index) else .error (.argumentIndex index c.count)

/-- The contents of a cell. -/
def cell (c : Call) (n : Nat) : Payload := (c.cells[n]?).getD (.zero .erased)

/-- The contents of an argument slot, read at a kind. -/
def payload (c : Call) (kind : Kind) (index : Nat) : Except Fault Payload := do
  match ← c.slot index with
  | some n => return (c.cell n).readAs kind
  | none => return .zero kind

/-- The value of an argument of a kind. -/
def value (c : Call) (kind : Kind) (index : Nat) : Except Fault Value := do
  return (← c.payload kind index).value

/-- An argument slot of a container kind as a container in a given mode. -/
def adopt (c : Call) (kind : ContainerKind) (mode : Passing) (index : Nat) :
    Except Fault Container := do
  return ⟨kind, mode, (← c.payload kind.kind index).handle⟩

/-- A container argument in a given mode, with an error of its own. -/
def container (c : Call) (kind : ContainerKind) (mode : Passing) (index : Nat) (s : Session) :
    Except Fault Container :=
  match c.adopt kind mode index with
  | .ok container => .ok container
  | .error fault => .error (.containerArgument kind (s.registry.errorOf fault).display)

/-! ## Slots one by one -/

/-- The cell behind an argument slot that is wanted at a kind. -/
def wrap (c : Call) (kind : Kind) (index : Nat) : Except Fault Nat := do
  match ← c.slot index with
  | some n => return n
  | none => throw (.nullSlot kind)

/-- Replace the contents of a cell. The cell keeps its kind: a handle written to it under another
container kind is held under its own. -/
def setCell (c : Call) (n : Nat) (payload : Payload) : Call :=
  { c with cells := c.cells.set n (payload.readAs (c.cell n).kind) }

/-- Bind an argument slot to what another slot of the host refers to. -/
def rebind (c : Call) (index other : Nat) : Except Fault Call := do
  let _ ← c.wrap .erased index
  return { c with slots := c.slots.set index (c.target other) }

/-! ## Slots as the host sees them -/

/-- The value of a slot whose kind is told by a tag; none for the erased kind. A slot that refers to
nothing is read as a cleared one. -/
def valueAs? (c : Call) (kind : Kind) (index : Nat) : Option Value :=
  (match c.target index with
    | some n => c.cell n
    | none => .zero kind).valueAs? kind

/-- The value behind every slot, handed over or not. -/
def values (c : Call) : List (Option Value) :=
  c.slots.map fun slot => slot.map fun n => (c.cell n).value

/-! ## The result -/

/-- Set the result. Like a cell, its slot keeps its kind. -/
def setResult (c : Call) (payload : Payload) : Call :=
  { c with result := c.result.map fun slot => payload.readAs slot.kind }

/-- Set the result to a text, which may not contain NUL. -/
def setText (c : Call) (text : String) : Except Fault Call :=
  if hasNul text then .error .resultText else .ok (c.setResult (.text (some (bytesOf text))))

end Call

end Marshal
