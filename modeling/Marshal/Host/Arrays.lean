import Marshal.Array.Conversion
import Marshal.Host.Basic

/-!
# `Host.Arrays` — the host's operations on dense arrays

Creation, copying and conversion of arrays, their release, their shares, and what can be asked about
them. Both families go through the same handles: a question about a handle of the other family is
answered as far as its answer makes sense, and the data of a tensor is shown only under its own
element type.

## Contents

* `addArray`, `newArray`, `newArrayByCode`, `copyArray`, `convertArray` — new arrays;
* `freeArray`, `disownArray`, `shareArray` — releases and shares;
* `shareCount`, `elementCode`, `rank`, `dims?`, `length`, `dataAs?` — questions;
* `overwriteArray` — writing elements.
-/

namespace Marshal.Host

open Marshal.Number

/-! ## New arrays -/

/-- Take in an array under the next number. -/
def addArray (w : Host) (a : Dense) : Handle × Host :=
  let (h, w) := w.fresh
  (h, { w with arrays := w.arrays.insert h a })

/-- Take in an array if there is one. -/
def addArray? (w : Host) (a : Option Dense) : Option Handle × Host :=
  match a with
  | some a =>
    let (h, w) := w.addArray a
    (some h, w)
  | none => (none, w)

/-- A new array of zeros. -/
def newArray (w : Host) (type : ElementType) (dims : List Int) : Option Handle × Host :=
  w.addArray? (Dense.create? type dims)

/-- A new array of zeros from the host's number of its type, its rank and the place of its
dimensions, which only a scalar can do without. -/
def newArrayByCode (w : Host) (family : Family) (code rank : Int) (dims : Option (List Int)) :
    Option Handle × Host :=
  let shape : Option (List Int) :=
    if rank < 0 then none
    else if rank = 0 then some []
    else dims.map (·.take rank.toNat)
  match shape, ElementType.ofCode? family code with
  | some shape, some type => w.newArray type shape
  | _, _ => (none, w)

/-- A copy of a live array, not shared with anybody. -/
def copyArray (w : Host) (h : Handle) : Option Handle × Host :=
  w.addArray? ((w.arrays.get? h).map fun a => { a with shares := 0 })

/-- A numeric array converted to another element type. -/
def convertArray (w : Host) (source : Handle) (target : NumericType) (method : Method)
    (tolerance : Real64) : Option Handle × Host :=
  w.addArray? ((w.arrays.get? source).bind (·.convert? target method tolerance))

/-- A conversion by the host's numbers of the target type and the method. -/
def convertArrayByCode (w : Host) (source : Handle) (target method : Int) (tolerance : Real64) :
    Option Handle × Host :=
  match NumericType.ofCode? target, Method.ofCode? method with
  | some target, some method => w.convertArray source target method tolerance
  | _, _ => (none, w)

/-! ## Releases and shares -/

/-- Free a live array. Freeing anything else is ignored. -/
def freeArray (w : Host) (h : Handle) : Host :=
  if w.arrays.contains h then { w with arrays := w.arrays.erase h }.recordFree h else w

/-- Give back a share of an array. The call is counted whether or not the array is live. -/
def disownArray (w : Host) (h : Handle) : Host :=
  { w with
    arrays := w.arrays.modify h fun a => { a with shares := max (a.shares - 1) 0 } }.recordDisown h

/-- Add a share to a live array. -/
def shareArray (w : Host) (h : Handle) : Host :=
  { w with arrays := w.arrays.modify h fun a => { a with shares := a.shares + 1 } }

/-! ## Questions -/

/-- The number of shares; nothing that is not a live array is shared. -/
def shareCount (w : Host) (h : Handle) : Int := ((w.arrays.get? h).map (·.shares)).getD 0

/-- The number of the element type as a family reports it. Tensors report the number of any array;
numeric arrays report the undefined type for anything else. -/
def elementCode (w : Host) (family : Family) (h : Handle) : Int :=
  match w.arrays.get? h with
  | none => 0
  | some a =>
    match family, a.type with
    | .numericArray, .tensor _ => NumericType.undefined.code
    | _, type => type.code

def rank (w : Host) (h : Handle) : Int :=
  ((w.arrays.get? h).map fun a => (a.dims.length : Int)).getD 0

def dims? (w : Host) (h : Handle) : Option (List Int) := (w.arrays.get? h).map (·.dims)

def length (w : Host) (h : Handle) : Int := ((w.arrays.get? h).map fun a => (a.length : Int)).getD 0

/-- The elements of a live array as a typed reader sees them. A tensor shows them only under its own
element type, and never as anything else; a numeric reader sees those of every live array, so it has
to ask for the type first. -/
def dataAs? (w : Host) (type : ElementType) (h : Handle) : Option (List Scalar) :=
  match w.arrays.get? h with
  | none => none
  | some a =>
    match type with
    | .tensor _ => if a.type = type then some a.elements else none
    | .numeric _ => some a.elements

/-! ## Writing -/

/-- Replace elements of a live array from number `start` on. -/
def overwriteArray (w : Host) (h : Handle) (start : Nat) (values : List Scalar) : Host :=
  { w with arrays := w.arrays.modify h (·.overwrite start values) }

end Marshal.Host
