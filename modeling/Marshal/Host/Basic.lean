import Marshal.Array.Dense
import Marshal.Expr.Basic
import Marshal.Host.Table
import Marshal.Value

/-!
# `Host.Basic` — the host's state

The host owns dense arrays, ordered collections of nodes, and links for packets. Everything it makes
gets the next number of one counter, so a number never names two things, not even one after the
other. Releases are counted for every number, also for numbers that name nothing any more.

## Contents

* `Node`, `Link`, `Releases` — what the host keeps besides arrays;
* `Host` — the state, and `fresh`, the next number;
* `isLive`, `liveCount`, `releasesOf` — what an observer sees of it.
-/

namespace Marshal

open Marshal.Text

/-- One entry of a collection: its own number, its label if it has one, and its contents. -/
structure Node where
  id : Handle
  name : Option Bytes
  payload : Payload
  deriving DecidableEq, Repr

/-- A link: packets that wait, expressions that have been processed, the symbols bound by them, and
whether the link has broken down. -/
structure Link where
  pending : List Bytes := []
  processed : List Expr := []
  symbols : List (String × Expr) := []
  broken : Bool := false
  deriving Repr, Inhabited

/-- How often something has been freed and how often a share of it has been given back. The counters
have 32 bits and wrap around. -/
structure Releases where
  frees : UInt32 := 0
  disowns : UInt32 := 0
  deriving DecidableEq, Repr, Inhabited

/-- The host's state. `places` gives each node of a live collection its collection and its place
there. -/
structure Host where
  nextId : Handle := 1
  arrays : Table Dense := {}
  collections : Table (List Node) := {}
  places : Table (Handle × Nat) := {}
  links : Table Link := {}
  releases : Table Releases := {}
  currentLink : Handle := Handle.null
  abortRequested : Bool := false
  denied : List String := []
  deriving Repr, Inhabited

namespace Host

/-- Take the next number. -/
def fresh (w : Host) : Handle × Host := (w.nextId, { w with nextId := w.nextId + 1 })

/-- The releases counted for a number. -/
def releasesOf (w : Host) (h : Handle) : Releases := (w.releases.get? h).getD {}

/-- Count a free. -/
def recordFree (w : Host) (h : Handle) : Host :=
  let r := w.releasesOf h
  { w with releases := w.releases.insert h { r with frees := r.frees + 1 } }

/-- Count a share given back. -/
def recordDisown (w : Host) (h : Handle) : Host :=
  let r := w.releasesOf h
  { w with releases := w.releases.insert h { r with disowns := r.disowns + 1 } }

/-- Whether a number names a live array, collection or link. -/
def isLive (w : Host) (h : Handle) : Bool :=
  w.arrays.contains h || w.collections.contains h || w.links.contains h

/-- The number of live arrays and collections. -/
def liveCount (w : Host) : Nat := w.arrays.size + w.collections.size

/-- Counting a free changes the count of that number only. -/
theorem releasesOf_recordFree (w : Host) (h k : Handle) :
    (w.recordFree h).releasesOf k =
      if k = h then { w.releasesOf h with frees := (w.releasesOf h).frees + 1 }
      else w.releasesOf k := by
  unfold releasesOf recordFree
  rw [Table.get?_insert]
  split <;> rfl

/-- Counting a share given back changes the count of that number only. -/
theorem releasesOf_recordDisown (w : Host) (h k : Handle) :
    (w.recordDisown h).releasesOf k =
      if k = h then { w.releasesOf h with disowns := (w.releasesOf h).disowns + 1 }
      else w.releasesOf k := by
  unfold releasesOf recordDisown
  rw [Table.get?_insert]
  split <;> rfl

end Host

end Marshal
