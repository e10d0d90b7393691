import Marshal.Host.Arrays

/-!
# `Host.Collections` — the host's operations on ordered collections

A collection is a list of nodes. It owns the arrays and collections that its nodes hold: freeing it
frees them, and copying it copies them. Freeing works off a list of contents, taking the nodes of a
freed collection to the front; a collection is taken out before its nodes are looked at, so the work
ends whatever the collections contain. Copying goes as deep as collections are nested. It looks handles
up when it gets to them, so it also follows a handle that it has given out itself, and its depth is
bounded in two phases: one bound for collections that there were before, and one for those that the
same copy has made.

## Contents

* `newCollection`, `acceptNode` — building;
* `freeAll`, `freeCollection` — release;
* `copyCollection` — deep copies;
* `collectionLength`, `firstNode`, `lastNode`, `nextNode`, `node?` — questions.
-/

namespace Marshal.Host

open Marshal.Text

/-! ## Building -/

/-- A new empty collection. -/
def newCollection (w : Host) : Handle × Host :=
  let (h, w) := w.fresh
  (h, { w with collections := w.collections.insert h [] })

/-- Append a node to a live collection. For anything else nothing happens, and no number is used. -/
def appendNode (w : Host) (c : Handle) (name : Option Bytes) (payload : Payload) : Host :=
  match w.collections.get? c with
  | none => w
  | some nodes =>
    let (id, w) := w.fresh
    { w with
      collections := w.collections.insert c (nodes ++ [⟨id, name, payload⟩])
      places := w.places.insert id (c, nodes.length) }

/-- Append contents that come from outside. A missing text is stored as an empty one, and a
collection is not put into itself. -/
def acceptNode (w : Host) (c : Handle) (name : Option Bytes) (payload : Payload) : Host :=
  match payload with
  | .text none => w.appendNode c name (.text (some []))
  | .collection inner => if inner = c then w else w.appendNode c name payload
  | payload => w.appendNode c name payload

/-! ## Release -/

/-- Take a collection out, with the places of its nodes, and count the free. -/
def removeCollection (w : Host) (c : Handle) (nodes : List Node) : Host :=
  { w with
    collections := w.collections.erase c
    places := nodes.foldl (fun (places : Table (Handle × Nat)) (n : Node) => places.erase n.id)
      w.places }.recordFree c

@[simp] theorem collections_removeCollection (w : Host) (c : Handle) (nodes : List Node) :
    (w.removeCollection c nodes).collections = w.collections.erase c := rfl

/-- Releasing an array leaves the collections alone. -/
@[simp] theorem collections_freeArray (w : Host) (h : Handle) :
    (w.freeArray h).collections = w.collections := by
  unfold freeArray
  split <;> rfl

/-- Release what the given contents own, and what that owns, depth first. -/
def freeAll (w : Host) : List Payload → Host
  | [] => w
  | .tensor h :: rest => (w.freeArray h).freeAll rest
  | .numericArray h :: rest => (w.freeArray h).freeAll rest
  | .collection c :: rest =>
    match _live : w.collections.get? c with
    | none => w.freeAll rest
    | some nodes => (w.removeCollection c nodes).freeAll (nodes.map (·.payload) ++ rest)
  | _ :: rest => w.freeAll rest
termination_by work => (w.collections.size, work.length)
decreasing_by
  · rw [collections_freeArray]
    exact Prod.Lex.right _ (Nat.lt_succ_self _)
  · rw [collections_freeArray]
    exact Prod.Lex.right _ (Nat.lt_succ_self _)
  · exact Prod.Lex.right _ (Nat.lt_succ_self _)
  · exact Prod.Lex.left _ _ (Table.size_erase_lt _live)
  · exact Prod.Lex.right _ (Nat.lt_succ_self _)

/-- Free a collection and everything it owns. Freeing anything else is ignored. -/
def freeCollection (w : Host) (c : Handle) : Host := w.freeAll [.collection c]

/-! ## Copies -/

/-- A copy of slot contents: arrays and collections are copied, everything else is taken over. -/
def copyPayload (nested : Handle → Host → Option Handle × Host) (w : Host) :
    Payload → Option Payload × Host
  | .tensor h =>
    let (copy, w) := w.copyArray h
    (copy.map .tensor, w)
  | .numericArray h =>
    let (copy, w) := w.copyArray h
    (copy.map .numericArray, w)
  | .collection c =>
    let (copy, w) := nested c w
    (copy.map .collection, w)
  | payload => (some payload, w)

/-- Append copies of nodes to `copy`, one after the other. If one cannot be copied, `copy` is freed
with what it has got so far. -/
def copyNodes (nested : Handle → Host → Option Handle × Host) (copy : Handle) (w : Host) :
    List Node → Option Handle × Host
  | [] => (some copy, w)
  | n :: rest =>
    match copyPayload nested w n.payload with
    | (none, w) => (none, w.freeCollection copy)
    | (some payload, w) => copyNodes nested copy (w.appendNode copy n.name payload) rest

/-- One level of a copy: copies of the nodes of a live collection, put into a new one. Anything else
has no copy. -/
def copyOnce (nested : Handle → Host → Option Handle × Host) (source : Handle) (w : Host) :
    Option Handle × Host :=
  match w.collections.get? source with
  | none => (none, w)
  | some nodes =>
    let (copy, w) := w.newCollection
    copyNodes nested copy w nodes

/-- A copy of a live collection, nested at most `depth` deep. -/
def copyNested : (depth : Nat) → Handle → Host → Option Handle × Host
  | 0, _, w => (none, w)
  | depth + 1, source, w => copyOnce (copyNested depth) source w

/-- A copy of a live collection in which those with numbers below `start` are nested at most `depth`
deep. A collection from `start` on has been made by the copy itself: it contains greater numbers only,
so it is nested at most as deep as numbers have been given out when the copy gets to it. -/
def copyFrom (start : Handle) (depth : Nat) (source : Handle) (w : Host) : Option Handle × Host :=
  if start ≤ source then copyNested w.nextId source w
  else match depth with
    | 0 => (none, w)
    | depth + 1 => copyOnce (copyFrom start depth) source w

theorem copyFrom_of_le {start source : Handle} (late : start ≤ source) (depth : Nat) (w : Host) :
    copyFrom start depth source w = copyNested w.nextId source w := by
  rw [copyFrom.eq_def, if_pos late]

theorem copyFrom_zero {start source : Handle} (old : source < start) (w : Host) :
    copyFrom start 0 source w = (none, w) := by
  rw [copyFrom.eq_def, if_neg (Nat.not_le.mpr old)]

theorem copyFrom_succ {start source : Handle} (old : source < start) (depth : Nat) (w : Host) :
    copyFrom start (depth + 1) source w = copyOnce (copyFrom start depth) source w := by
  rw [copyFrom.eq_def, if_neg (Nat.not_le.mpr old)]

/-- A copy of a live collection and of everything it owns. There are no more collections than numbers
given out, so one that does not contain itself is nested no deeper than that. -/
def copyCollection (w : Host) (c : Handle) : Option Handle × Host :=
  copyFrom w.nextId w.nextId c w

/-! ## Questions -/

def collectionLength (w : Host) (c : Handle) : Int :=
  ((w.collections.get? c).map fun nodes => (nodes.length : Int)).getD 0

/-- The number of the node, or null if there is none. -/
def handleOf (n : Option Node) : Handle := (n.map (·.id)).getD Handle.null

/-- The first node of a collection; null if it has none. -/
def firstNode (w : Host) (c : Handle) : Handle :=
  handleOf ((w.collections.get? c).bind (·.head?))

/-- The last node of a collection; null if it has none. -/
def lastNode (w : Host) (c : Handle) : Handle :=
  handleOf ((w.collections.get? c).bind (·.getLast?))

/-- The node with a number. -/
def node? (w : Host) (id : Handle) : Option Node := do
  let (c, place) ← w.places.get? id
  let nodes ← w.collections.get? c
  nodes[place]?

/-- The node after the one with a number; null at the end. -/
def nextNode (w : Host) (id : Handle) : Handle :=
  handleOf do
    let (c, place) ← w.places.get? id
    let nodes ← w.collections.get? c
    nodes[place + 1]?

/-- The kind of a node; the erased kind for a number that names no node. -/
def nodeKind (w : Host) (id : Handle) : Kind := ((w.node? id).map (·.payload.kind)).getD .erased

end Marshal.Host
