import Marshal.Expr.Codec
import Marshal.Host.Basic

/-!
# `Host.Links` — links and the packets on them

A packet put on a link waits there until the link is processed. Processing reads the waiting packets
in order and evaluates each. The only evaluation is an assignment to a symbol,
`EvaluatePacket[Set[symbol, value]]`, which binds the symbol on that link; every other expression is
merely recorded. Packets that follow one that cannot be read are dropped with it.

## Contents

* `Link.enqueue`, `Link.evaluate`, `Link.evaluatePending`, `Link.boundValue?` — one link;
* `newLink`, `enqueuePacket`, `evaluateLink`, `takeProcessed`, `severLink` — the links of a host.
-/

namespace Marshal

open Marshal.Text

namespace Link

/-- The symbol and the value of a packet that asks for an assignment. -/
def assignment? : Expr → Option (String × Expr)
  | .function head [.function inner [.symbol name, value]] =>
    if head = "EvaluatePacket" ∧ inner = "Set" then some (name, value) else none
  | _ => none

/-- The value bound to a symbol. -/
def boundValue? (l : Link) (name : String) : Option Expr :=
  (l.symbols.find? (·.1 == name)).map (·.2)

/-- Bind a symbol, in place of its old value. -/
def bind (l : Link) (name : String) (value : Expr) : Link :=
  { l with symbols := (name, value) :: l.symbols.filter (·.1 != name) }

/-- Carry out what a packet asks for and record the packet. -/
def evaluate (l : Link) (packet : Expr) : Link :=
  let l := match assignment? packet with
    | some (name, value) => l.bind name value
    | none => l
  { l with processed := l.processed ++ [packet] }

/-- Evaluate packets in order, up to the first that is not an encoded expression. Tells whether all
of them were evaluated. -/
def evaluateAll (l : Link) : List Bytes → Bool × Link
  | [] => (true, l)
  | packet :: rest =>
    match Expr.decode packet with
    | .ok e => (l.evaluate e).evaluateAll rest
    | .error _ => (false, l)

/-- Evaluate the waiting packets. None of them waits any longer, whatever comes of them. -/
def evaluatePending (l : Link) : Bool × Link := { l with pending := [] }.evaluateAll l.pending

/-- Let a packet wait. -/
def enqueue (l : Link) (packet : Bytes) : Link := { l with pending := l.pending ++ [packet] }

end Link

namespace Host

/-- A new link with nothing on it. -/
def newLink (w : Host) : Handle × Host :=
  let (h, w) := w.fresh
  (h, { w with links := w.links.insert h {} })

/-- Put a packet on a link. A link that is broken or does not exist refuses it. -/
def enqueuePacket (w : Host) (h : Handle) (packet : Bytes) : Bool × Host :=
  match w.links.get? h with
  | some l =>
    if l.broken then (false, w) else (true, { w with links := w.links.insert h (l.enqueue packet) })
  | none => (false, w)

/-- Put a packet on a link of which only the length is given. It is accepted as an empty packet if
it is one. -/
def enqueueMissing (w : Host) (h : Handle) (length : Nat) : Bool × Host :=
  if length = 0 then w.enqueuePacket h [] else (false, w)

/-- Process a link. A link that is broken or does not exist cannot be processed, and a packet that
cannot be read ends the processing. -/
def evaluateLink (w : Host) (h : Handle) : Bool × Host :=
  match w.links.get? h with
  | some l =>
    if l.broken then (false, w)
    else
      let (done, l) := l.evaluatePending
      (done, { w with links := w.links.insert h l })
  | none => (false, w)

/-- Take the expressions that a link has processed. -/
def takeProcessed (w : Host) (h : Handle) : List Expr × Host :=
  (((w.links.get? h).map (·.processed)).getD [],
    { w with links := w.links.modify h fun l => { l with processed := [] } })

/-- The value of a symbol on a link. -/
def boundValue? (w : Host) (h : Handle) (name : String) : Option Expr :=
  (w.links.get? h).bind (·.boundValue? name)

/-- Break a link for good. -/
def severLink (w : Host) (h : Handle) : Host :=
  { w with links := w.links.modify h fun l => { l with broken := true } }

/-- Choose the link that belongs to the call being executed. -/
def selectLink (w : Host) (h : Handle) : Host := { w with currentLink := h }

end Host

end Marshal
