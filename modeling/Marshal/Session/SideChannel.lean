import Marshal.Session.Basic

/-!
# `Session.SideChannel` — expressions sent to the host beside a call

Expressions travel to the host as encoded packets on a link. Two things are sent: the whole table of
error kinds, so that the host can map a status back to a name, and the parameters of a failed call,
as an assignment to a symbol.

## Contents

* `Session.currentLink`, `Act.sendExpr`, `Act.evaluateLink` — the use of a link;
* `Registry.expr`, `Act.publishRegistry` — the table of error kinds as an expression;
* `Session.deliverParams` — the parameters of an error.
-/

namespace Marshal

/-! ## Links -/

/-- The link of the call being executed. -/
def Session.currentLink (s : Session) : Except Fault Handle :=
  let link := s.ask Handle.null (·.currentLink)
  if link = Handle.null then .error .noLink else .ok link

/-- Encode an expression and let it wait on a link. -/
def Act.sendExpr (link : Handle) (e : Expr) : Act Unit := do
  if link = Handle.null then fail .noLink
  let accepted ← request false (·.enqueuePacket link e.encode)
  unless accepted do fail .packetRefused

/-- Let the host evaluate what waits on a link. -/
def Act.evaluateLink (link : Handle) : Act Unit := do
  let done ← request false (·.evaluateLink link)
  unless done do fail .packetProcessing

/-! ## The table of error kinds -/

/-- A kind as the rule from its name to its number and message. -/
def ErrorKind.rule (k : ErrorKind) : Expr :=
  Expr.rule (.string k.name) (Expr.list [.integer (Int64.ofInt k.id), .string k.message])

/-- The kinds as an association, in order of registration. -/
def Registry.expr (r : Registry) : Expr := Expr.association (r.kinds.map ErrorKind.rule)

/-- Send all kinds over a link. -/
def Act.publishRegistry (link : Handle) : Act Unit := do
  let s ← get
  sendExpr link s.registry.expr

/-! ## Parameters -/

/-- Assign parameters to a symbol on the main link and let the host evaluate that. -/
def Act.assignParams (symbol : String) (params : Expr) : Act Unit := do
  let link ← read (·.currentLink)
  sendExpr link (Expr.evaluatePacket (Expr.set symbol params))
  evaluateLink link

/-- Send the parameters of an error. The status is zero when there are none or when they have been
sent; otherwise it is the number of the error that kept them from being sent. -/
def Session.deliverParams (s : Session) (e : Raised) (symbol : String) : Int × Session :=
  match e.params with
  | none => (0, s)
  | some bytes =>
    match Expr.decode bytes with
    | .error fault =>
      let failure := s.registry.errorOf (.packetEncoding (ExprError.undecodable fault).message)
      (failure.kind.id, s)
    | .ok params =>
      match Act.assignParams symbol params s with
      | .ok _ s => (0, s)
      | .error failure s => (failure.kind.id, s)

end Marshal
