import Marshal.Session.SideChannel

/-!
# `Session.Boundary` — where an outcome becomes a status

The host sees one number per call. This is the single place where an outcome becomes that number:
zero for a call that returns, the number of its kind for a raised error, and the number of a failed
function for a call that breaks down. The parameters of an error are sent before anything else, and
whether they arrive does not matter for the status. The error is kept until it is taken, cleared or
followed by another one.

## Contents

* `Breakdown`, `Ending` — the ways a call ends;
* `settle`, `Act.atBoundary` — from an ending to a status;
* `errorStatus`, `errorText?`, `takeErrorText`, … — the last error.
-/

namespace Marshal

/-- What a call that breaks down leaves behind: a text, or something that is none. -/
inductive Breakdown
  | text (s : String)
  | other
  deriving DecidableEq, Repr

/-- The text for a breakdown. -/
def Breakdown.message : Breakdown → String
  | text s => s
  | other => "unknown panic"

/-- How a call ends. -/
inductive Ending
  | returned
  | raised (e : Raised)
  | brokeDown (cause : Breakdown)
  deriving DecidableEq, Repr

/-- The text of an error as the host can hold it, which is without NUL. -/
def Raised.hostText (e : Raised) : String :=
  String.ofList (e.display.toList.map fun c => if c = '\x00' then '?' else c)

namespace Session

/-! ## The last error -/

/-- Keep an error as the last one. -/
def keepError (s : Session) (e : Raised) : Session := { s with lastError := some e }

/-- Forget the last error. -/
def forgetError (s : Session) : Session := { s with lastError := none }

/-- Take the last error. -/
def takeError (s : Session) : Option Raised × Session := (s.lastError, s.forgetError)

/-- Whether there is a last error. -/
def hasError (s : Session) : Bool := s.lastError.isSome

/-- The number of the last error. -/
def errorId? (s : Session) : Option Int := s.lastError.map (·.kind.id)

/-- The status for the last error, zero if there is none. -/
def errorStatus (s : Session) : Int := s.errorId?.getD 0

/-- The text of the last error. -/
def errorText? (s : Session) : Option String := s.lastError.map (·.hostText)

/-- Take the last error by its text. -/
def takeErrorText (s : Session) : Option String × Session := (s.errorText?, s.forgetError)

/-! ## The status of a call -/

/-- The status of a call that breaks down. -/
def functionFailed : Int := 6

/-- Turn the ending of a call into its status, and keep the error if there is one. -/
def settle (s : Session) : Ending → Int × Session
  | .returned => (0, s)
  | .raised e =>
    let (_, s) := s.deliverParams e s.symbol
    (e.kind.id, s.keepError e)
  | .brokeDown cause =>
    (functionFailed, s.keepError (s.registry.errorOf (.breakdown cause.message)))

end Session

/-- Run an action as a call of its own. -/
def Act.atBoundary (body : Act Unit) (s : Session) : Int × Session :=
  match body s with
  | .ok _ s => s.settle .returned
  | .error e s => s.settle (.raised e)

end Marshal
