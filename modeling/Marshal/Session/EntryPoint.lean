import Marshal.Session.Attachment
import Marshal.Session.Boundary

/-!
# `Session.EntryPoint` — the calls that the host makes to the library itself

Three calls by which the host sets the library up: it hands over its callback table, asks for the
table of error kinds, and chooses the symbol for failure parameters. Each answers with a status.
-/

namespace Marshal.Session

open Marshal.Text Marshal.Act

/-- The host hands over its callback table, given here by its version, or none at all. -/
def start (s : Session) (table : Option Int) : Int × Session :=
  atBoundary (match table with
    | none => fail .nullTable
    | some version => attach version) s

/-- Send the table of error kinds over a link. -/
def sendRegistry (s : Session) (link : Handle) : Int × Session :=
  atBoundary (publishRegistry link) s

/-- Use a symbol for failure parameters from now on. -/
def useSymbol (s : Session) (symbol : String) : Session := { s with symbol }

/-- Choose the symbol for failure parameters. It has to be UTF-8. -/
def chooseSymbol (symbol : Option Bytes) : Act Unit :=
  match symbol with
  | none => fail .nullSymbol
  | some bytes =>
    match Utf8.decode bytes with
    | .error fault => fail (.symbolText fault)
    | .ok chars => modify (·.useSymbol (String.ofList chars))

/-- The host chooses the symbol for failure parameters. -/
def setSymbol (s : Session) (symbol : Option Bytes) : Int × Session :=
  atBoundary (chooseSymbol symbol) s

end Marshal.Session
