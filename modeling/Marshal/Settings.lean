import Marshal.Text.Blank

/-!
# `Settings` — what the environment configures

Two variables of the environment: the filter of the log, and the symbol that receives the parameters
of the last failure. A variable that is missing or blank leaves the default in place.
-/

namespace Marshal

open Marshal.Text

/-- The configuration of a process. -/
structure Settings where
  logFilter : String := "hostlink=warn"
  symbol : String := "HostLink\x60$LastFailureParameters"
  deriving DecidableEq, Repr, Inhabited

namespace Settings

/-- The configuration for given variables. The filter is taken as it stands, the symbol without the
blanks around it. -/
def ofEnvironment (log symbol : Option String) : Settings :=
  let defaults : Settings := {}
  { logFilter := (log.filter fun s => !isBlankText s).getD defaults.logFilter
    symbol := ((symbol.map trim).filter fun s => !s.isEmpty).getD defaults.symbol }

end Settings

end Marshal
