import Marshal.Session.Basic

/-!
# `Session.Attachment` — installing and removing the host's callback table

A session is attached while a callback table of the right layout version is installed. A table of
another version is refused and changes nothing.
-/

namespace Marshal

namespace Session

/-- The layout version that is understood. -/
def tableVersion : Int := 1

/-- Remove the table. -/
def detach (s : Session) : Session := { s with attached := false }

/-- The version of the installed table. -/
def attachedVersion (s : Session) : Except Fault Int :=
  if s.attached then .ok tableVersion else .error .noTable

/-- Fail if the host asks for a stop. -/
def failIfAborted (s : Session) : Except Fault Unit :=
  if s.ask false (·.abortRequested) then .error .abortRequested else .ok ()

end Session

/-- Install a table of a given version. -/
def Act.attach (version : Int) : Act Unit :=
  if version = Session.tableVersion then modify fun s => { s with attached := true }
  else fail (.tableVersion version Session.tableVersion)

end Marshal
