import Marshal.Session.Basic

/-!
# `File.Open` — opening files for the host

A file is opened in three steps: its mode is read, the host is asked whether the path may be
touched, and then the file is looked up. The first step that fails decides the error, so a refused
path is never touched.

## Contents

* `Session.permitPath` — the host's permission;
* `Opened`, `Act.openPath` — opening;
* `Opened.write`, `Opened.rewind`, `Opened.readText?` — using an opened file;
* `Session.fileText?`, `Act.makeDirectory` — files and directories by their path.
-/

namespace Marshal

open Marshal.File Marshal.Text

/-- Ask the host whether a path may be touched. A path that contains a NUL cannot be asked about. -/
def Session.permitPath (s : Session) (path : String) (_access : Access) : Except Fault Unit :=
  if hasNul path then .error (.pathRefused path)
  else if s.ask false (·.allows (some (bytesOf path))) then .ok ()
  else .error (.pathRefused path)

/-- An opened file: where it is, what it may be used for, and the position in it. -/
structure Opened where
  place : List Bytes
  options : Options
  position : Nat := 0

/-- Open a file. -/
def Act.openPath (path mode : String) : Act Opened := do
  let mode ← ofExcept (Mode.parse mode)
  read (·.permitPath path mode.access)
  let s ← get
  match s.files.openAt (bytesOf path) mode.options with
  | .error reason => fail (.openFailed path reason.message)
  | .ok (place, files) =>
    set { s with files }
    return ⟨place, mode.options, 0⟩

namespace Opened

/-- Write bytes and move behind them; appended bytes go to the end. Tells whether the file may be
written to, which does not matter when there is nothing to write. -/
def write (f : Opened) (data : Bytes) : Act (Bool × Opened) := do
  if data.isEmpty then return (true, f)
  if !f.options.canWrite then return (false, f)
  let s ← get
  let length := match s.files.item? f.place with
    | some (.file contents) => contents.length
    | _ => 0
  let start := if f.options.append then length else f.position
  set { s with files := s.files.store f.place start data }
  return (true, { f with position := start + data.length })

/-- Go back to the beginning. -/
def rewind (f : Opened) : Opened := { f with position := 0 }

/-- The text from the position to the end. There is none if the file may not be read, is a directory
or does not hold UTF-8. -/
def readText? (f : Opened) (s : Session) : Option String :=
  if !f.options.read then none
  else
    match s.files.item? f.place with
    | some (.file contents) => textOf? (contents.drop f.position)
    | _ => none

end Opened

/-- The text of the file at a path. -/
def Session.fileText? (s : Session) (path : String) : Option String :=
  if hasNul path then none else (s.files.contents? (bytesOf path)).bind textOf?

/-- Make a directory. Tells whether it has been made. -/
def Act.makeDirectory (path : String) : Act Bool := do
  if hasNul path then return false
  let s ← get
  match s.files.makeDirectory (bytesOf path) with
  | some files =>
    set { s with files }
    return true
  | none => return false

end Marshal
