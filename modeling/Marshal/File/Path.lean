import Marshal.Text.Utf8

/-!
# `File.Path` — paths

A path is a run of bytes in which slashes part the components. Several slashes in a row count as
one. A slash at the end says that a directory is meant.
-/

namespace Marshal.File

open Marshal.Text

/-- The byte of a slash. -/
def slash : UInt8 := 0x2F

/-- The pieces between slashes, empty ones among them. -/
def pieces : Bytes → List Bytes
  | [] => [[]]
  | b :: rest =>
    if b = slash then [] :: pieces rest
    else
      match pieces rest with
      | piece :: more => (b :: piece) :: more
      | [] => [[b]]

/-- The components of a path. -/
def components (path : Bytes) : List Bytes := (pieces path).filter fun piece => !piece.isEmpty

/-- Whether a path ends in a slash. -/
def endsInSlash (path : Bytes) : Bool := path.getLast? == some slash

/-- The component that stays in a directory. -/
def here : Bytes := [0x2E]

/-- The component that leads to the directory above. -/
def above : Bytes := [0x2E, 0x2E]

/-- The most bytes that a component may have. -/
def componentLimit : Nat := 255

/-- A path must have fewer bytes than this. -/
def pathLimit : Nat := 4096

end Marshal.File
