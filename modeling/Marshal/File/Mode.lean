import Marshal.Error.Fault

/-!
# `File.Mode` — modes of opening a file

A mode is one of `r`, `w`, `a`, `r+`, `w+` and `a+`, with at most one `b` anywhere in it. The `b` is
remembered and changes nothing else.

## Contents

* `Access`, `Options` — what the host is asked to allow, and what a file is opened for;
* `Mode`, `Mode.parse`, `Mode.text` — modes, their reading and their text;
* `Mode.access`, `Mode.options` — what a mode asks of the host and of the system.
-/

namespace Marshal.File

/-- What a file is wanted for. -/
inductive Access
  | read
  | write
  deriving DecidableEq, Repr, Inhabited

/-- What a file is opened for. Whoever may only append cannot write elsewhere. -/
structure Options where
  read : Bool
  write : Bool
  append : Bool
  truncate : Bool
  create : Bool
  deriving DecidableEq, Repr, Inhabited

/-- Whether anything may be put into the file. -/
def Options.canWrite (o : Options) : Bool := o.write || o.append

/-- What an opened file can be used for, and what opening it does to the file. -/
structure Mode where
  read : Bool
  write : Bool
  append : Bool
  truncate : Bool
  create : Bool
  binary : Bool
  deriving DecidableEq, Repr, Inhabited

namespace Mode

/-- The mode that a name without `b` stands for. -/
def ofBase? (base : List Char) (binary : Bool) : Option Mode :=
  match base with
  | ['r'] => some ⟨true, false, false, false, false, binary⟩
  | ['w'] => some ⟨false, true, false, true, true, binary⟩
  | ['a'] => some ⟨false, true, true, false, true, binary⟩
  | ['r', '+'] => some ⟨true, true, false, false, false, binary⟩
  | ['w', '+'] => some ⟨true, true, false, true, true, binary⟩
  | ['a', '+'] => some ⟨true, true, true, false, true, binary⟩
  | _ => none

/-- Read a mode. -/
def parse (text : String) : Except Fault Mode :=
  let s := text.toList
  if s.count 'b' > 1 then .error (.openMode text)
  else
    match ofBase? (s.filter (· != 'b')) (s.contains 'b') with
    | some mode => .ok mode
    | none => .error (.openMode text)

/-- The access to ask the host for. -/
def access (m : Mode) : Access := if m.write then .write else .read

/-- What to open the file for. -/
def options (m : Mode) : Options where
  read := m.read
  write := m.write && !m.append
  append := m.append
  truncate := m.truncate
  create := m.create

/-- The mode with its six settings, for messages. -/
def text (m : Mode) : String :=
  "OpenMode \x7b read: " ++ toString m.read ++ ", write: " ++ toString m.write ++
    ", append: " ++ toString m.append ++ ", truncate: " ++ toString m.truncate ++
    ", create: " ++ toString m.create ++ ", binary: " ++ toString m.binary ++ " \x7d"

end Mode

end Marshal.File
