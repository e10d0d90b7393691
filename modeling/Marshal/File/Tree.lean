import Marshal.File.Mode
import Marshal.File.Path

/-!
# `File.Tree` — a tree of files and directories

The files below a working directory, each under the list of components that leads to it. Looking a
path up goes from directory to directory; the first obstacle decides how it fails.

## Contents

* `Reason` — how a look-up or an opening fails;
* `Tree`, `item?`, `locate`, `contents?` — the tree and look-ups in it;
* `Tree.openAt`, `Tree.makeDirectory`, `Tree.store` — changes.
-/

namespace Marshal.File

open Marshal.Text

/-- Why a path cannot be opened. -/
inductive Reason
  | notFound
  | notDirectory
  | isDirectory
  | nameTooLong
  deriving DecidableEq, Repr

/-- The system's text for a reason. -/
def Reason.message : Reason → String
  | notFound => "No such file or directory (os error 2)"
  | notDirectory => "Not a directory (os error 20)"
  | isDirectory => "Is a directory (os error 21)"
  | nameTooLong => "File name too long (os error 36)"

/-- What a list of components can lead to. -/
inductive Item
  | file (contents : Bytes)
  | directory
  deriving DecidableEq, Repr

/-- The items below the working directory. -/
structure Tree where
  items : List (List Bytes × Item) := []
  deriving DecidableEq, Repr

namespace Tree

instance : Inhabited Tree := ⟨{}⟩

/-- The item at a place. The working directory itself is always there. -/
def item? (t : Tree) (place : List Bytes) : Option Item :=
  if place = [] then some .directory else (t.items.find? (·.1 == place)).map (·.2)

/-- Put an item at a place. -/
def put (t : Tree) (place : List Bytes) (item : Item) : Tree :=
  ⟨(place, item) :: t.items.filter (·.1 != place)⟩

/-! ## Look-ups -/

/-- The place of a component below a directory. Nothing lies above the working directory. -/
def place (dir : List Bytes) (component : Bytes) : List Bytes :=
  if component = here then dir
  else if component = above then dir.dropLast
  else dir ++ [component]

/-- The item of a component below a directory. -/
def step (t : Tree) (dir : List Bytes) (component : Bytes) : Except Reason Item :=
  if component.length > componentLimit then .error .nameTooLong
  else
    match t.item? (place dir component) with
    | some item => .ok item
    | none => .error .notFound

/-- Go down from a directory through components that have to be directories. -/
def descend (t : Tree) (dir : List Bytes) : List Bytes → Except Reason (List Bytes)
  | [] => .ok dir
  | component :: rest =>
    match t.step dir component with
    | .error reason => .error reason
    | .ok (.file _) => .error .notDirectory
    | .ok .directory => t.descend (place dir component) rest

/-- The directory in which the last component of a path is to be looked for, and that component. A
path of slashes only is the working directory. -/
def locate (t : Tree) (path : Bytes) : Except Reason (List Bytes × Bytes) :=
  if path = [] then .error .notFound
  else if path.length ≥ pathLimit then .error .nameTooLong
  else
    let parts := components path
    match t.descend [] parts.dropLast with
    | .error reason => .error reason
    | .ok dir => .ok (dir, parts.getLast?.getD here)

/-- The contents of the file at a path. -/
def contents? (t : Tree) (path : Bytes) : Option Bytes :=
  match t.locate path with
  | .error _ => none
  | .ok (dir, last) =>
    match t.step dir last with
    | .ok (.file contents) => if endsInSlash path then none else some contents
    | _ => none

/-! ## Changes -/

/-- Open a path: the place of what is there, and the tree after it has been created or cut to
nothing. A directory can be opened only to read it. -/
def openAt (t : Tree) (path : Bytes) (o : Options) : Except Reason (List Bytes × Tree) :=
  match t.locate path with
  | .error reason => .error reason
  | .ok (dir, last) =>
    let target := place dir last
    if o.create ∧ endsInSlash path then .error .isDirectory
    else
      match t.step dir last with
      | .error .notFound =>
        if o.create then .ok (target, t.put target (.file [])) else .error .notFound
      | .error reason => .error reason
      | .ok .directory => if o.canWrite then .error .isDirectory else .ok (target, t)
      | .ok (.file _) =>
        if endsInSlash path then .error .notDirectory
        else if o.truncate then .ok (target, t.put target (.file []))
        else .ok (target, t)

/-- Make a directory where nothing is yet. -/
def makeDirectory (t : Tree) (path : Bytes) : Option Tree :=
  match t.locate path with
  | .error _ => none
  | .ok (dir, last) =>
    match t.step dir last with
    | .error .notFound => some (t.put (place dir last) .directory)
    | _ => none

/-- Write bytes over the contents of a file from a position on. -/
def store (t : Tree) (place : List Bytes) (start : Nat) (data : Bytes) : Tree :=
  match t.item? place with
  | some (.file contents) =>
    t.put place (.file (contents.take start ++ data ++ contents.drop (start + data.length)))
  | _ => t

end Tree

end Marshal.File
