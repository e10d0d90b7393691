import Marshal.Error.Fault
import Marshal.Error.Raised

/-!
# `Error.Registry` — the table of error kinds

The registry keeps the kinds in the order of registration and only grows. A new kind gets the next
number, which goes down by one each time: the first has the number seven, numbers are never reused
and never skipped. An index gives each name the place of its kind, so that a name stands in the table
once, and the place of a number is its distance from the first one.

## Contents

* `Registry`, `insert`, `Registry.seeded` — the table, and the one with the built-in kinds;
* `kindWithId?`, `kindNamed?` — look-ups;
* `kindOfId`, `kindOfName`, `errorOfId`, `errorOfName`, `errorOf` — the errors they yield;
* `register`, `registerAll` — adding kinds.
-/

namespace Marshal

/-- The table of error kinds: the kinds in order of registration, the place of each name, and the
number that the next kind gets. -/
structure Registry where
  kinds : List ErrorKind
  places : List (String × Nat)
  nextId : Int
  deriving DecidableEq, Repr, Inhabited

namespace Registry

/-- The number of the first kind. -/
def baseId : Int := 7

/-- The table without any kinds. -/
def empty : Registry := ⟨[], [], baseId⟩

/-- Add a kind under the next number, whatever is there already. -/
def insert (r : Registry) (name message : String) : Registry where
  kinds := r.kinds ++ [⟨r.nextId, name, message⟩]
  places := (name, r.kinds.length) :: r.places
  nextId := r.nextId - 1

/-- The table of the built-in kinds. -/
def seeded : Registry := Builtin.all.foldl (fun r b => r.insert b.name b.message) empty

/-- The number of kinds. -/
def size (r : Registry) : Nat := r.kinds.length

/-! ## Kinds by number and name -/

/-- Whether a number has 32 bits, as the numbers of kinds do. -/
def fitsInt32 (n : Int) : Bool := Int32.minValue.toInt ≤ n && n ≤ Int32.maxValue.toInt

/-- The kind with a number. The distance of the number from the first one has to fit as well. -/
def kindWithId? (r : Registry) (id : Int) : Option ErrorKind :=
  let place := baseId - id
  if fitsInt32 place && 0 ≤ place then r.kinds[place.toNat]? else none

/-- The kind with a name. -/
def kindNamed? (r : Registry) (name : String) : Option ErrorKind := do
  let place ← r.places.lookup name
  r.kinds[place]?

/-! ## Raising errors -/

/-- The kind of a built-in error. A table without it would give the number of a failed function. -/
def builtinKind (r : Registry) (b : Builtin) : ErrorKind :=
  (r.kindNamed? b.name).getD ⟨6, b.name, ""⟩

/-- The error of a cause. -/
def errorOf (r : Registry) (fault : Fault) : Raised :=
  (Raised.ofKind (r.builtinKind fault.builtin)).withDetail fault.detail

/-- The kind with a number, or the error that there is none. -/
def kindOfId (r : Registry) (id : Int) : Except Raised ErrorKind :=
  match r.kindWithId? id with
  | some kind => .ok kind
  | none => .error (r.errorOf (.unknownId id))

/-- The kind with a name, or the error that there is none. -/
def kindOfName (r : Registry) (name : String) : Except Raised ErrorKind :=
  match r.kindNamed? name with
  | some kind => .ok kind
  | none => .error (r.errorOf (.unknownName name))

/-- The error that a look-up yields: the one of the kind found, or else the failure itself. -/
def raisedBy : Except Raised ErrorKind → Raised
  | .ok kind => .ofKind kind
  | .error e => e

/-- The error with a number. -/
def errorOfId (r : Registry) (id : Int) : Raised := raisedBy (r.kindOfId id)

/-- The error with a name. -/
def errorOfName (r : Registry) (name : String) : Raised := raisedBy (r.kindOfName name)

/-! ## Registration -/

/-- Add a kind under the next number. A name may be registered again with the same message, which
changes nothing; with another message that is an error. -/
def register (r : Registry) (name message : String) : Except Raised Registry :=
  match r.kindNamed? name with
  | none => .ok (r.insert name message)
  | some kind =>
    if kind.message = message then .ok r else .error (r.errorOf (.nameTaken name kind.id))

/-- Add kinds one after the other, up to the first that fails; what was added before it stays. -/
def registerAll (r : Registry) : List (String × String) → Option Raised × Registry
  | [] => (none, r)
  | (name, message) :: rest =>
    match r.register name message with
    | .ok r => r.registerAll rest
    | .error e => (some e, r)

/-- A registration that succeeds adds the kind or changes nothing. -/
theorem of_register {r s : Registry} {name message : String}
    (h : r.register name message = .ok s) :
    (r.kindNamed? name = none ∧ s = r.insert name message) ∨
      (s = r ∧ ∃ kind, r.kindNamed? name = some kind ∧ kind.message = message) := by
  unfold register at h
  split at h
  · next hnew =>
    cases h
    exact .inl ⟨hnew, rfl⟩
  · next kind hold =>
    split at h
    · next same =>
      cases h
      exact .inr ⟨rfl, kind, hold, same⟩
    · cases h

end Registry

end Marshal
