import Marshal.Error.Kind
import Marshal.Expr.Codec

/-!
# `Error.Raised` — errors on their way to the boundary

A raised error points at its kind and carries two things gathered on the way: a detail text, and
optional parameters for the host. The parameters are encoded when they are attached, so that what is
sent later does not depend on anything that happens in between.
-/

namespace Marshal

open Marshal.Text

/-- An error in flight. -/
structure Raised where
  kind : ErrorKind
  detail : String
  params : Option Bytes
  deriving DecidableEq, Repr, Inhabited

namespace Raised

/-- An error of a kind, without detail and parameters. -/
def ofKind (kind : ErrorKind) : Raised := ⟨kind, "", none⟩

def withDetail (e : Raised) (detail : String) : Raised := { e with detail }

/-- Attach parameters, encoded as a list. -/
def attachParams (e : Raised) (params : List Expr) : Raised :=
  { e with params := some (Expr.list params).encode }

/-- Detach the parameters, if any. -/
def detachParams (e : Raised) : Option Bytes × Raised := (e.params, { e with params := none })

/-- The whole text of an error. The detail stands in brackets when there is any. -/
def display (e : Raised) : String :=
  e.kind.name ++ " (" ++ toString e.kind.id ++ "): " ++ e.kind.message ++
    if e.detail.isEmpty then "" else " [" ++ e.detail ++ "]"

end Raised

end Marshal
