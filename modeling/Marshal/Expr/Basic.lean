import Marshal.Number.Binary

/-!
# `Expr.Basic` — expressions

The structured values that travel to the host beside a call: integers, reals, strings, symbols and
applications of a named head to arguments. Lists, rules, associations and assignments are
applications of heads with fixed names.

## Contents

* `Expr` and its constructors for the usual heads;
* `head?`, `args`, `hasHead`, `asInteger?`, `asText?` — access;
* `Expr.decideEq` — equality of expressions can be decided;
* `Expr.same` — equality of values, in which a real that is no number differs from itself.
-/

namespace Marshal

open Marshal.Number

/-- A structured value. -/
inductive Expr
  | integer (v : Int64)
  | real (x : Real64)
  | string (s : String)
  | symbol (name : String)
  | function (head : String) (args : List Expr)
  deriving Repr, Inhabited

namespace Expr

/-! ## The usual heads -/

/-- `List[items…]`. -/
def list (items : List Expr) : Expr := .function "List" items

/-- `Rule[left, right]`. -/
def rule (left right : Expr) : Expr := .function "Rule" [left, right]

/-- `Association[rules…]`, in the given order. -/
def association (rules : List Expr) : Expr := .function "Association" rules

/-- `Set[symbol, value]`. -/
def set (name : String) (value : Expr) : Expr := .function "Set" [.symbol name, value]

/-- `EvaluatePacket[body]`, a request to evaluate the body. -/
def evaluatePacket (body : Expr) : Expr := .function "EvaluatePacket" [body]

/-- A truth value is one of two symbols. -/
def ofBool (b : Bool) : Expr := .symbol (if b then "True" else "False")

/-! ## Access -/

/-- The head of an application. -/
def head? : Expr → Option String
  | .function head _ => some head
  | _ => none

/-- The arguments of an application; other expressions have none. -/
def args : Expr → List Expr
  | .function _ args => args
  | _ => []

/-- Whether the expression is an application of `name`. -/
def hasHead (e : Expr) (name : String) : Bool := e.head? == some name

def asInteger? : Expr → Option Int64
  | .integer v => some v
  | _ => none

/-- The text of a string or symbol. -/
def asText? : Expr → Option String
  | .string s => some s
  | .symbol s => some s
  | _ => none

/-! ## Equality -/

mutual

/-- Whether two expressions are the same. -/
def decideEq : (x y : Expr) → Decidable (x = y)
  | .integer v, .integer w => decidable_of_iff (v = w) (by simp)
  | .real x, .real y => decidable_of_iff (x = y) (by simp)
  | .string s, .string t => decidable_of_iff (s = t) (by simp)
  | .symbol s, .symbol t => decidable_of_iff (s = t) (by simp)
  | .function f xs, .function g ys =>
    have := decideEqAll xs ys
    decidable_of_iff (f = g ∧ xs = ys) (by simp)
  | .integer _, .real _ | .integer _, .string _ | .integer _, .symbol _
  | .integer _, .function .. => isFalse nofun
  | .real _, .integer _ | .real _, .string _ | .real _, .symbol _
  | .real _, .function .. => isFalse nofun
  | .string _, .integer _ | .string _, .real _ | .string _, .symbol _
  | .string _, .function .. => isFalse nofun
  | .symbol _, .integer _ | .symbol _, .real _ | .symbol _, .string _
  | .symbol _, .function .. => isFalse nofun
  | .function .., .integer _ | .function .., .real _ | .function .., .string _
  | .function .., .symbol _ => isFalse nofun

/-- Whether two lists of expressions are the same. -/
def decideEqAll : (xs ys : List Expr) → Decidable (xs = ys)
  | [], [] => isTrue rfl
  | x :: xs, y :: ys =>
    have := decideEq x y
    have := decideEqAll xs ys
    decidable_of_iff (x = y ∧ xs = ys) (by simp)
  | [], _ :: _ | _ :: _, [] => isFalse nofun

end

instance : DecidableEq Expr := decideEq

/-! ## Equality of values -/

mutual

/-- Whether two expressions have the same value. Reals are compared as numbers. -/
def same : Expr → Expr → Bool
  | .integer v, .integer w => v == w
  | .real x, .real y => x.sameNumber y
  | .string s, .string t => s == t
  | .symbol s, .symbol t => s == t
  | .function f xs, .function g ys => f == g && sameAll xs ys
  | _, _ => false

/-- Whether two lists of expressions have the same values in the same order. -/
def sameAll : List Expr → List Expr → Bool
  | [], [] => true
  | x :: xs, y :: ys => same x y && sameAll xs ys
  | _, _ => false

end

end Expr

end Marshal
