import Marshal.Expr.Basic
import Marshal.Number.Shortest
import Marshal.Text.Quoted

/-!
# `Expr.Text` — expressions as text

The compact text of an expression for messages: braces around a list, bars around an association, an
arrow in a rule of two sides, brackets after any other head. Strings are quoted, symbols are not.
-/

namespace Marshal.Expr

open Marshal.Text

/-- The text of an application from the texts of its arguments. -/
def applicationText (head : String) (parts : List String) : String :=
  let inner := String.intercalate ", " parts
  if head = "List" then "\x7b" ++ inner ++ "\x7d"
  else if head = "Association" then "<|" ++ inner ++ "|>"
  else
    match head, parts with
    | "Rule", [left, right] => left ++ " -> " ++ right
    | _, _ => head ++ "[" ++ inner ++ "]"

mutual

/-- The text of an expression. -/
def text : Expr → String
  | .integer v => toString v.toInt
  | .real x => x.text
  | .string s => quoted s
  | .symbol s => s
  | .function head args => applicationText head (textAll args)

/-- The texts of expressions. -/
def textAll : List Expr → List String
  | [] => []
  | x :: xs => text x :: textAll xs

end

end Marshal.Expr
