import Scriptlet.Syntax

namespace Scriptlet

/-!
# Canonical forms

The canonical form of a tree spells out how its operators were grouped: every
prefixed and binary expression stands in parentheses, statements are separated
by one space, and an expression statement ends in a semicolon when another
statement follows, so that the two cannot be taken for one call.
-/

namespace Statement

/--
What stands between a statement and those that follow it: nothing at the end of
a list, else a space, after a semicolon if the statement has none of its own.
-/
def separator (statement : Statement) (following : List Statement) : String :=
  match following, statement with
  | [], _ =>
      ""
  | _ :: _, .expression _ _ =>
      "; "
  | _ :: _, _ =>
      " "

end Statement

/-- Names in the order given, separated by commas. -/
def Name.canonicalList (names : List Name) : String :=
  String.intercalate ", " (names.map Name.value)

mutual

/-- The canonical form of an expression. -/
def Expression.canonical : Expression → String
  | .identifier name =>
      name.value
  | .integer _ value =>
      toString value.toInt
  | .string _ value =>
      "\"" ++ value ++ "\""
  | .boolean _ value =>
      if value then "true" else "false"
  | .prefixed _ operator right =>
      "(" ++ operator ++ right.canonical ++ ")"
  | .binary _ left operator right =>
      "(" ++ left.canonical ++ " " ++ operator ++ " " ++ right.canonical ++ ")"
  | .conditional token condition consequence none =>
      token.value ++ " (" ++ condition.canonical ++ ") " ++
        consequence.canonical
  | .conditional token condition consequence (some alternative) =>
      token.value ++ " (" ++ condition.canonical ++ ") " ++
        consequence.canonical ++ " else " ++ alternative.canonical
  | .function token parameters body =>
      token.value ++ "(" ++ Name.canonicalList parameters ++ ") " ++
        body.canonical
  | .call _ callee arguments =>
      callee.canonical ++ "(" ++
        String.intercalate ", " (Expression.canonicals arguments) ++ ")"

/-- The canonical forms of the expressions of a list. -/
def Expression.canonicals : List Expression → List String
  | [] =>
      []
  | first :: rest =>
      first.canonical :: Expression.canonicals rest

/-- The canonical form of a statement. -/
def Statement.canonical : Statement → String
  | .binding token name value =>
      token.value ++ " " ++ name.value ++ " = " ++ value.canonical ++ ";"
  | .returning token value =>
      token.value ++ " " ++ value.canonical ++ ";"
  | .expression _ inner =>
      inner.canonical
  | .block inner =>
      inner.canonical

/-- The canonical forms of statements, each with what separates it from the next. -/
def Statement.canonicals : List Statement → List String
  | [] =>
      []
  | first :: rest =>
      (first.canonical ++ first.separator rest) :: Statement.canonicals rest

/-- The canonical form of a block. -/
def Block.canonical : Block → String
  | ⟨_, statements⟩ =>
      if statements.isEmpty then
        "\x7b \x7d"
      else
        "\x7b " ++ String.join (Statement.canonicals statements) ++ " \x7d"

end

/-- The canonical form of a program. -/
def Program.canonical (program : Program) : String :=
  String.join (Statement.canonicals program.statements)

end Scriptlet
