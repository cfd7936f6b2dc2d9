import Scriptlet.Token

namespace Scriptlet

/-!
# Programs as trees

Expressions, statements and blocks.  Each node keeps the token that introduced
it: the first token of a literal, a statement or a block, the operator of a
prefixed or binary expression, the opening parenthesis of a call.  Tokens serve
reports and the wording of canonical forms; what a tree means and whether two
trees are equal does not depend on them.
-/

/-- A name in an expression, as the target of a binding, or as a parameter. -/
structure Name where
  token : Token
  value : String
  deriving Repr, DecidableEq

mutual

/-- Expressions. -/
inductive Expression where
  | identifier (name : Name)
  | integer (token : Token) (value : Int64)
  | string (token : Token) (value : String)
  | boolean (token : Token) (value : Bool)
  | prefixed (token : Token) (operator : String) (right : Expression)
  | binary (token : Token) (left : Expression) (operator : String)
      (right : Expression)
  | conditional (token : Token) (condition : Expression) (consequence : Block)
      (alternative? : Option Block)
  | function (token : Token) (parameters : List Name) (body : Block)
  | call (token : Token) (callee : Expression) (arguments : List Expression)

/-- Statements. -/
inductive Statement where
  | binding (token : Token) (name : Name) (value : Expression)
  | returning (token : Token) (value : Expression)
  | expression (token : Token) (inner : Expression)
  | block (inner : Block)

/-- Statements between curly brackets. -/
structure Block where
  token : Token
  statements : List Statement

end

/-- A program: its statements in source order. -/
structure Program where
  statements : List Statement

namespace Name

/-- A name that reads as its token does. -/
def ofToken (token : Token) : Name :=
  ⟨token, token.value⟩

end Name

namespace Expression

/-- The token that introduced an expression. -/
def token : Expression → Token
  | .identifier name => name.token
  | .integer token _ => token
  | .string token _ => token
  | .boolean token _ => token
  | .prefixed token _ _ => token
  | .binary token _ _ _ => token
  | .conditional token _ _ _ => token
  | .function token _ _ => token
  | .call token _ _ => token

end Expression

namespace Statement

/-- The token that introduced a statement. -/
def token : Statement → Token
  | .binding token _ _ => token
  | .returning token _ => token
  | .expression token _ => token
  | .block inner => inner.token

end Statement

namespace Program

/-- The text of the token that introduced the first statement. -/
def originText (program : Program) : String :=
  match program.statements with
  | [] =>
      ""
  | first :: _ =>
      first.token.value

/-- A program without statements. -/
def isEmpty (program : Program) : Bool :=
  program.statements.isEmpty

end Program

end Scriptlet
