import Scriptlet.Text.Quoted
import Scriptlet.Token

namespace Scriptlet

/-!
# Faults and diagnostics

A fault is a cause of failure: of reading a program or of evaluating it.  A
diagnostic is a fault at a position.  The wording of a fault does not depend on
the position, which is reported separately, and some faults come with a tip for
the reader.
-/

/-- What can be wrong with a program, or go wrong while it is evaluated. -/
inductive Fault where
  | expectedToken (expected found : TokenKind)
  | noExpression (kind : TokenKind)
  | integerLiteral (literal : String)
  | nestingTooDeep (limit : Nat)
  | unknownIdentifier (name : String)
  | typeMismatch (left operator right : String)
  | unknownOperator (operator : String)
  | divisionByZero
  | notAFunction (value : String)
  | argumentCount (expected received : Nat)
  deriving Repr, DecidableEq

namespace Fault

/-- The name of the class a fault belongs to. -/
def name : Fault → String
  | .expectedToken .. => "ExpectedToken"
  | .noExpression .. => "NoPrefixParseFn"
  | .integerLiteral .. => "IntegerParseError"
  | .nestingTooDeep .. => "NestingTooDeep"
  | .unknownIdentifier .. => "UnknownIdentifier"
  | .typeMismatch .. => "TypeMismatch"
  | .unknownOperator .. => "UnknownOperator"
  | .divisionByZero => "DivisionByZero"
  | .notAFunction .. => "NotAFunction"
  | .argumentCount .. => "ArgumentCount"

/-- The message a reader gets. -/
def message : Fault → String
  | .expectedToken expected found =>
      "expected next token to be " ++ expected.name ++
        "; got " ++ found.name ++ " instead"
  | .noExpression kind =>
      "no prefix parse function for " ++ kind.name ++ " found"
  | .integerLiteral literal =>
      "could not parse " ++ Text.quoted literal ++ " as integer"
  | .nestingTooDeep limit =>
      "expression nested deeper than " ++ toString limit ++ " levels"
  | .unknownIdentifier name =>
      "identifier not found: " ++ name
  | .typeMismatch left operator right =>
      "type mismatch: " ++ left ++ " " ++ operator ++ " " ++ right
  | .unknownOperator operator =>
      "unknown operator: " ++ operator
  | .divisionByZero =>
      "division by zero"
  | .notAFunction value =>
      "not a function: " ++ value
  | .argumentCount expected received =>
      "wrong number of arguments: expected " ++ toString expected ++
        ", received " ++ toString received

/-- A tip on a missing token, where the missing kind suggests one. -/
def missingTokenTip? (expected found : TokenKind) : Option String :=
  match expected, found with
  | .closeCurly, .endOfInput =>
      some "Block is missing its closing `\x7d`"
  | .closeParen, _ =>
      some "Is a `)` missing?"
  | .assignment, _ =>
      some "A let binding needs `=` between the name and the value"
  | _, _ =>
      none

/-- The tip that goes with a fault. -/
def tip? : Fault → Option String
  | .expectedToken expected found =>
      missingTokenTip? expected found
  | .noExpression kind =>
      some ("A `" ++ kind.name ++ "` token cannot start an expression")
  | .integerLiteral literal =>
      some ("Invalid number: `" ++ literal ++ "`, is it above the integer limit?")
  | .nestingTooDeep _ =>
      some "Break the expression up with let bindings"
  | .unknownIdentifier name =>
      some ("Variable `" ++ name ++ "` not declared")
  | .argumentCount expected received =>
      some ("Expected " ++ toString expected ++
        " arguments, received " ++ toString received)
  | .typeMismatch .. | .unknownOperator _ | .divisionByZero | .notAFunction _ =>
      none

end Fault

/-- A fault and the position it is reported at. -/
structure Diagnostic where
  fault : Fault
  position : Position
  deriving Repr, DecidableEq

namespace Diagnostic

/-- The message of the fault. -/
def message (diagnostic : Diagnostic) : String :=
  diagnostic.fault.message

end Diagnostic

end Scriptlet
