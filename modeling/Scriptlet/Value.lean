import Scriptlet.Syntax.Canonical
import Scriptlet.Syntax.Record
import Scriptlet.Syntax.Shape

namespace Scriptlet

/-!
# Values

What expressions evaluate to.  A function remembers the scope it was written
in by the identity of that scope, so two functions are equal only when they
share it.  A value on its way out of a `return` is marked as such until the
enclosing call or the program takes the mark off.
-/

/-- The identity of a scope. -/
abbrev ScopeId :=
  Nat

/-- A function together with the scope it was written in. -/
structure Closure where
  parameters : List Name
  body : Block
  scope : ScopeId

/-- The values of the language. -/
inductive Value where
  | integer (value : Int64)
  | boolean (value : Bool)
  | string (value : String)
  | null
  | returned (value : Value)
  | function (closure : Closure)

namespace Closure

/-- A function as it is printed. -/
def text (closure : Closure) : String :=
  "fn(" ++ Name.canonicalList closure.parameters ++ ") " ++
    closure.body.canonical

/-- A function in record notation; its scope is left out. -/
def record (closure : Closure) : String :=
  Text.partialRecordOf "FunctionValue"
    [ ("parameters", Text.listOf (closure.parameters.map Name.record)),
      ("body", closure.body.record) ]

/-- Functions are equal when they share their scope and their shape. -/
def same (left right : Closure) : Bool :=
  left.scope == right.scope &&
    Name.sameShapes left.parameters right.parameters &&
    left.body.sameShape right.body

end Closure

namespace Value

/-- The name of the type of a value. -/
def typeName : Value → String
  | .integer _ => "INTEGER"
  | .boolean _ => "BOOLEAN"
  | .string _ => "STRING"
  | .null => "NULL"
  | .returned _ => "RETURN_VALUE"
  | .function _ => "FUNCTION"

/-- Only `false` and `null` count as false. -/
def isTruthy : Value → Bool
  | .boolean false => false
  | .null => false
  | _ => true

/-- A value as it is printed. -/
def text : Value → String
  | .integer value => toString value.toInt
  | .boolean value => if value then "true" else "false"
  | .string value => value
  | .null => "null"
  | .returned value => value.text
  | .function closure => closure.text

/-- A value in record notation. -/
def record : Value → String
  | .integer value =>
      Text.appliedTo "Integer" [toString value.toInt]
  | .boolean value =>
      Text.appliedTo "Boolean" [if value then "true" else "false"]
  | .string value =>
      Text.appliedTo "String" [Text.quoted value]
  | .null =>
      "Null"
  | .returned value =>
      Text.appliedTo "Return" [value.record]
  | .function closure =>
      Text.appliedTo "Function" [closure.record]

/-- Decide whether two values are equal; values of two types never are. -/
def same : Value → Value → Bool
  | .integer left, .integer right => left == right
  | .boolean left, .boolean right => left == right
  | .string left, .string right => left == right
  | .null, .null => true
  | .returned left, .returned right => left.same right
  | .function left, .function right => left.same right
  | _, _ => false

/-- Take the mark of a `return` off a value. -/
def unmarked : Value → Value
  | .returned value => value
  | value => value

end Value

end Scriptlet
