import Scriptlet.Fault
import Scriptlet.Value

namespace Scriptlet

/-!
# Operations on values

What the operators of the language compute.  Integer arithmetic wraps around at
sixty-four bits and quotients are cut off towards zero.  Operators that are not
defined for their operands are faults that name the operand types.
-/

namespace Value

/-- An operator in front of its operand. -/
def applyPrefix (operator : String) (right : Value) : Except Fault Value :=
  if operator = "!" then
    .ok (.boolean (!right.isTruthy))
  else
    match operator, right with
    | "-", .integer value =>
        .ok (.integer (-value))
    | _, _ =>
        .error (.unknownOperator (operator ++ right.typeName))

/-- The fault of an operator that is not defined for its operands. -/
def unknownBinary (operator left right : String) : Fault :=
  .unknownOperator (left ++ " " ++ operator ++ " " ++ right)

/-- An operator between two integers. -/
def applyIntegers (operator : String) (left right : Int64) : Except Fault Value :=
  match operator with
  | "+" => .ok (.integer (left + right))
  | "-" => .ok (.integer (left - right))
  | "*" => .ok (.integer (left * right))
  | "/" =>
      if right = 0 then
        .error .divisionByZero
      else
        .ok (.integer (left / right))
  | "<" => .ok (.boolean (decide (left < right)))
  | ">" => .ok (.boolean (decide (right < left)))
  | "==" => .ok (.boolean (left == right))
  | "!=" => .ok (.boolean (left != right))
  | _ => .error (unknownBinary operator "INTEGER" "INTEGER")

/-- An operator between two strings. -/
def applyStrings (operator : String) (left right : String) : Except Fault Value :=
  match operator with
  | "+" => .ok (.string (left ++ right))
  | "==" => .ok (.boolean (left == right))
  | "!=" => .ok (.boolean (left != right))
  | _ => .error (unknownBinary operator "STRING" "STRING")

/-- An operator between two booleans. -/
def applyBooleans (operator : String) (left right : Bool) : Except Fault Value :=
  match operator with
  | "==" => .ok (.boolean (left == right))
  | "!=" => .ok (.boolean (left != right))
  | _ => .error (unknownBinary operator "BOOLEAN" "BOOLEAN")

/-- An operator between values of which nothing but equality is known. -/
def applyOthers (operator : String) (left right : Value) : Except Fault Value :=
  match operator with
  | "==" => .ok (.boolean (left.same right))
  | "!=" => .ok (.boolean (!left.same right))
  | _ =>
      if left.typeName = right.typeName then
        .error (unknownBinary operator left.typeName right.typeName)
      else
        .error (.typeMismatch left.typeName operator right.typeName)

/-- An operator between its operands. -/
def applyBinary (operator : String) (left right : Value) : Except Fault Value :=
  match left, right with
  | .integer leftValue, .integer rightValue =>
      applyIntegers operator leftValue rightValue
  | .string leftValue, .string rightValue =>
      applyStrings operator leftValue rightValue
  | .boolean leftValue, .boolean rightValue =>
      applyBooleans operator leftValue rightValue
  | _, _ =>
      applyOthers operator left right

end Value

end Scriptlet
