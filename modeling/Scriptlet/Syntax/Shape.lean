import Scriptlet.Syntax

namespace Scriptlet

/-!
# Equality of trees

Two trees have the same shape when they are built alike from the same names,
literals and operators.  The tokens of their nodes play no part.
-/

/-- Two names are the same when they read the same. -/
def Name.sameShape (left right : Name) : Bool :=
  left.value == right.value

/-- Two parameter lists are the same when they list the same names. -/
def Name.sameShapes (left right : List Name) : Bool :=
  left.map Name.value == right.map Name.value

mutual

/-- Decide whether two expressions have the same shape. -/
def Expression.sameShape : Expression → Expression → Bool
  | .identifier leftName, other =>
      match other with
      | .identifier rightName =>
          leftName.sameShape rightName
      | _ =>
          false
  | .integer _ leftValue, other =>
      match other with
      | .integer _ rightValue =>
          leftValue == rightValue
      | _ =>
          false
  | .string _ leftValue, other =>
      match other with
      | .string _ rightValue =>
          leftValue == rightValue
      | _ =>
          false
  | .boolean _ leftValue, other =>
      match other with
      | .boolean _ rightValue =>
          leftValue == rightValue
      | _ =>
          false
  | .prefixed _ leftOperator leftRight, other =>
      match other with
      | .prefixed _ rightOperator rightRight =>
          leftOperator == rightOperator && leftRight.sameShape rightRight
      | _ =>
          false
  | .binary _ leftLeft leftOperator leftRight, other =>
      match other with
      | .binary _ rightLeft rightOperator rightRight =>
          leftLeft.sameShape rightLeft && leftOperator == rightOperator &&
            leftRight.sameShape rightRight
      | _ =>
          false
  | .conditional _ leftCondition leftConsequence leftAlternative?, other =>
      match other with
      | .conditional _ rightCondition rightConsequence rightAlternative? =>
          leftCondition.sameShape rightCondition &&
            leftConsequence.sameShape rightConsequence &&
            Block.sameShape? leftAlternative? rightAlternative?
      | _ =>
          false
  | .function _ leftParameters leftBody, other =>
      match other with
      | .function _ rightParameters rightBody =>
          Name.sameShapes leftParameters rightParameters &&
            leftBody.sameShape rightBody
      | _ =>
          false
  | .call _ leftCallee leftArguments, other =>
      match other with
      | .call _ rightCallee rightArguments =>
          leftCallee.sameShape rightCallee &&
            Expression.sameShapes leftArguments rightArguments
      | _ =>
          false

/-- Decide whether two expression lists have the same shapes in order. -/
def Expression.sameShapes : List Expression → List Expression → Bool
  | [], other =>
      other.isEmpty
  | leftFirst :: leftRest, other =>
      match other with
      | [] =>
          false
      | rightFirst :: rightRest =>
          leftFirst.sameShape rightFirst &&
            Expression.sameShapes leftRest rightRest

/-- Decide whether two statements have the same shape. -/
def Statement.sameShape : Statement → Statement → Bool
  | .binding _ leftName leftValue, other =>
      match other with
      | .binding _ rightName rightValue =>
          leftName.sameShape rightName && leftValue.sameShape rightValue
      | _ =>
          false
  | .returning _ leftValue, other =>
      match other with
      | .returning _ rightValue =>
          leftValue.sameShape rightValue
      | _ =>
          false
  | .expression _ leftExpression, other =>
      match other with
      | .expression _ rightExpression =>
          leftExpression.sameShape rightExpression
      | _ =>
          false
  | .block leftBlock, other =>
      match other with
      | .block rightBlock =>
          leftBlock.sameShape rightBlock
      | _ =>
          false

/-- Decide whether two statement lists have the same shapes in order. -/
def Statement.sameShapes : List Statement → List Statement → Bool
  | [], other =>
      other.isEmpty
  | leftFirst :: leftRest, other =>
      match other with
      | [] =>
          false
      | rightFirst :: rightRest =>
          leftFirst.sameShape rightFirst &&
            Statement.sameShapes leftRest rightRest

/-- Decide whether two blocks have the same shape. -/
def Block.sameShape : Block → Block → Bool
  | ⟨_, leftStatements⟩, other =>
      Statement.sameShapes leftStatements other.statements

/-- Decide whether two optional blocks are both missing or have the same shape. -/
def Block.sameShape? : Option Block → Option Block → Bool
  | none, other =>
      other.isNone
  | some leftBlock, other =>
      match other with
      | none =>
          false
      | some rightBlock =>
          leftBlock.sameShape rightBlock

end

/-- Decide whether two programs have the same shape. -/
def Program.sameShape (left right : Program) : Bool :=
  Statement.sameShapes left.statements right.statements

end Scriptlet
