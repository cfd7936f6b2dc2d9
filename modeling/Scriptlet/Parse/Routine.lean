import Scriptlet.Parse
import Scriptlet.Syntax
import Scriptlet.Text.Decimal

namespace Scriptlet

/-!
# Routines for the forms of the grammar

One routine per form of expression and statement.  A routine starts on the
first token of its form and stops on the last one.  What is nested in a form is
read by routines given as an argument, so that each form can be understood
without the others.
-/

/-- The routines for what is nested in a form. -/
structure Routines (σ : Type) where
  expression : Precedence → Step σ Expression
  block : Step σ Block

namespace Parse

variable {σ α : Type} [Place σ]

/-- An identifier. -/
def identifier : Step σ Expression := do
  return .identifier (Name.ofToken (← current))

/-- An integer, which has to fit into sixty-four bits. -/
def integer : Step σ Expression := do
  let token ← current
  match Text.readInteger? token.value with
  | some value =>
      return .integer token value
  | none =>
      reject (.integerLiteral token.value) token.start

/-- A string. -/
def string : Step σ Expression := do
  let token ← current
  return .string token token.value

/-- A boolean. -/
def boolean : Step σ Expression := do
  let token ← current
  return .boolean token (token.kind == .trueWord)

/-- An operator in front of its operand. -/
def prefixed (routines : Routines σ) : Step σ Expression := do
  let operator ← advance
  let right ← routines.expression .unary
  return .prefixed operator operator.value right

/-- An expression in parentheses, which leave no node of their own. -/
def grouping (routines : Routines σ) : Step σ Expression := do
  let _ ← advance
  let inner ← routines.expression .lowest
  let _ ← expect .closeParen
  return inner

/-- The alternative of a conditional, if there is one. -/
def alternative (routines : Routines σ) : Step σ (Option Block) := do
  if (← peekKind) = .elseWord then
    let _ ← advance
    let _ ← expect .openCurly
    return some (← routines.block)
  else
    return none

/-- A conditional. -/
def conditional (routines : Routines σ) : Step σ Expression := do
  let token ← current
  let _ ← expect .openParen
  let _ ← advance
  let condition ← routines.expression .lowest
  let _ ← expect .closeParen
  let _ ← expect .openCurly
  let consequence ← routines.block
  let alternative? ← alternative routines
  return .conditional token condition consequence alternative?

/-- At most `count` more parameters, each after a comma. -/
def moreParameters : Nat → Step σ (List Name)
  | 0 =>
      return []
  | count + 1 => do
      if (← peekKind) = .comma then
        let _ ← advance
        let token ← expect .identifier
        (Name.ofToken token :: ·) <$> andSoOn count (moreParameters count)
      else
        return []

/-- Parameters, from the opening parenthesis to the closing one. -/
def parameters : Step σ (List Name) := do
  if (← peekKind) = .closeParen then
    let _ ← advance
    return []
  else
    let token ← expect .identifier
    let rest ← moreParameters (← rounds)
    let _ ← expect .closeParen
    return Name.ofToken token :: rest

/-- A function. -/
def function (routines : Routines σ) : Step σ Expression := do
  let token ← current
  let _ ← expect .openParen
  let names ← parameters
  let _ ← expect .openCurly
  let body ← routines.block
  return .function token names body

/-- An operator between its operands, of which the left one is given. -/
def binary
    (routines : Routines σ)
    (left : Expression)
    (precedence : Precedence) :
    Step σ Expression := do
  let operator ← advance
  let right ← routines.expression precedence
  return .binary operator left operator.value right

/-- At most `count` more arguments, each after a comma. -/
def moreArguments (routines : Routines σ) : Nat → Step σ (List Expression)
  | 0 =>
      return []
  | count + 1 => do
      if (← peekKind) = .comma then
        let _ ← advance
        let _ ← advance
        let argument ← routines.expression .lowest
        (argument :: ·) <$> andSoOn count (moreArguments routines count)
      else
        return []

/-- Arguments, from the opening parenthesis to the closing one. -/
def arguments (routines : Routines σ) : Step σ (List Expression) := do
  if (← peekKind) = .closeParen then
    let _ ← advance
    return []
  else
    let _ ← advance
    let argument ← routines.expression .lowest
    let rest ← moreArguments routines (← rounds)
    let _ ← expect .closeParen
    return argument :: rest

/-- A call, whose callee is given. -/
def call (routines : Routines σ) (callee : Expression) : Step σ Expression := do
  let token ← current
  let values ← arguments routines
  return .call token callee values

/-- The operand of a given form. -/
def operandOf (routines : Routines σ) : OperandForm → Step σ Expression
  | .identifier => identifier
  | .integer => integer
  | .string => string
  | .boolean => boolean
  | .prefixed => prefixed routines
  | .grouping => grouping routines
  | .conditional => conditional routines
  | .function => function routines

/-- An expression up to its first operator. -/
def operand (routines : Routines σ) : Step σ Expression := do
  let token ← current
  match token.kind.operandForm? with
  | some form =>
      operandOf routines form
  | none =>
      reject (.noExpression token.kind) token.start

/-- An operator of a given form, applied to the expression to its left. -/
def operatorOf
    (routines : Routines σ)
    (left : Expression)
    (precedence : Precedence) :
    OperatorForm → Step σ Expression
  | .binary => binary routines left precedence
  | .call => call routines left

/--
Apply the next operator if it binds tighter than `bound`.  Otherwise the
expression to its left is complete.
-/
def operatorOr
    (bound : Precedence)
    (left : Expression)
    (apply : OperatorForm → Precedence → Step σ Expression) :
    Step σ Expression := do
  let next ← peekKind
  match next.operatorForm? with
  | none =>
      return left
  | some form =>
      if bound < next.precedence then
        descend .operator
        apply form next.precedence
      else
        return left

/-- A binding of a name to a value. -/
def binding (routines : Routines σ) : Step σ Statement := do
  let token ← current
  let name ← expect .identifier
  let _ ← expect .assignment
  let _ ← advance
  let value ← routines.expression .lowest
  skipSemicolon
  return .binding token (Name.ofToken name) value

/-- A return of a value. -/
def returning (routines : Routines σ) : Step σ Statement := do
  let token ← advance
  let value ← routines.expression .lowest
  skipSemicolon
  return .returning token value

/-- An expression as a statement. -/
def expressionStatement (routines : Routines σ) : Step σ Statement := do
  let token ← current
  let value ← routines.expression .lowest
  skipSemicolon
  return .expression token value

/-- The statement of a given form, or an expression where there is none. -/
def statementOf (routines : Routines σ) : Option StatementForm → Step σ Statement
  | some .binding => binding routines
  | some .returning => returning routines
  | none => expressionStatement routines

/-- Close a statement: tell where it started and whether it is kept. -/
def closing (step : Step σ α) : Step σ α :=
  fun start =>
    let outcome := step start
    { outcome with
      events :=
        outcome.events ++
          [.closed (Place.passed start) outcome.result?.isSome] }

/-- A statement, through its semicolon if it has one. -/
def statement (routines : Routines σ) : Step σ Statement :=
  closing do
    let kind ← currentKind
    let form? := kind.statementForm?
    if form?.isSome then
      emit (.recognised kind)
    statementOf routines form?

/--
At most `count` statements, up to a closing curly bracket or the end of input.
Statements that cannot be read are dropped.
-/
def statements (routines : Routines σ) : Nat → Step σ (List Statement)
  | 0 =>
      return []
  | count + 1 => do
      let kind ← currentKind
      if kind = .closeCurly ∨ kind = .endOfInput then
        return []
      else
        let statement? ← attempt (statement routines)
        let _ ← advance
        (statement?.toList ++ ·) <$> andSoOn count (statements routines count)

/--
The inside of a block, from its opening bracket to its closing one.  The end of
input closes a block too, unless blocks are strict.
-/
def blockBody (strictBlocks : Bool) (routines : Routines σ) : Step σ Block := do
  let token ← advance
  let inner ← statements routines (← rounds)
  let final ← current
  if strictBlocks = true ∧ final.kind = .endOfInput then
    reject (.expectedToken .closeCurly .endOfInput) final.start
  else
    return ⟨token, inner⟩

end Parse

end Scriptlet
