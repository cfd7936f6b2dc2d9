import Scriptlet.Proofs.Return.Encoding

namespace Scriptlet

/-!
# Marked values are never handed to an operation

Evaluation puts values to use in five ways: as operands of a prefix or of a
binary operator, as callee and arguments of a call, bound to a name, and marked
for a `return`.  Here evaluation is spelled out with these operations as an
argument.  Whatever they do with marked values, as long as they do to unmarked
ones what the language does, the evaluation is the same: so no marked value is
ever handed to one of them.
-/

/-- The operations that evaluation hands values to. -/
structure Operations where
  applyPrefix : String → Value → Except Fault Value
  applyBinary : String → Value → Value → Except Fault Value
  bindName : ScopeId → String → Value → Evaluation Unit
  mark : Value → Value
  applyWith : (Block → ScopeId → Evaluation Value) → Application

/-- The operations do to unmarked values what the language does. -/
structure Operations.FitUnmarked (operations : Operations) : Prop where
  applyPrefix :
    ∀ operator right,
      right.Unmarked →
        operations.applyPrefix operator right = Value.applyPrefix operator right
  applyBinary :
    ∀ operator left right,
      left.Unmarked → right.Unmarked →
        operations.applyBinary operator left right =
          Value.applyBinary operator left right
  bindName :
    ∀ scope name value,
      value.Unmarked →
        operations.bindName scope name value =
          Evaluation.bindName scope name value
  mark :
    ∀ value,
      value.Unmarked →
        operations.mark value = .returned value
  applyWith :
    ∀ runBody callee arguments token,
      callee.Unmarked → (∀ argument ∈ arguments, argument.Unmarked) →
        operations.applyWith runBody callee arguments token =
          Evaluation.applyWith runBody callee arguments token

open Evaluation

mutual

/-- Evaluate an expression with given operations. -/
def Expression.evaluateWith
    (operations : Operations)
    (apply : Application)
    (scope : ScopeId) :
    Expression → Evaluation Value
  | .identifier name => do
      match ← lookup? scope name.value with
      | some value =>
          return value
      | none =>
          faultAt name.token (.unknownIdentifier name.value)
  | .integer _ value =>
      return .integer value
  | .string _ value =>
      return .string value
  | .boolean _ value =>
      return .boolean value
  | .prefixed token operator right => do
      useValue (← right.evaluateWith operations apply scope) fun rightValue =>
        ofOperation token (operations.applyPrefix operator rightValue)
  | .binary token left operator right => do
      useValue (← left.evaluateWith operations apply scope) fun leftValue => do
        useValue (← right.evaluateWith operations apply scope) fun rightValue =>
          ofOperation token
            (operations.applyBinary operator leftValue rightValue)
  | .conditional _ condition consequence alternative? => do
      useValue (← condition.evaluateWith operations apply scope)
        fun conditionValue =>
          if conditionValue.isTruthy then
            consequence.evaluateWith operations apply scope
          else
            Block.evaluateWith? operations apply scope alternative?
  | .function _ parameters body =>
      return .function ⟨parameters, body, scope⟩
  | .call token callee arguments => do
      useValue (← callee.evaluateWith operations apply scope)
        fun calleeValue => do
          match ← Expression.evaluateAllWith operations apply scope arguments with
          | .values values =>
              apply calleeValue values token
          | .interrupted value =>
              return value

/-- Evaluate operands with given operations. -/
def Expression.evaluateAllWith
    (operations : Operations)
    (apply : Application)
    (scope : ScopeId) :
    List Expression → Evaluation Operands
  | [] =>
      return .values []
  | first :: rest => do
      match ← first.evaluateWith operations apply scope with
      | .returned value =>
          return .interrupted (.returned value)
      | firstValue =>
          match ← Expression.evaluateAllWith operations apply scope rest with
          | .values values =>
              return .values (firstValue :: values)
          | .interrupted value =>
              return .interrupted value

/-- Evaluate a statement with given operations. -/
def Statement.evaluateWith
    (operations : Operations)
    (apply : Application)
    (scope : ScopeId) :
    Statement → Evaluation Value
  | .binding _ name value => do
      useValue (← value.evaluateWith operations apply scope) fun bound => do
        operations.bindName scope name.value bound
        return .null
  | .returning _ value => do
      useValue (← value.evaluateWith operations apply scope) fun result =>
        return operations.mark result
  | .expression _ inner =>
      inner.evaluateWith operations apply scope
  | .block inner =>
      inner.evaluateWith operations apply scope

/-- Evaluate statements with given operations. -/
def Statement.evaluateAllWith
    (operations : Operations)
    (apply : Application)
    (scope : ScopeId) :
    List Statement → Value → Evaluation Value
  | [], last =>
      return last
  | first :: rest, _ => do
      useValue (← first.evaluateWith operations apply scope) fun value =>
        Statement.evaluateAllWith operations apply scope rest value

/-- Evaluate a block with given operations. -/
def Block.evaluateWith
    (operations : Operations)
    (apply : Application)
    (scope : ScopeId) :
    Block → Evaluation Value
  | ⟨_, statements⟩ =>
      Statement.evaluateAllWith operations apply scope statements .null

/-- Evaluate a block if there is one, with given operations. -/
def Block.evaluateWith?
    (operations : Operations)
    (apply : Application)
    (scope : ScopeId) :
    Option Block → Evaluation Value
  | none =>
      return .null
  | some block =>
      block.evaluateWith operations apply scope

end

/-- Calls with given operations, at most `limit` of them active at a time. -/
def Operations.applyWithin (operations : Operations) : Nat → Application
  | 0 =>
      operations.applyWith fun _ _ => fail .tooManyCalls
  | limit + 1 =>
      operations.applyWith fun body scope =>
        body.evaluateWith operations (operations.applyWithin limit) scope

/-- Evaluate a program with given operations. -/
def Program.evaluateWith
    (operations : Operations)
    (limit : Nat)
    (scope : ScopeId)
    (program : Program) :
    Evaluation Value := do
  let value ←
    Statement.evaluateAllWith operations (operations.applyWithin limit) scope
      program.statements .null
  return value.unmarked

namespace Evaluation

/-- What a value is used for matters only where it is not marked. -/
theorem useValue_congr
    {step : Evaluation Value}
    {use otherUse : Value → Evaluation Value}
    (same : ∀ value, value.Unmarked → use value = otherUse value) :
    (step >>= fun value => useValue value use) =
      step >>= fun value => useValue value otherUse := by
  congr 1
  funext value
  cases value with
  | returned inner =>
      rfl
  | _ =>
      exact same _ trivial

end Evaluation

/-- Operands that are all there are unmarked. -/
theorem Expression.unmarked_of_evaluateAll
    {apply : Application}
    {scope : ScopeId}
    {trees : List Expression}
    {values : List Value}
    {heap after : Heap}
    (ends :
      Expression.evaluateAll apply scope trees heap = ⟨.ok (.values values), after⟩) :
    ∀ value ∈ values, value.Unmarked := by
  induction trees generalizing values heap after with
  | nil =>
      rw [Expression.evaluateAll] at ends
      cases ends
      simp
  | cons first rest inductionHypothesis =>
      rw [Expression.evaluateAll] at ends
      obtain ⟨firstValue, middle, -, ends⟩ := bind_eq_ok_iff.mp ends
      split at ends
      · cases ends
      · rename_i unmarked
        obtain ⟨operands, later, evaluated, ends⟩ := bind_eq_ok_iff.mp ends
        cases operands with
        | interrupted value =>
            cases ends
        | values others =>
            cases ends
            intro value member
            rcases List.mem_cons.mp member with rfl | inOthers
            · cases value with
              | returned inner =>
                  exact (unmarked inner rfl).elim
              | _ =>
                  exact trivial
            · exact inductionHypothesis evaluated value inOthers

section Trees

variable
  {operations : Operations}
  {apply otherApply : Application}
  {scope : ScopeId}

/-- Two ways to call are the same where callee and arguments are unmarked. -/
def Application.SameOnUnmarked (apply otherApply : Application) : Prop :=
  ∀ callee arguments token,
    callee.Unmarked → (∀ argument ∈ arguments, argument.Unmarked) →
      apply callee arguments token = otherApply callee arguments token

mutual

theorem Expression.evaluateWith_eq
    (fit : operations.FitUnmarked)
    (applied : apply.SameOnUnmarked otherApply) :
    (tree : Expression) →
      tree.evaluateWith operations apply scope = tree.evaluate otherApply scope
  | .identifier _ => by
      rewrite [Expression.evaluateWith, Expression.evaluate]
      rfl
  | .integer _ _ => by
      rw [Expression.evaluateWith, Expression.evaluate]
  | .string _ _ => by
      rw [Expression.evaluateWith, Expression.evaluate]
  | .boolean _ _ => by
      rw [Expression.evaluateWith, Expression.evaluate]
  | .prefixed token operator right => by
      rw [Expression.evaluateWith, Expression.evaluate,
        right.evaluateWith_eq fit applied]
      apply useValue_congr
      intro rightValue rightUnmarked
      rw [fit.applyPrefix operator rightValue rightUnmarked]
  | .binary token left operator right => by
      rw [Expression.evaluateWith, Expression.evaluate,
        left.evaluateWith_eq fit applied, right.evaluateWith_eq fit applied]
      apply useValue_congr
      intro leftValue leftUnmarked
      apply useValue_congr
      intro rightValue rightUnmarked
      rw [fit.applyBinary operator leftValue rightValue leftUnmarked rightUnmarked]
  | .conditional _ condition consequence alternative? => by
      rw [Expression.evaluateWith, Expression.evaluate,
        condition.evaluateWith_eq fit applied,
        consequence.evaluateWith_eq fit applied,
        Block.evaluateWith?_eq fit applied alternative?]
  | .function _ _ _ => by
      rw [Expression.evaluateWith, Expression.evaluate]
  | .call token callee arguments => by
      rw [Expression.evaluateWith, Expression.evaluate,
        callee.evaluateWith_eq fit applied,
        Expression.evaluateAllWith_eq fit applied arguments]
      apply useValue_congr
      intro calleeValue calleeUnmarked
      funext heap
      simp only [bind, andThen]
      split
      · rfl
      · rename_i operands after evaluated
        cases operands with
        | values values =>
            have unmarked := Expression.unmarked_of_evaluateAll evaluated
            exact congrFun
              (applied calleeValue values token calleeUnmarked unmarked) after
        | interrupted value =>
            rfl

theorem Expression.evaluateAllWith_eq
    (fit : operations.FitUnmarked)
    (applied : apply.SameOnUnmarked otherApply) :
    (trees : List Expression) →
      Expression.evaluateAllWith operations apply scope trees =
        Expression.evaluateAll otherApply scope trees
  | [] => by
      rw [Expression.evaluateAllWith, Expression.evaluateAll]
  | first :: rest => by
      rewrite [Expression.evaluateAllWith, Expression.evaluateAll,
        first.evaluateWith_eq fit applied,
        Expression.evaluateAllWith_eq fit applied rest]
      rfl

theorem Statement.evaluateWith_eq
    (fit : operations.FitUnmarked)
    (applied : apply.SameOnUnmarked otherApply) :
    (tree : Statement) →
      tree.evaluateWith operations apply scope = tree.evaluate otherApply scope
  | .binding _ name value => by
      rw [Statement.evaluateWith, Statement.evaluate,
        value.evaluateWith_eq fit applied]
      apply useValue_congr
      intro bound unmarked
      rw [fit.bindName scope name.value bound unmarked]
  | .returning _ value => by
      rw [Statement.evaluateWith, Statement.evaluate,
        value.evaluateWith_eq fit applied]
      apply useValue_congr
      intro result unmarked
      rw [fit.mark result unmarked]
  | .expression _ inner => by
      rw [Statement.evaluateWith, Statement.evaluate,
        inner.evaluateWith_eq fit applied]
  | .block inner => by
      rw [Statement.evaluateWith, Statement.evaluate,
        inner.evaluateWith_eq fit applied]

theorem Statement.evaluateAllWith_eq
    (fit : operations.FitUnmarked)
    (applied : apply.SameOnUnmarked otherApply) :
    (trees : List Statement) →
      (last : Value) →
        Statement.evaluateAllWith operations apply scope trees last =
          Statement.evaluateAll otherApply scope trees last
  | [], _ => by
      rw [Statement.evaluateAllWith, Statement.evaluateAll]
  | first :: rest, _ => by
      rw [Statement.evaluateAllWith, Statement.evaluateAll,
        first.evaluateWith_eq fit applied]
      apply useValue_congr
      intro value _
      exact Statement.evaluateAllWith_eq fit applied rest value

theorem Block.evaluateWith_eq
    (fit : operations.FitUnmarked)
    (applied : apply.SameOnUnmarked otherApply) :
    (tree : Block) →
      tree.evaluateWith operations apply scope = tree.evaluate otherApply scope
  | ⟨_, statements⟩ => by
      rw [Block.evaluateWith, Block.evaluate,
        Statement.evaluateAllWith_eq fit applied statements .null]

theorem Block.evaluateWith?_eq
    (fit : operations.FitUnmarked)
    (applied : apply.SameOnUnmarked otherApply) :
    (tree? : Option Block) →
      Block.evaluateWith? operations apply scope tree? =
        Block.evaluate? otherApply scope tree?
  | none => by
      rw [Block.evaluateWith?, Block.evaluate?]
  | some tree => by
      rw [Block.evaluateWith?, Block.evaluate?, tree.evaluateWith_eq fit applied]

end

end Trees

namespace Operations

/-- However deep they nest, calls are the same on unmarked values. -/
theorem FitUnmarked.applyWithin
    {operations : Operations}
    (fit : operations.FitUnmarked)
    (limit : Nat) :
    (operations.applyWithin limit).SameOnUnmarked
      (Evaluation.applyWithin limit) := by
  induction limit with
  | zero =>
      exact fit.applyWith _
  | succ limit inductionHypothesis =>
      rw [applyWithin_succ, Operations.applyWithin]
      simp only [Block.evaluateWith_eq fit inductionHypothesis]
      exact fit.applyWith _

end Operations

/-- A program means the same whatever operations do with marked values. -/
theorem Program.evaluateWith_eq
    {operations : Operations}
    (fit : operations.FitUnmarked)
    (limit : Nat)
    (scope : ScopeId)
    (program : Program) :
    program.evaluateWith operations limit scope =
      program.evaluate limit scope := by
  rw [Program.evaluateWith, Program.evaluate,
    Statement.evaluateAllWith_eq fit (fit.applyWithin limit)]

end Scriptlet
