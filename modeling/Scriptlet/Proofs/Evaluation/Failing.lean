import Mathlib.Logic.Relation
import Scriptlet.Proofs.Return.Encoding

namespace Scriptlet

/-!
# Which expression an evaluation fails at

To evaluate a tree, its parts are evaluated, one after the other, each on the heap
that the one before has left; to evaluate a call, the body of a function is
evaluated in a new scope.  A task is something to be evaluated somewhere, and one
task demands another if that is evaluated on its way.

A task that ends in a fault does so because of one expression: an identifier that
is not bound, an operator that does not take its operands, or a call of what
cannot be called in this way.  This expression is the subject of a task that the
first task comes to demand, and the fault is reported at its token.
-/

open Evaluation

/-- The fault of the program that an evaluation ends in, if any. -/
def Evaluation.Outcome.fault? (outcome : Outcome Heap α) : Option Diagnostic :=
  match outcome.result with
  | .error (.fault diagnostic) => some diagnostic
  | _ => none

/-- What there is to evaluate. -/
inductive Subject where
  | expression (tree : Expression)
  | operands (trees : List Expression)
  | statement (tree : Statement)
  | statements (trees : List Statement)

/--
A subject to be evaluated in a scope, on a heap, with so many more calls that may
be active at a time.
-/
structure Task where
  limit : Nat
  scope : ScopeId
  heap : Heap
  subject : Subject

namespace Task

/-- The fault that doing a task ends in, if any. -/
def fault? (task : Task) : Option Diagnostic :=
  match task.subject with
  | .expression tree =>
      (tree.evaluate (applyWithin task.limit) task.scope task.heap).fault?
  | .operands trees =>
      (Expression.evaluateAll (applyWithin task.limit) task.scope trees
        task.heap).fault?
  | .statement tree =>
      (tree.evaluate (applyWithin task.limit) task.scope task.heap).fault?
  | .statements trees =>
      (Statement.evaluateAll (applyWithin task.limit) task.scope trees .null
        task.heap).fault?

theorem fault?_expression
    (limit : Nat)
    (scope : ScopeId)
    (heap : Heap)
    (tree : Expression) :
    fault? ⟨limit, scope, heap, .expression tree⟩ =
      (tree.evaluate (applyWithin limit) scope heap).fault? :=
  rfl

theorem fault?_operands
    (limit : Nat)
    (scope : ScopeId)
    (heap : Heap)
    (trees : List Expression) :
    fault? ⟨limit, scope, heap, .operands trees⟩ =
      (Expression.evaluateAll (applyWithin limit) scope trees heap).fault? :=
  rfl

theorem fault?_statement
    (limit : Nat)
    (scope : ScopeId)
    (heap : Heap)
    (tree : Statement) :
    fault? ⟨limit, scope, heap, .statement tree⟩ =
      (tree.evaluate (applyWithin limit) scope heap).fault? :=
  rfl

/-- The value that statements are given makes no difference to their failing. -/
theorem fault?_statements
    (limit : Nat)
    (scope : ScopeId)
    (heap : Heap)
    (trees : List Statement)
    (last : Value) :
    fault? ⟨limit, scope, heap, .statements trees⟩ =
      (Statement.evaluateAll (applyWithin limit) scope trees last
        heap).fault? := by
  cases trees with
  | nil =>
      simp only [fault?, Statement.evaluateAll]
      rfl
  | cons first rest =>
      simp only [fault?, Statement.evaluateAll]

/-- Doing the first task, one comes to do the second. -/
inductive Demands : Task → Task → Prop where
  | prefixedOperand
      {limit : Nat} {scope : ScopeId} {heap : Heap}
      {token : Token} {operator : String} {right : Expression} :
      Demands
        ⟨limit, scope, heap, .expression (.prefixed token operator right)⟩
        ⟨limit, scope, heap, .expression right⟩
  | leftOperand
      {limit : Nat} {scope : ScopeId} {heap : Heap}
      {token : Token} {operator : String} {left right : Expression} :
      Demands
        ⟨limit, scope, heap, .expression (.binary token left operator right)⟩
        ⟨limit, scope, heap, .expression left⟩
  | rightOperand
      {limit : Nat} {scope : ScopeId} {heap after : Heap}
      {token : Token} {operator : String} {left right : Expression}
      {value : Value}
      (leftEnds :
        left.evaluate (applyWithin limit) scope heap = ⟨.ok value, after⟩)
      (unmarked : value.Unmarked) :
      Demands
        ⟨limit, scope, heap, .expression (.binary token left operator right)⟩
        ⟨limit, scope, after, .expression right⟩
  | condition
      {limit : Nat} {scope : ScopeId} {heap : Heap}
      {token : Token} {condition : Expression} {consequence : Block}
      {alternative? : Option Block} :
      Demands
        ⟨limit, scope, heap,
          .expression (.conditional token condition consequence alternative?)⟩
        ⟨limit, scope, heap, .expression condition⟩
  | consequence
      {limit : Nat} {scope : ScopeId} {heap after : Heap}
      {token bracket : Token} {condition : Expression}
      {statements : List Statement} {alternative? : Option Block}
      {value : Value}
      (conditionEnds :
        condition.evaluate (applyWithin limit) scope heap = ⟨.ok value, after⟩)
      (unmarked : value.Unmarked)
      (truthy : value.isTruthy = true) :
      Demands
        ⟨limit, scope, heap,
          .expression
            (.conditional token condition ⟨bracket, statements⟩ alternative?)⟩
        ⟨limit, scope, after, .statements statements⟩
  | alternative
      {limit : Nat} {scope : ScopeId} {heap after : Heap}
      {token bracket : Token} {condition : Expression} {consequence : Block}
      {statements : List Statement} {value : Value}
      (conditionEnds :
        condition.evaluate (applyWithin limit) scope heap = ⟨.ok value, after⟩)
      (unmarked : value.Unmarked)
      (falsy : value.isTruthy = false) :
      Demands
        ⟨limit, scope, heap,
          .expression
            (.conditional token condition consequence
              (some ⟨bracket, statements⟩))⟩
        ⟨limit, scope, after, .statements statements⟩
  | callee
      {limit : Nat} {scope : ScopeId} {heap : Heap}
      {token : Token} {callee : Expression} {arguments : List Expression} :
      Demands
        ⟨limit, scope, heap, .expression (.call token callee arguments)⟩
        ⟨limit, scope, heap, .expression callee⟩
  | arguments
      {limit : Nat} {scope : ScopeId} {heap after : Heap}
      {token : Token} {callee : Expression} {arguments : List Expression}
      {value : Value}
      (calleeEnds :
        callee.evaluate (applyWithin limit) scope heap = ⟨.ok value, after⟩)
      (unmarked : value.Unmarked) :
      Demands
        ⟨limit, scope, heap, .expression (.call token callee arguments)⟩
        ⟨limit, scope, after, .operands arguments⟩
  | body
      {limit : Nat} {scope : ScopeId} {heap middle after : Heap}
      {token bracket : Token} {callee : Expression}
      {arguments : List Expression} {parameters : List Name}
      {statements : List Statement} {home : ScopeId} {values : List Value}
      (calleeEnds :
        callee.evaluate (applyWithin (limit + 1)) scope heap =
          ⟨.ok (.function ⟨parameters, ⟨bracket, statements⟩, home⟩), middle⟩)
      (argumentsEnd :
        Expression.evaluateAll (applyWithin (limit + 1)) scope arguments middle =
          ⟨.ok (.values values), after⟩)
      (count : parameters.length = values.length) :
      Demands
        ⟨limit + 1, scope, heap, .expression (.call token callee arguments)⟩
        ⟨limit, after.scopes.size,
          (after.add
            (Scope.ofCall ⟨parameters, ⟨bracket, statements⟩, home⟩ values)).2,
          .statements statements⟩
  | firstOperand
      {limit : Nat} {scope : ScopeId} {heap : Heap}
      {first : Expression} {rest : List Expression} :
      Demands
        ⟨limit, scope, heap, .operands (first :: rest)⟩
        ⟨limit, scope, heap, .expression first⟩
  | laterOperands
      {limit : Nat} {scope : ScopeId} {heap after : Heap}
      {first : Expression} {rest : List Expression} {value : Value}
      (firstEnds :
        first.evaluate (applyWithin limit) scope heap = ⟨.ok value, after⟩)
      (unmarked : value.Unmarked) :
      Demands
        ⟨limit, scope, heap, .operands (first :: rest)⟩
        ⟨limit, scope, after, .operands rest⟩
  | boundValue
      {limit : Nat} {scope : ScopeId} {heap : Heap}
      {token : Token} {name : Name} {value : Expression} :
      Demands
        ⟨limit, scope, heap, .statement (.binding token name value)⟩
        ⟨limit, scope, heap, .expression value⟩
  | returnedValue
      {limit : Nat} {scope : ScopeId} {heap : Heap}
      {token : Token} {value : Expression} :
      Demands
        ⟨limit, scope, heap, .statement (.returning token value)⟩
        ⟨limit, scope, heap, .expression value⟩
  | innerExpression
      {limit : Nat} {scope : ScopeId} {heap : Heap}
      {token : Token} {inner : Expression} :
      Demands
        ⟨limit, scope, heap, .statement (.expression token inner)⟩
        ⟨limit, scope, heap, .expression inner⟩
  | innerBlock
      {limit : Nat} {scope : ScopeId} {heap : Heap}
      {bracket : Token} {statements : List Statement} :
      Demands
        ⟨limit, scope, heap, .statement (.block ⟨bracket, statements⟩)⟩
        ⟨limit, scope, heap, .statements statements⟩
  | firstStatement
      {limit : Nat} {scope : ScopeId} {heap : Heap}
      {first : Statement} {rest : List Statement} :
      Demands
        ⟨limit, scope, heap, .statements (first :: rest)⟩
        ⟨limit, scope, heap, .statement first⟩
  | laterStatements
      {limit : Nat} {scope : ScopeId} {heap after : Heap}
      {first : Statement} {rest : List Statement} {value : Value}
      (firstEnds :
        first.evaluate (applyWithin limit) scope heap = ⟨.ok value, after⟩)
      (unmarked : value.Unmarked) :
      Demands
        ⟨limit, scope, heap, .statements (first :: rest)⟩
        ⟨limit, scope, after, .statements rest⟩

end Task

/-- A value that cannot be called with so many arguments, and why. -/
inductive Value.Refuses (count : Nat) : Value → Fault → Prop where
  | argumentCount
      {closure : Closure}
      (differs : closure.parameters.length ≠ count) :
      Refuses count (.function closure)
        (.argumentCount closure.parameters.length count)
  | notAFunction
      {value : Value}
      (other : ∀ closure, value ≠ .function closure) :
      Refuses count value (.notAFunction value.typeName)

/--
The expression itself fails: all of its parts have values, and what is to be done
with them is a fault.
-/
inductive Expression.FailsItself
    (limit : Nat)
    (scope : ScopeId)
    (heap : Heap) :
    Expression → Fault → Prop where
  | identifier
      {name : Name}
      (unbound : heap.lookup? scope name.value = none) :
      FailsItself limit scope heap (.identifier name)
        (.unknownIdentifier name.value)
  | prefixed
      {token : Token} {operator : String} {right : Expression}
      {value : Value} {after : Heap} {fault : Fault}
      (rightEnds :
        right.evaluate (applyWithin limit) scope heap = ⟨.ok value, after⟩)
      (unmarked : value.Unmarked)
      (refused : Value.applyPrefix operator value = .error fault) :
      FailsItself limit scope heap (.prefixed token operator right) fault
  | binary
      {token : Token} {operator : String} {left right : Expression}
      {leftValue rightValue : Value} {middle after : Heap} {fault : Fault}
      (leftEnds :
        left.evaluate (applyWithin limit) scope heap = ⟨.ok leftValue, middle⟩)
      (leftUnmarked : leftValue.Unmarked)
      (rightEnds :
        right.evaluate (applyWithin limit) scope middle =
          ⟨.ok rightValue, after⟩)
      (rightUnmarked : rightValue.Unmarked)
      (refused : Value.applyBinary operator leftValue rightValue = .error fault) :
      FailsItself limit scope heap (.binary token left operator right) fault
  | call
      {token : Token} {callee : Expression} {arguments : List Expression}
      {value : Value} {values : List Value} {middle after : Heap}
      {fault : Fault}
      (calleeEnds :
        callee.evaluate (applyWithin limit) scope heap = ⟨.ok value, middle⟩)
      (unmarked : value.Unmarked)
      (argumentsEnd :
        Expression.evaluateAll (applyWithin limit) scope arguments middle =
          ⟨.ok (.values values), after⟩)
      (refused : value.Refuses values.length fault) :
      FailsItself limit scope heap (.call token callee arguments) fault

namespace Evaluation

variable {heap : Heap} {diagnostic : Diagnostic}

/-- A sequence fails when its first part does, or the rest after it. -/
theorem fault?_bind
    {step : Evaluation α}
    {next : α → Evaluation β} :
    ((step >>= next) heap).fault? = some diagnostic ↔
      (step heap).fault? = some diagnostic ∨
        ∃ value middle,
          step heap = ⟨.ok value, middle⟩ ∧
            (next value middle).fault? = some diagnostic := by
  simp only [bind, andThen]
  rcases step heap with ⟨failure | value, middle⟩
  · cases failure <;> simp [Outcome.fault?]
  · constructor
    · intro failed
      exact .inr ⟨value, middle, rfl, failed⟩
    · rintro (ended | ⟨_, _, ⟨⟩, failed⟩)
      · cases ended
      · exact failed

/-- What hands on a `return` fails only in using a value that is none. -/
theorem fault?_useValue
    {step : Evaluation Value}
    {use : Value → Evaluation Value} :
    ((step >>= fun value => useValue value use) heap).fault? = some diagnostic ↔
      (step heap).fault? = some diagnostic ∨
        ∃ value middle,
          step heap = ⟨.ok value, middle⟩ ∧
            value.Unmarked ∧
            (use value middle).fault? = some diagnostic := by
  rw [fault?_bind]
  apply or_congr_right
  apply exists_congr
  intro value
  cases value with
  | returned inner =>
      simp [useValue, succeed, Outcome.fault?, Value.Unmarked]
  | _ =>
      simp [useValue, Value.Unmarked]

theorem fault?_faultAt
    {token : Token}
    {fault : Fault} :
    ((faultAt token fault : Evaluation α) heap).fault? = some diagnostic ↔
      diagnostic = ⟨fault, token.start⟩ := by
  simp [faultAt, fail, Outcome.fault?, eq_comm]

theorem fault?_ofOperation
    {token : Token}
    {result : Except Fault α} :
    (ofOperation token result heap).fault? = some diagnostic ↔
      ∃ fault, result = .error fault ∧ diagnostic = ⟨fault, token.start⟩ := by
  cases result with
  | ok value =>
      simp [ofOperation, succeed, Outcome.fault?]
  | error fault =>
      simp [ofOperation, fault?_faultAt]

/-- A call fails in the body of the function, or because it is refused. -/
theorem fault?_applyWith
    {runBody : Block → ScopeId → Evaluation Value}
    {callee : Value}
    {values : List Value}
    {token : Token}
    (failed :
      (applyWith runBody callee values token heap).fault? = some diagnostic) :
    (∃ closure,
      callee = .function closure ∧
        closure.parameters.length = values.length ∧
        (runBody closure.body heap.scopes.size
          (heap.add (Scope.ofCall closure values)).2).fault? = some diagnostic) ∨
      ∃ fault,
        callee.Refuses values.length fault ∧
          diagnostic = ⟨fault, token.start⟩ := by
  cases callee with
  | function closure =>
      by_cases count : closure.parameters.length = values.length
      · simp only [applyWith, count, ↓reduceIte] at failed
        rw [fault?_bind] at failed
        obtain never | ⟨scope, extended, added, failed⟩ := failed
        · cases never
        · cases added
          rw [fault?_bind] at failed
          obtain failed | ⟨value, after, -, never⟩ := failed
          · exact .inl ⟨closure, rfl, count, failed⟩
          · cases never
      · simp only [applyWith, count, ↓reduceIte] at failed
        exact .inr ⟨_, .argumentCount count, fault?_faultAt.mp failed⟩
  | _ =>
      exact .inr ⟨_, .notAFunction (fun _ => nofun), fault?_faultAt.mp failed⟩

/-- If no more calls are allowed, a call ends in a fault only if it is refused. -/
theorem fault?_applyWithin
    {limit : Nat}
    {callee : Value}
    {values : List Value}
    {token : Token}
    (failed :
      (applyWithin limit callee values token heap).fault? =
        some diagnostic) :
    (∃ fewer closure,
      limit = fewer + 1 ∧
        callee = .function closure ∧
        closure.parameters.length = values.length ∧
        (closure.body.evaluate (applyWithin fewer) heap.scopes.size
          (heap.add (Scope.ofCall closure values)).2).fault? =
            some diagnostic) ∨
      ∃ fault,
        callee.Refuses values.length fault ∧
          diagnostic = ⟨fault, token.start⟩ := by
  cases limit with
  | zero =>
      obtain ⟨_, _, _, never⟩ | ⟨fault, refused, same⟩ :=
        fault?_applyWith failed
      · cases never
      · exact .inr ⟨fault, refused, same⟩
  | succ fewer =>
      rw [applyWithin_succ] at failed
      obtain ⟨closure, isFunction, count, failed⟩ | ⟨fault, refused, same⟩ :=
        fault?_applyWith failed
      · exact .inl ⟨fewer, closure, rfl, isFunction, count, failed⟩
      · exact .inr ⟨fault, refused, same⟩

end Evaluation

namespace Task

variable
  {limit : Nat}
  {scope : ScopeId}
  {heap : Heap}
  {diagnostic : Diagnostic}

/-- The subject is an expression that fails itself, as the diagnostic tells. -/
def FailsAtSubject (diagnostic : Diagnostic) (task : Task) : Prop :=
  ∃ node,
    task.subject = .expression node ∧
      node.FailsItself task.limit task.scope task.heap diagnostic.fault ∧
      diagnostic.position = node.token.start

/-- The fault is the subject's own, or that of a task that is demanded. -/
def FailsFor (diagnostic : Diagnostic) (task : Task) : Prop :=
  task.FailsAtSubject diagnostic ∨
    ∃ next,
      task.Demands next ∧ next.fault? = some diagnostic

theorem failsFor_identifier
    {name : Name}
    (failed :
      fault? ⟨limit, scope, heap, .expression (.identifier name)⟩ =
        some diagnostic) :
    FailsFor diagnostic ⟨limit, scope, heap, .expression (.identifier name)⟩ := by
  rw [fault?_expression, Expression.evaluate, fault?_bind] at failed
  obtain never | ⟨found, middle, looked, failed⟩ := failed
  · cases never
  · cases looked
    rw [Heap.store_lookup?] at failed
    cases unbound : heap.lookup? scope name.value with
    | some value =>
        rw [unbound] at failed
        cases failed
    | none =>
        rw [unbound] at failed
        cases failed
        exact .inl ⟨_, rfl, .identifier unbound, rfl⟩

theorem failsFor_prefixed
    {token : Token}
    {operator : String}
    {right : Expression}
    (failed :
      fault?
          ⟨limit, scope, heap, .expression (.prefixed token operator right)⟩ =
        some diagnostic) :
    FailsFor diagnostic
      ⟨limit, scope, heap, .expression (.prefixed token operator right)⟩ := by
  rw [fault?_expression, Expression.evaluate, fault?_useValue] at failed
  obtain failed | ⟨value, after, rightEnds, unmarked, failed⟩ := failed
  · exact .inr ⟨_, .prefixedOperand, failed⟩
  · rw [fault?_ofOperation] at failed
    obtain ⟨fault, refused, ⟨⟩⟩ := failed
    exact .inl ⟨_, rfl, .prefixed rightEnds unmarked refused, rfl⟩

theorem failsFor_binary
    {token : Token}
    {operator : String}
    {left right : Expression}
    (failed :
      fault?
          ⟨limit, scope, heap, .expression (.binary token left operator right)⟩ =
        some diagnostic) :
    FailsFor diagnostic
      ⟨limit, scope, heap, .expression (.binary token left operator right)⟩ := by
  rw [fault?_expression, Expression.evaluate, fault?_useValue] at failed
  obtain failed | ⟨leftValue, middle, leftEnds, leftUnmarked, failed⟩ := failed
  · exact .inr ⟨_, .leftOperand, failed⟩
  · rw [fault?_useValue] at failed
    obtain failed | ⟨rightValue, after, rightEnds, rightUnmarked, failed⟩ := failed
    · exact .inr ⟨_, .rightOperand leftEnds leftUnmarked, failed⟩
    · rw [fault?_ofOperation] at failed
      obtain ⟨fault, refused, ⟨⟩⟩ := failed
      exact .inl ⟨_, rfl,
        .binary leftEnds leftUnmarked rightEnds rightUnmarked refused, rfl⟩

theorem failsFor_conditional
    {token : Token}
    {condition : Expression}
    {consequence : Block}
    {alternative? : Option Block}
    (failed :
      fault?
          ⟨limit, scope, heap,
            .expression
              (.conditional token condition consequence alternative?)⟩ =
        some diagnostic) :
    FailsFor diagnostic
      ⟨limit, scope, heap,
        .expression (.conditional token condition consequence alternative?)⟩ := by
  rw [fault?_expression, Expression.evaluate, fault?_useValue] at failed
  obtain failed | ⟨value, after, conditionEnds, unmarked, failed⟩ := failed
  · exact .inr ⟨_, .condition, failed⟩
  · by_cases truthy : value.isTruthy = true
    · rw [if_pos truthy] at failed
      obtain ⟨bracket, statements⟩ := consequence
      rw [Block.evaluate] at failed
      exact .inr ⟨_, .consequence conditionEnds unmarked truthy, failed⟩
    · rw [if_neg truthy] at failed
      cases alternative? with
      | none =>
          rw [Block.evaluate?] at failed
          cases failed
      | some block =>
          obtain ⟨bracket, statements⟩ := block
          rw [Block.evaluate?, Block.evaluate] at failed
          exact .inr ⟨_,
            .alternative conditionEnds unmarked (by simpa using truthy), failed⟩

/-- A call that fails refuses its arguments, or fails in the function's body. -/
theorem failsFor_call
    {token : Token}
    {callee : Expression}
    {arguments : List Expression}
    (failed :
      fault?
          ⟨limit, scope, heap, .expression (.call token callee arguments)⟩ =
        some diagnostic) :
    FailsFor diagnostic
      ⟨limit, scope, heap, .expression (.call token callee arguments)⟩ := by
  rw [fault?_expression, Expression.evaluate, fault?_useValue] at failed
  obtain failed | ⟨value, middle, calleeEnds, unmarked, failed⟩ := failed
  · exact .inr ⟨_, .callee, failed⟩
  · rw [fault?_bind] at failed
    obtain failed | ⟨operands, after, argumentsEnd, failed⟩ := failed
    · exact .inr ⟨_, .arguments calleeEnds unmarked, failed⟩
    · cases operands with
      | interrupted inner =>
          cases failed
      | values values =>
          obtain ⟨fewer, closure, rfl, rfl, count, failed⟩ |
              ⟨fault, refused, rfl⟩ :=
            fault?_applyWithin failed
          · obtain ⟨parameters, ⟨bracket, statements⟩, home⟩ := closure
            rw [Block.evaluate] at failed
            exact .inr ⟨_, .body calleeEnds argumentsEnd count, failed⟩
          · exact .inl ⟨_, rfl,
              .call calleeEnds unmarked argumentsEnd refused, rfl⟩

theorem failsFor_operands
    {first : Expression}
    {rest : List Expression}
    (failed :
      fault? ⟨limit, scope, heap, .operands (first :: rest)⟩ =
        some diagnostic) :
    FailsFor diagnostic ⟨limit, scope, heap, .operands (first :: rest)⟩ := by
  rw [fault?_operands, Expression.evaluateAll, fault?_bind] at failed
  obtain failed | ⟨value, after, firstEnds, failed⟩ := failed
  · exact .inr ⟨_, .firstOperand, failed⟩
  · cases value with
    | returned inner =>
        cases failed
    | _ =>
        rw [fault?_bind] at failed
        obtain failed | ⟨operands, final, -, never⟩ := failed
        · exact .inr ⟨_, .laterOperands firstEnds trivial, failed⟩
        · cases operands with
          | values values =>
              cases never
          | interrupted inner =>
              cases never

theorem failsFor_statement
    {tree : Statement}
    (failed :
      fault? ⟨limit, scope, heap, .statement tree⟩ =
        some diagnostic) :
    FailsFor diagnostic ⟨limit, scope, heap, .statement tree⟩ := by
  cases tree with
  | binding token name value =>
      rw [fault?_statement, Statement.evaluate, fault?_useValue] at failed
      obtain failed | ⟨bound, after, -, -, never⟩ := failed
      · exact .inr ⟨_, .boundValue, failed⟩
      · cases never
  | returning token value =>
      rw [fault?_statement, Statement.evaluate, fault?_useValue] at failed
      obtain failed | ⟨result, after, -, -, never⟩ := failed
      · exact .inr ⟨_, .returnedValue, failed⟩
      · cases never
  | expression token inner =>
      rw [fault?_statement, Statement.evaluate] at failed
      exact .inr ⟨_, .innerExpression, failed⟩
  | block inner =>
      obtain ⟨bracket, statements⟩ := inner
      rw [fault?_statement, Statement.evaluate, Block.evaluate] at failed
      exact .inr ⟨_, .innerBlock, failed⟩

theorem failsFor_statements
    {first : Statement}
    {rest : List Statement}
    (failed :
      fault? ⟨limit, scope, heap, .statements (first :: rest)⟩ =
        some diagnostic) :
    FailsFor diagnostic ⟨limit, scope, heap, .statements (first :: rest)⟩ := by
  rw [fault?_statements _ _ _ _ .null, Statement.evaluateAll,
    fault?_useValue] at failed
  obtain failed | ⟨value, after, firstEnds, unmarked, failed⟩ := failed
  · exact .inr ⟨_, .firstStatement, failed⟩
  · rw [← fault?_statements] at failed
    exact .inr ⟨_, .laterStatements firstEnds unmarked, failed⟩

/-- A task that ends in a fault fails itself, or demands one that does. -/
theorem failsFor
    {task : Task}
    (failed : task.fault? = some diagnostic) :
    task.FailsFor diagnostic := by
  obtain ⟨limit, scope, heap, subject⟩ := task
  cases subject with
  | expression tree =>
      cases tree with
      | identifier name =>
          exact failsFor_identifier failed
      | prefixed token operator right =>
          exact failsFor_prefixed failed
      | binary token left operator right =>
          exact failsFor_binary failed
      | conditional token condition consequence alternative? =>
          exact failsFor_conditional failed
      | call token callee arguments =>
          exact failsFor_call failed
      | _ =>
          rw [fault?_expression, Expression.evaluate] at failed
          cases failed
  | operands trees =>
      cases trees with
      | nil =>
          rw [fault?_operands, Expression.evaluateAll] at failed
          cases failed
      | cons first rest =>
          exact failsFor_operands failed
  | statement tree =>
      exact failsFor_statement failed
  | statements trees =>
      cases trees with
      | nil =>
          rw [fault?_statements _ _ _ _ .null, Statement.evaluateAll] at failed
          cases failed
      | cons first rest =>
          exact failsFor_statements failed

/-- What is demanded has fewer calls left to make, or is a part of the subject. -/
theorem Demands.smaller
    {task next : Task}
    (demands : task.Demands next) :
    Prod.Lex (· < ·) (· < ·)
      (next.limit, sizeOf next.subject)
      (task.limit, sizeOf task.subject) := by
  cases demands with
  | body =>
      exact .left _ _ (Nat.lt_succ_self _)
  | _ =>
      apply Prod.Lex.right
      simp +arith

/-- A task that ends in a fault comes to demand one that fails itself. -/
theorem exists_failing
    (task : Task)
    (failed : task.fault? = some diagnostic) :
    ∃ last,
      Relation.ReflTransGen Demands task last ∧
        last.FailsAtSubject diagnostic := by
  rcases failsFor failed with own | ⟨next, demands, failedNext⟩
  · exact ⟨task, .refl, own⟩
  · have smaller := demands.smaller
    obtain ⟨last, reached, own⟩ := exists_failing next failedNext
    exact ⟨last, .head demands reached, own⟩
termination_by (task.limit, sizeOf task.subject)
decreasing_by exact smaller

end Task

end Scriptlet
