import Scriptlet.Heap
import Scriptlet.Stack
import Scriptlet.Value.Operation

namespace Scriptlet

/-!
# Evaluation

Evaluation works on a heap of scopes.  It ends in a value or in a failure, with
the heap as it is then.  All it does with the heap is to look a name up, to bind
one and to add a scope; it is written for everything that offers these three, and
a heap does.

Trees are evaluated by recursion on the tree.  Calls are the only source of
unbounded recursion, so what a call does is given as an argument, and
`applyWithin` bounds the number of calls that are active at a time.

A `return` travels as a marked value: every operand position hands it on
unused, statement lists stop at it, and the enclosing call or the program takes
the mark off.
-/

/-- Why an evaluation has no value. -/
inductive Failure where
  /-- A fault of the program. -/
  | fault (diagnostic : Diagnostic)
  /-- More calls were active at a time than allowed. -/
  | tooManyCalls

/-- What evaluation needs of the place where scopes are kept. -/
class ScopeStore (σ : Type) where
  /-- Look a name up in a scope and the scopes around it. -/
  lookup? : σ → ScopeId → String → Option Value
  /-- Bind a name in a scope. -/
  bind : σ → ScopeId → String → Value → σ
  /-- Add a scope after all scopes there are. -/
  add : σ → Scope → ScopeId × σ

instance : ScopeStore Heap where
  lookup? := Heap.lookup?
  bind := Heap.bind
  add := Heap.add

namespace Heap

@[simp]
theorem store_lookup? (heap : Heap) (id : ScopeId) (name : String) :
    ScopeStore.lookup? heap id name = heap.lookup? id name :=
  rfl

@[simp]
theorem store_bind (heap : Heap) (id : ScopeId) (name : String) (value : Value) :
    ScopeStore.bind heap id name value = heap.bind id name value :=
  rfl

@[simp]
theorem store_add (heap : Heap) (scope : Scope) :
    ScopeStore.add heap scope = heap.add scope :=
  rfl

end Heap

/-- What an evaluation ends with. -/
structure Evaluation.Outcome (σ α : Type) where
  result : Except Failure α
  heap : σ

/-- A computation on scopes. -/
def Computation (σ α : Type) : Type :=
  σ → Evaluation.Outcome σ α

/-- A computation on a heap of scopes. -/
abbrev Evaluation :=
  Computation Heap

/-- What calling a value with arguments does; faults are at the token. -/
abbrev ApplicationOn (σ : Type) :=
  Value → List Value → Token → Computation σ Value

/-- What calling a value does on a heap of scopes. -/
abbrev Application :=
  ApplicationOn Heap

/-- The operands of a call: their values, or the `return` met among them. -/
inductive Operands where
  | values (values : List Value)
  | interrupted (value : Value)

namespace Evaluation

variable {σ : Type}

/-- End with a value. -/
def succeed (value : α) : Computation σ α :=
  fun heap => ⟨.ok value, heap⟩

/-- End in a failure. -/
def fail (failure : Failure) : Computation σ α :=
  fun heap => ⟨.error failure, heap⟩

/-- Go on with the value of a computation; after a failure the rest is left out. -/
def andThen
    (step : Computation σ α)
    (next : α → Computation σ β) :
    Computation σ β :=
  fun heap =>
    match step heap with
    | ⟨.error failure, heapAfter⟩ =>
        ⟨.error failure, heapAfter⟩
    | ⟨.ok value, heapAfter⟩ =>
        next value heapAfter

instance : Monad (Computation σ) where
  pure := succeed
  bind := andThen

/-- A sequence ends with a value when its parts do, one after the other. -/
theorem bind_eq_ok_iff
    {step : Computation σ α}
    {next : α → Computation σ β}
    {heap after : σ}
    {result : β} :
    (step >>= next) heap = ⟨.ok result, after⟩ ↔
      ∃ value middle,
        step heap = ⟨.ok value, middle⟩ ∧
          next value middle = ⟨.ok result, after⟩ := by
  simp only [bind, andThen]
  rcases step heap with ⟨failure | value, middle⟩
  · simp
  · constructor
    · intro ends
      exact ⟨value, middle, rfl, ends⟩
    · rintro ⟨_, _, ⟨⟩, ends⟩
      exact ends

/-- End in a fault at the start of a token. -/
def faultAt (token : Token) (fault : Fault) : Computation σ α :=
  fail (.fault ⟨fault, token.start⟩)

/-- End with the value of an operation, or in its fault at a token. -/
def ofOperation (token : Token) : Except Fault α → Computation σ α
  | .ok value => succeed value
  | .error fault => faultAt token fault

/-- Use a value, unless it is a `return` on its way out, which is handed on. -/
def useValue
    (value : Value)
    (use : Value → Computation σ Value) :
    Computation σ Value :=
  match value with
  | .returned _ => succeed value
  | _ => use value

variable [ScopeStore σ]

/-- Look a name up from a scope. -/
def lookup? (scope : ScopeId) (name : String) : Computation σ (Option Value) :=
  fun heap => ⟨.ok (ScopeStore.lookup? heap scope name), heap⟩

/-- Bind a name in a scope. -/
def bindName
    (scope : ScopeId)
    (name : String)
    (value : Value) :
    Computation σ Unit :=
  fun heap => ⟨.ok (), ScopeStore.bind heap scope name value⟩

/-- Add a scope to the heap. -/
def addScope (scope : Scope) : Computation σ ScopeId :=
  fun heap =>
    match ScopeStore.add heap scope with
    | (id, extended) =>
        ⟨.ok id, extended⟩

/--
Call a value: it has to be a function of as many parameters as there are
arguments.  Its body runs in a new scope for the call.
-/
def applyWith (runBody : Block → ScopeId → Computation σ Value) : ApplicationOn σ :=
  fun callee arguments token =>
    match callee with
    | .function closure =>
        if closure.parameters.length = arguments.length then do
          let scope ← addScope (Scope.ofCall closure arguments)
          let value ← runBody closure.body scope
          return value.unmarked
        else
          faultAt token
            (.argumentCount closure.parameters.length arguments.length)
    | _ =>
        faultAt token (.notAFunction callee.typeName)

end Evaluation

open Evaluation

variable {σ : Type} [ScopeStore σ]

mutual

/-- Evaluate an expression in a scope. -/
def Expression.evaluate
    (apply : ApplicationOn σ)
    (scope : ScopeId) :
    Expression → Computation σ Value
  | .identifier name => do
      match ← lookup? scope name.value with
      | some value =>
          return value
      | none =>
          faultAt name.token (.unknownIdentifier name.value)
  | .integer _ value =>
      return .integer value
  | .string _ value =>
      return .string value
  | .boolean _ value =>
      return .boolean value
  | .prefixed token operator right => do
      useValue (← right.evaluate apply scope) fun rightValue =>
        ofOperation token (Value.applyPrefix operator rightValue)
  | .binary token left operator right => do
      useValue (← left.evaluate apply scope) fun leftValue => do
        useValue (← right.evaluate apply scope) fun rightValue =>
          ofOperation token (Value.applyBinary operator leftValue rightValue)
  | .conditional _ condition consequence alternative? => do
      useValue (← condition.evaluate apply scope) fun conditionValue =>
        if conditionValue.isTruthy then
          consequence.evaluate apply scope
        else
          Block.evaluate? apply scope alternative?
  | .function _ parameters body =>
      return .function ⟨parameters, body, scope⟩
  | .call token callee arguments => do
      useValue (← callee.evaluate apply scope) fun calleeValue => do
        match ← Expression.evaluateAll apply scope arguments with
        | .values values =>
            apply calleeValue values token
        | .interrupted value =>
            return value

/-- Evaluate operands from left to right, up to the first `return`. -/
def Expression.evaluateAll
    (apply : ApplicationOn σ)
    (scope : ScopeId) :
    List Expression → Computation σ Operands
  | [] =>
      return .values []
  | first :: rest => do
      match ← first.evaluate apply scope with
      | .returned value =>
          return .interrupted (.returned value)
      | firstValue =>
          match ← Expression.evaluateAll apply scope rest with
          | .values values =>
              return .values (firstValue :: values)
          | .interrupted value =>
              return .interrupted value

/-- Evaluate a statement in a scope. -/
def Statement.evaluate
    (apply : ApplicationOn σ)
    (scope : ScopeId) :
    Statement → Computation σ Value
  | .binding _ name value => do
      useValue (← value.evaluate apply scope) fun bound => do
        bindName scope name.value bound
        return .null
  | .returning _ value => do
      useValue (← value.evaluate apply scope) fun result =>
        return .returned result
  | .expression _ inner =>
      inner.evaluate apply scope
  | .block inner =>
      inner.evaluate apply scope

/--
Evaluate statements in order, up to the first `return`.  The value is that of
the last statement evaluated, or the value given if there is none.
-/
def Statement.evaluateAll
    (apply : ApplicationOn σ)
    (scope : ScopeId) :
    List Statement → Value → Computation σ Value
  | [], last =>
      return last
  | first :: rest, _ => do
      useValue (← first.evaluate apply scope) fun value =>
        Statement.evaluateAll apply scope rest value

/-- Evaluate a block in the scope it stands in. -/
def Block.evaluate
    (apply : ApplicationOn σ)
    (scope : ScopeId) :
    Block → Computation σ Value
  | ⟨_, statements⟩ =>
      Statement.evaluateAll apply scope statements .null

/-- Evaluate a block if there is one. -/
def Block.evaluate?
    (apply : ApplicationOn σ)
    (scope : ScopeId) :
    Option Block → Computation σ Value
  | none =>
      return .null
  | some block =>
      block.evaluate apply scope

end

namespace Evaluation

/-- Calls of which at most `limit` may be active at a time. -/
def applyWithin : Nat → ApplicationOn σ
  | 0 =>
      applyWith fun _ _ => fail .tooManyCalls
  | limit + 1 =>
      applyWith fun body scope heap =>
        withStackFor limit fun _ =>
          body.evaluate (applyWithin limit) scope heap

/-- Where one call more may be active, its body is evaluated within the rest. -/
theorem applyWithin_succ (limit : Nat) :
    (applyWithin (limit + 1) : ApplicationOn σ) =
      applyWith fun body scope => body.evaluate (applyWithin limit) scope := by
  simp [applyWithin]

end Evaluation

/--
Evaluate a program in a scope: the value of its last statement, or that of the
first `return` met.
-/
def Program.evaluate
    (limit : Nat)
    (scope : ScopeId)
    (program : Program) :
    Computation σ Value := do
  let value ←
    Statement.evaluateAll (applyWithin limit) scope program.statements .null
  return value.unmarked

end Scriptlet
