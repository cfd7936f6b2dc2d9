import Scriptlet.Evaluation

namespace Scriptlet

/-!
# Evaluation without marked values

A second way to evaluate programs, in which no value can be marked.  A step goes
on with a value or it leaves with one, and after a step that leaves the rest is
abandoned: operands and arguments still to come, the branches of a conditional,
the binding that waits for its value, the statements that follow.  Only the call
that a body is run for, or the program, stops what leaves, and has its value.
-/

/-- The values of the language, without the mark of a `return`. -/
inductive PlainValue where
  | integer (value : Int64)
  | boolean (value : Bool)
  | string (value : String)
  | null
  | function (closure : Closure)

/-- A scope whose names are bound to plain values. -/
structure PlainScope where
  bindings : List (String × PlainValue)
  outer? : Option ScopeId
  call? : Option Call

/-- All scopes, in the order they were created. -/
structure PlainHeap where
  scopes : Array PlainScope

/-- How a step ends: with a value to go on with, or leaving with a value. -/
inductive Control (α : Type) where
  | next (value : α)
  | leave (value : PlainValue)

/-- What a step ends with. -/
structure Controlled.Outcome (α : Type) where
  result : Except Failure (Control α)
  heap : PlainHeap

/-- A computation on a plain heap that may leave. -/
def Controlled (α : Type) : Type :=
  PlainHeap → Controlled.Outcome α

/-- What calling a plain value with arguments does; faults are at the token. -/
abbrev PlainApplication :=
  PlainValue → List PlainValue → Token → Controlled PlainValue

/-- What a program ends with. -/
structure PlainOutcome where
  result : Except Failure PlainValue
  heap : PlainHeap

/-- A value without all its marks. -/
def Value.plain : Value → PlainValue
  | .integer value => .integer value
  | .boolean value => .boolean value
  | .string value => .string value
  | .null => .null
  | .returned value => value.plain
  | .function closure => .function closure

namespace PlainValue

/-- A plain value as a value of the language. -/
def toValue : PlainValue → Value
  | .integer value => .integer value
  | .boolean value => .boolean value
  | .string value => .string value
  | .null => .null
  | .function closure => .function closure

/-- An operator in front of its operand. -/
def applyPrefix (operator : String) (right : PlainValue) : Except Fault PlainValue :=
  (Value.applyPrefix operator right.toValue).map Value.plain

/-- An operator between its operands. -/
def applyBinary
    (operator : String)
    (left right : PlainValue) :
    Except Fault PlainValue :=
  (Value.applyBinary operator left.toValue right.toValue).map Value.plain

end PlainValue

namespace PlainScope

/-- The scope of a call, with the parameters bound to the arguments in order. -/
def ofCall (closure : Closure) (arguments : List PlainValue) : PlainScope :=
  ⟨((closure.parameters.map Name.value).zip arguments).reverse,
    some closure.scope,
    some ⟨closure, arguments.length⟩⟩

/-- Bind a name, in front of all earlier bindings. -/
def bind (scope : PlainScope) (name : String) (value : PlainValue) : PlainScope :=
  { scope with bindings := (name, value) :: scope.bindings }

end PlainScope

namespace PlainHeap

/-- Look a name up in a scope and at most `steps - 1` scopes around it. -/
def lookupWithin
    (heap : PlainHeap)
    (name : String) :
    Nat → ScopeId → Option PlainValue
  | 0, _ =>
      none
  | steps + 1, id => do
      let scope ← heap.scopes[id]?
      match scope.bindings.lookup name with
      | some value =>
          some value
      | none =>
          lookupWithin heap name steps (← scope.outer?)

/-- Look a name up in a scope and the scopes around it. -/
def lookup? (heap : PlainHeap) (id : ScopeId) (name : String) : Option PlainValue :=
  lookupWithin heap name (id + 1) id

end PlainHeap

/-- The value that a step goes on or leaves with. -/
def Control.value : Control PlainValue → PlainValue
  | .next value => value
  | .leave value => value

namespace Controlled

/-- Go on with a value. -/
def goOn (value : α) : Controlled α :=
  fun heap => ⟨.ok (.next value), heap⟩

/-- Leave with a value. -/
def leave (value : PlainValue) : Controlled α :=
  fun heap => ⟨.ok (.leave value), heap⟩

/-- End in a failure. -/
def fail (failure : Failure) : Controlled α :=
  fun heap => ⟨.error failure, heap⟩

/-- Go on after a step, unless it has failed or left. -/
def andThen (step : Controlled α) (next : α → Controlled β) : Controlled β :=
  fun heap =>
    match step heap with
    | ⟨.error failure, heapAfter⟩ =>
        ⟨.error failure, heapAfter⟩
    | ⟨.ok (.leave value), heapAfter⟩ =>
        ⟨.ok (.leave value), heapAfter⟩
    | ⟨.ok (.next value), heapAfter⟩ =>
        next value heapAfter

instance : Monad Controlled where
  pure := goOn
  bind := andThen

/-- End in a fault at the start of a token. -/
def faultAt (token : Token) (fault : Fault) : Controlled α :=
  fail (.fault ⟨fault, token.start⟩)

/-- Go on with the value of an operation, or end in its fault at a token. -/
def ofOperation (token : Token) : Except Fault α → Controlled α
  | .ok value => goOn value
  | .error fault => faultAt token fault

/-- Look a name up from a scope. -/
def lookup? (scope : ScopeId) (name : String) : Controlled (Option PlainValue) :=
  fun heap => ⟨.ok (.next (heap.lookup? scope name)), heap⟩

/-- Bind a name in a scope. -/
def bindName (scope : ScopeId) (name : String) (value : PlainValue) :
    Controlled Unit :=
  fun heap =>
    ⟨.ok (.next ()), ⟨heap.scopes.modify scope fun inner => inner.bind name value⟩⟩

/-- Add a scope to the heap. -/
def addScope (scope : PlainScope) : Controlled ScopeId :=
  fun heap => ⟨.ok (.next heap.scopes.size), ⟨heap.scopes.push scope⟩⟩

/-- Run a step up to where it leaves, and go on with the value it leaves with. -/
def contain (step : Controlled PlainValue) : Controlled PlainValue :=
  fun heap =>
    let outcome := step heap
    ⟨outcome.result.map fun control => .next control.value, outcome.heap⟩

/--
Call a value: it has to be a function of as many parameters as there are
arguments.  Its body is run in a new scope, and what leaves the body stops here.
-/
def applyWith (runBody : Block → ScopeId → Controlled PlainValue) :
    PlainApplication :=
  fun callee arguments token =>
    match callee with
    | .function closure =>
        if closure.parameters.length = arguments.length then do
          let scope ← addScope (PlainScope.ofCall closure arguments)
          contain (runBody closure.body scope)
        else
          faultAt token
            (.argumentCount closure.parameters.length arguments.length)
    | _ =>
        faultAt token (.notAFunction callee.toValue.typeName)

end Controlled

open Controlled

mutual

/-- Run an expression in a scope. -/
def Expression.run
    (apply : PlainApplication)
    (scope : ScopeId) :
    Expression → Controlled PlainValue
  | .identifier name => do
      match ← lookup? scope name.value with
      | some value =>
          return value
      | none =>
          faultAt name.token (.unknownIdentifier name.value)
  | .integer _ value =>
      return .integer value
  | .string _ value =>
      return .string value
  | .boolean _ value =>
      return .boolean value
  | .prefixed token operator right => do
      let rightValue ← right.run apply scope
      ofOperation token (rightValue.applyPrefix operator)
  | .binary token left operator right => do
      let leftValue ← left.run apply scope
      let rightValue ← right.run apply scope
      ofOperation token (leftValue.applyBinary operator rightValue)
  | .conditional _ condition consequence alternative? => do
      let conditionValue ← condition.run apply scope
      if conditionValue.toValue.isTruthy then
        consequence.run apply scope
      else
        Block.run? apply scope alternative?
  | .function _ parameters body =>
      return .function ⟨parameters, body, scope⟩
  | .call token callee arguments => do
      let calleeValue ← callee.run apply scope
      let values ← Expression.runAll apply scope arguments
      apply calleeValue values token

/-- Run expressions from left to right. -/
def Expression.runAll
    (apply : PlainApplication)
    (scope : ScopeId) :
    List Expression → Controlled (List PlainValue)
  | [] =>
      return []
  | first :: rest => do
      let firstValue ← first.run apply scope
      let values ← Expression.runAll apply scope rest
      return firstValue :: values

/-- Run a statement in a scope. -/
def Statement.run
    (apply : PlainApplication)
    (scope : ScopeId) :
    Statement → Controlled PlainValue
  | .binding _ name value => do
      let bound ← value.run apply scope
      bindName scope name.value bound
      return .null
  | .returning _ value => do
      let result ← value.run apply scope
      leave result
  | .expression _ inner =>
      inner.run apply scope
  | .block inner =>
      inner.run apply scope

/-- Run statements in order, with the value of the last one. -/
def Statement.runAll
    (apply : PlainApplication)
    (scope : ScopeId) :
    List Statement → PlainValue → Controlled PlainValue
  | [], last =>
      return last
  | first :: rest, _ => do
      let value ← first.run apply scope
      Statement.runAll apply scope rest value

/-- Run a block in the scope it stands in. -/
def Block.run
    (apply : PlainApplication)
    (scope : ScopeId) :
    Block → Controlled PlainValue
  | ⟨_, statements⟩ =>
      Statement.runAll apply scope statements .null

/-- Run a block if there is one. -/
def Block.run?
    (apply : PlainApplication)
    (scope : ScopeId) :
    Option Block → Controlled PlainValue
  | none =>
      return .null
  | some block =>
      block.run apply scope

end

/-- Calls of which at most `limit` may be active at a time. -/
def Controlled.applyWithin : Nat → PlainApplication
  | 0 =>
      applyWith fun _ _ => fail .tooManyCalls
  | limit + 1 =>
      applyWith fun body scope => body.run (applyWithin limit) scope

/-- Run a program in a scope: up to its end, or to where it leaves. -/
def Program.run
    (limit : Nat)
    (scope : ScopeId)
    (program : Program)
    (heap : PlainHeap) :
    PlainOutcome :=
  let outcome :=
    Statement.runAll (applyWithin limit) scope program.statements .null heap
  ⟨outcome.result.map Control.value, outcome.heap⟩

end Scriptlet
