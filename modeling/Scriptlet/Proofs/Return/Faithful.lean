import Scriptlet.Proofs.Return.Handing

namespace Scriptlet

/-!
# Returns are encoded faithfully

Evaluation tells a value to go on with from one to leave with by a mark on the
value.  Running without marks tells them apart by the outcome of a step.  Each
step of evaluation is here related to the step that runs the same tree: on a
heap without marks both end alike, with the mark just where the plain step
leaves, and with the same heap, again without marks.

The relation holds of a sequence of steps when it holds of its parts.  Trees
inherit it from their parts, for every way to call that has it, and calls by
induction on how many may be active.
-/

/-- A value to go on with as it is, and one to leave with under a mark. -/
def Control.marked : Control PlainValue → Value
  | .next value => value.toValue
  | .leave value => .returned value.toValue

/-- Operands to go on with as they are, and a value to leave with under a mark. -/
def Control.operands : Control (List PlainValue) → Operands
  | .next values => .values (values.map PlainValue.toValue)
  | .leave value => .interrupted (.returned value.toValue)

namespace Evaluation

/-- The step does with marks what the plain one does without. -/
def Encodes
    (encode : Control α → β)
    (step : Evaluation β)
    (plain : Controlled α) :
    Prop :=
  ∀ heap : PlainHeap,
    step heap.toHeap =
      ⟨(plain heap).result.map encode, (plain heap).heap.toHeap⟩

/-- One operand after the other: a mark is handed on, and a step that leaves, left. -/
theorem Encodes.useValue
    {step : Evaluation Value}
    {use : Value → Evaluation Value}
    {plain : Controlled PlainValue}
    {next : PlainValue → Controlled PlainValue}
    (first : Encodes Control.marked step plain)
    (second : ∀ value, Encodes Control.marked (use value.toValue) (next value)) :
    Encodes Control.marked
      (step >>= fun value => useValue value use)
      (plain >>= next) := by
  intro heap
  have front := first heap
  simp only [bind, andThen, Controlled.andThen, front]
  rcases plain heap with ⟨failure | ⟨value⟩ | ⟨value⟩, after⟩
  · rfl
  · simpa only [Except.map, Control.marked, PlainValue.useValue_toValue] using
      second value after
  · rfl

theorem Encodes.ofOperation
    {token : Token}
    {result : Except Fault Value}
    (unmarked : ∀ value, result = .ok value → value.Unmarked) :
    Encodes Control.marked
      (ofOperation token result)
      (Controlled.ofOperation token (result.map Value.plain)) := by
  intro heap
  cases result with
  | error fault =>
      rfl
  | ok value =>
      have same := Value.toValue_plain (unmarked value rfl)
      simp only [Evaluation.ofOperation, succeed, Except.map,
        Controlled.ofOperation, Controlled.goOn, Control.marked, same]

/-- A call takes the mark off where the plain one stops what leaves. -/
theorem Encodes.applyWith
    {runBody : Block → ScopeId → Evaluation Value}
    {plainBody : Block → ScopeId → Controlled PlainValue}
    (body :
      ∀ block scope,
        Encodes Control.marked (runBody block scope) (plainBody block scope))
    (callee : PlainValue)
    (arguments : List PlainValue)
    (token : Token) :
    Encodes Control.marked
      (applyWith runBody callee.toValue (arguments.map PlainValue.toValue) token)
      (Controlled.applyWith plainBody callee arguments token) := by
  intro heap
  cases callee with
  | function closure =>
      simp only [PlainValue.toValue, Evaluation.applyWith, Controlled.applyWith,
        List.length_map]
      split
      · have ran :=
          body closure.body heap.scopes.size
            ⟨heap.scopes.push (PlainScope.ofCall closure arguments)⟩
        simp only [bind, andThen, addScope, Heap.store_add,
          ← PlainScope.toScope_ofCall, PlainHeap.add_toHeap, ran,
          Controlled.andThen, Controlled.addScope, Controlled.contain]
        rcases plainBody closure.body heap.scopes.size _ with
          ⟨failure | ⟨value⟩ | ⟨value⟩, after⟩
        · rfl
        · simp only [Except.map, Control.marked, PlainValue.unmarked_toValue_eq]
          rfl
        · rfl
      · rfl
  | _ =>
      rfl

end Evaluation

open Evaluation

section Trees

variable
  {apply : Application}
  {plainApply : PlainApplication}
  {scope : ScopeId}

/-- The calls do with marks what the plain ones do without. -/
def Application.Encodes
    (apply : Application)
    (plainApply : PlainApplication) :
    Prop :=
  ∀ callee arguments token,
    Evaluation.Encodes Control.marked
      (apply callee.toValue (arguments.map PlainValue.toValue) token)
      (plainApply callee arguments token)

mutual

theorem Expression.encodes
    (applied : apply.Encodes plainApply) :
    (tree : Expression) →
      Encodes Control.marked
        (tree.evaluate apply scope)
        (tree.run plainApply scope)
  | .identifier name => by
      intro heap
      rw [Expression.evaluate, Expression.run]
      simp only [bind, andThen, Evaluation.lookup?, Heap.store_lookup?,
        Controlled.andThen, Controlled.lookup?, PlainHeap.lookup?_toHeap]
      cases heap.lookup? scope name.value with
      | none =>
          rfl
      | some value =>
          rfl
  | .integer _ _ => by
      rw [Expression.evaluate, Expression.run]
      exact fun _ => rfl
  | .string _ _ => by
      rw [Expression.evaluate, Expression.run]
      exact fun _ => rfl
  | .boolean _ _ => by
      rw [Expression.evaluate, Expression.run]
      exact fun _ => rfl
  | .prefixed _ _ right => by
      rw [Expression.evaluate, Expression.run]
      exact (right.encodes applied).useValue fun _ =>
        .ofOperation fun _ => Value.unmarked_of_applyPrefix
  | .binary _ left _ right => by
      rw [Expression.evaluate, Expression.run]
      exact (left.encodes applied).useValue fun _ =>
        (right.encodes applied).useValue fun _ =>
          .ofOperation fun _ => Value.unmarked_of_applyBinary
  | .conditional _ condition consequence alternative? => by
      rw [Expression.evaluate, Expression.run]
      refine (condition.encodes applied).useValue fun value => ?_
      split
      · exact consequence.encodes applied
      · exact Block.encodes? applied alternative?
  | .function _ _ _ => by
      rw [Expression.evaluate, Expression.run]
      exact fun _ => rfl
  | .call token callee arguments => by
      rw [Expression.evaluate, Expression.run]
      refine (callee.encodes applied).useValue fun calleeValue => ?_
      intro heap
      have operands := Expression.encodes_all applied arguments heap
      simp only [bind, andThen, operands, Controlled.andThen]
      rcases Expression.runAll plainApply scope arguments heap with
        ⟨failure | ⟨values⟩ | ⟨value⟩, after⟩
      · rfl
      · exact applied calleeValue values token after
      · rfl

/-- Arguments are evaluated up to the first that leaves. -/
theorem Expression.encodes_all
    (applied : apply.Encodes plainApply) :
    (trees : List Expression) →
      Encodes Control.operands
        (Expression.evaluateAll apply scope trees)
        (Expression.runAll plainApply scope trees)
  | [] => by
      rw [Expression.evaluateAll, Expression.runAll]
      exact fun _ => rfl
  | first :: rest => by
      intro heap
      rw [Expression.evaluateAll, Expression.runAll]
      have front := first.encodes applied heap
      simp only [bind, andThen, front, Controlled.andThen]
      rcases first.run plainApply scope heap with
        ⟨failure | ⟨value⟩ | ⟨value⟩, middle⟩
      · rfl
      · have later := Expression.encodes_all applied rest middle
        cases value <;>
        · simp only [Except.map, Control.marked, PlainValue.toValue, andThen, later]
          rcases Expression.runAll plainApply scope rest middle with
            ⟨failure | ⟨values⟩ | ⟨value⟩, after⟩
          · rfl
          · rfl
          · rfl
      · rfl

theorem Statement.encodes
    (applied : apply.Encodes plainApply) :
    (tree : Statement) →
      Encodes Control.marked
        (tree.evaluate apply scope)
        (tree.run plainApply scope)
  | .binding _ name value => by
      rw [Statement.evaluate, Statement.run]
      refine (value.encodes applied).useValue fun bound => ?_
      intro heap
      simp only [bind, andThen, Evaluation.bindName, Heap.store_bind,
        PlainHeap.bind_toHeap]
      rfl
  | .returning _ value => by
      rw [Statement.evaluate, Statement.run]
      exact (value.encodes applied).useValue fun _ _ => rfl
  | .expression _ inner => by
      rw [Statement.evaluate, Statement.run]
      exact inner.encodes applied
  | .block inner => by
      rw [Statement.evaluate, Statement.run]
      exact inner.encodes applied

theorem Statement.encodes_all
    (applied : apply.Encodes plainApply) :
    (trees : List Statement) →
      (last : PlainValue) →
        Encodes Control.marked
          (Statement.evaluateAll apply scope trees last.toValue)
          (Statement.runAll plainApply scope trees last)
  | [], _ => by
      rw [Statement.evaluateAll, Statement.runAll]
      exact fun _ => rfl
  | first :: rest, _ => by
      rw [Statement.evaluateAll, Statement.runAll]
      exact (first.encodes applied).useValue fun value =>
        Statement.encodes_all applied rest value

theorem Block.encodes
    (applied : apply.Encodes plainApply) :
    (tree : Block) →
      Encodes Control.marked
        (tree.evaluate apply scope)
        (tree.run plainApply scope)
  | ⟨_, statements⟩ => by
      rw [Block.evaluate, Block.run]
      exact Statement.encodes_all applied statements .null

theorem Block.encodes?
    (applied : apply.Encodes plainApply) :
    (tree? : Option Block) →
      Encodes Control.marked
        (Block.evaluate? apply scope tree?)
        (Block.run? plainApply scope tree?)
  | none => by
      rw [Block.evaluate?, Block.run?]
      exact fun _ => rfl
  | some tree => by
      rw [Block.evaluate?, Block.run?]
      exact tree.encodes applied

end

end Trees

/-- However deep they nest, calls do with marks what they do without. -/
theorem Evaluation.encodes_applyWithin (limit : Nat) :
    Application.Encodes (applyWithin limit) (Controlled.applyWithin limit) := by
  induction limit with
  | zero =>
      exact Encodes.applyWith fun _ _ _ => rfl
  | succ limit inductionHypothesis =>
      rw [applyWithin_succ]
      exact Encodes.applyWith fun block _ => block.encodes inductionHypothesis

namespace Program

/-- Evaluating a program on a plain heap is running it, mark by mark. -/
theorem evaluate_toHeap
    (limit : Nat)
    (scope : ScopeId)
    (program : Program)
    (heap : PlainHeap) :
    program.evaluate limit scope heap.toHeap =
      ⟨(program.run limit scope heap).result.map PlainValue.toValue,
        (program.run limit scope heap).heap.toHeap⟩ := by
  have whole :
      Statement.evaluateAll (applyWithin limit) scope program.statements .null
          heap.toHeap =
        _ :=
    Statement.encodes_all (encodes_applyWithin limit) program.statements .null heap
  simp only [evaluate, run, bind, andThen, whole]
  rcases Statement.runAll (Controlled.applyWithin limit) scope
    program.statements .null heap with ⟨failure | ⟨value⟩ | ⟨value⟩, after⟩
  · rfl
  · simp only [Except.map, Control.marked, Control.value,
      PlainValue.unmarked_toValue_eq]
    rfl
  · rfl

/--
Where no name is bound to a marked value, evaluating a program is running it
without marks: it ends with the same value or failure and with the same
bindings.  No name has then been bound to a marked value, the value of the
program is unmarked, and no marked value was handed to an operation on the way.
-/
theorem returns_encoded_faithfully
    (limit : Nat)
    (scope : ScopeId)
    (program : Program)
    {heap : Heap}
    (unmarked : heap.Unmarked) :
    let evaluated := program.evaluate limit scope heap
    let ran := program.run limit scope heap.plain
    evaluated.result = ran.result.map PlainValue.toValue ∧
      evaluated.heap = ran.heap.toHeap ∧
      evaluated.heap.Unmarked ∧
      (∀ value, evaluated.result = .ok value → value.Unmarked) ∧
      ∀ operations : Operations,
        operations.FitUnmarked →
          program.evaluateWith operations limit scope heap = evaluated := by
  intro evaluated ran
  have agrees :
      evaluated = ⟨ran.result.map PlainValue.toValue, ran.heap.toHeap⟩ := by
    have onPlain := evaluate_toHeap limit scope program heap.plain
    rw [Heap.toHeap_plain unmarked] at onPlain
    exact onPlain
  have sameResult : evaluated.result = ran.result.map PlainValue.toValue :=
    congrArg Outcome.result agrees
  have sameHeap : evaluated.heap = ran.heap.toHeap :=
    congrArg Outcome.heap agrees
  refine ⟨sameResult, sameHeap, ?_, fun value ends => ?_, fun operations fit => ?_⟩
  · rw [sameHeap]
    exact ran.heap.unmarked_toHeap
  · rw [sameResult] at ends
    cases result : ran.result with
    | error failure =>
        rw [result] at ends
        cases ends
    | ok plain =>
        rw [result] at ends
        cases ends
        exact plain.unmarked_toValue
  · exact congrFun (evaluateWith_eq fit limit scope program) heap

/-- A sum whose right operand returns what is bound to a name, and more. -/
def interruptedSum : Program :=
  let token : Token := ⟨.illegal, "", Span.null⟩
  let inner : Statement := .returning token (.identifier ⟨token, "x"⟩)
  ⟨[ .expression token
      (.binary token (.integer token 1) "+"
        (.conditional token (.boolean token true) ⟨token, [inner]⟩ none)),
    .expression token (.integer token 9) ]⟩

/-- A return in an operand ends the program, on a heap that binds a name. -/
theorem returns_encoded_faithfully_interrupted :
    let heap : Heap := ⟨#[⟨[("x", .integer 5)], none, none⟩]⟩
    let evaluated := interruptedSum.evaluate 0 0 heap
    heap.Unmarked ∧
      evaluated.result = .ok (.integer 5) ∧
      evaluated.result =
        (interruptedSum.run 0 0 heap.plain).result.map PlainValue.toValue := by
  intro heap evaluated
  have unmarked : heap.Unmarked := by
    intro scope member binding bound
    simp only [heap, List.mem_toArray, List.mem_singleton] at member
    subst member
    simp only [List.mem_singleton] at bound
    subst bound
    exact trivial
  exact ⟨unmarked, rfl, (returns_encoded_faithfully 0 0 interruptedSum unmarked).1⟩

end Program

end Scriptlet
