import Scriptlet.Proofs.Evaluation.Failing
import Scriptlet.Proofs.Syntax.Nodes

namespace Scriptlet

/-!
# What is evaluated was written in the program

Functions are values: they are bound to names, handed on as arguments, kept in
scopes that outlive the call they were made in, and called from anywhere.  All the
same, every function there is at any moment of a run has a body that was written
in the program, and so every expression that the run comes to was written there.

The heap is followed through the run: a step that starts on a heap whose functions
were written in the program leaves such a heap, and ends with such a value.
-/

open Evaluation

/-- All functions among the value have bodies that the nodes are from. -/
def Value.WrittenIn (nodes : List Expression) : Value → Prop
  | .returned value => value.WrittenIn nodes
  | .function closure => closure.body.nodes ⊆ nodes
  | _ => True

/-- All functions bound in a scope were written in the program. -/
def Scope.WrittenIn (nodes : List Expression) (scope : Scope) : Prop :=
  ∀ binding ∈ scope.bindings, binding.2.WrittenIn nodes

/-- All functions on a heap were written in the program. -/
def Heap.WrittenIn (nodes : List Expression) (heap : Heap) : Prop :=
  ∀ (id : ScopeId) (scope : Scope),
    heap.scopes[id]? = some scope → scope.WrittenIn nodes

/-- All functions among operands were written in the program. -/
def Operands.WrittenIn (nodes : List Expression) : Operands → Prop
  | .values all => ∀ value ∈ all, value.WrittenIn nodes
  | .interrupted value => value.WrittenIn nodes

section Values

variable {nodes : List Expression}

theorem Value.IsData.writtenIn
    {value : Value}
    (data : value.IsData) :
    value.WrittenIn nodes := by
  cases value with
  | returned inner =>
      exact data.elim
  | function closure =>
      exact data.elim
  | _ =>
      exact trivial

theorem Value.WrittenIn.unmarked
    {value : Value}
    (written : value.WrittenIn nodes) :
    value.unmarked.WrittenIn nodes := by
  cases value with
  | returned inner =>
      exact written
  | _ =>
      exact written

theorem Scope.writtenIn_ofCall
    {closure : Closure}
    {arguments : List Value}
    (written : ∀ argument ∈ arguments, argument.WrittenIn nodes) :
    (ofCall closure arguments).WrittenIn nodes := by
  intro binding member
  rw [ofCall, List.mem_reverse] at member
  exact written binding.2 (List.of_mem_zip member).2

namespace Heap.WrittenIn

variable {heap : Heap}

theorem lookup?
    {scope : ScopeId}
    {name : String}
    {value : Value}
    (written : heap.WrittenIn nodes)
    (found : heap.lookup? scope name = some value) :
    value.WrittenIn nodes := by
  obtain ⟨there, bindingScope, isScope, member⟩ :=
    exists_binding_of_lookupWithin found
  exact written there bindingScope isScope (name, value) member

theorem bind
    {name : String}
    {value : Value}
    (written : heap.WrittenIn nodes)
    (id : ScopeId)
    (bound : value.WrittenIn nodes) :
    (heap.bind id name value).WrittenIn nodes := by
  intro other scope isScope
  rw [Heap.getElem?_bind] at isScope
  split at isScope
  · obtain ⟨before, isBefore, rfl⟩ := Option.map_eq_some_iff.mp isScope
    intro binding member
    rcases List.mem_cons.mp member with rfl | earlier
    · exact bound
    · exact written other before isBefore binding earlier
  · exact written other scope isScope

theorem add
    {scope : Scope}
    (written : heap.WrittenIn nodes)
    (new : scope.WrittenIn nodes) :
    (heap.add scope).2.WrittenIn nodes := by
  intro id other isScope
  rw [Heap.getElem?_add] at isScope
  split at isScope
  · cases isScope
    exact new
  · exact written id other isScope

end Heap.WrittenIn

end Values

namespace Evaluation

/--
On a heap whose functions were written in the program, the step leaves such a
heap, and if it ends with a value, then with a good one.
-/
def Yields
    (nodes : List Expression)
    (good : α → Prop)
    (step : Evaluation α) :
    Prop :=
  ∀ heap : Heap, heap.WrittenIn nodes →
    (step heap).heap.WrittenIn nodes ∧
      ∀ value, (step heap).result = .ok value → good value

variable {nodes : List Expression}

theorem Yields.ofValue
    {good : α → Prop}
    {value : α}
    (isGood : good value) :
    Yields nodes good (pure value) := by
  intro heap written
  refine ⟨written, ?_⟩
  rintro _ ⟨⟩
  exact isGood

theorem Yields.ofFailure
    {good : α → Prop}
    (failure : Failure) :
    Yields nodes good (fail failure) :=
  fun _ written => ⟨written, fun _ never => by cases never⟩

theorem Yields.bind
    {good : α → Prop}
    {better : β → Prop}
    {step : Evaluation α}
    {next : α → Evaluation β}
    (first : Yields nodes good step)
    (second : ∀ value, good value → Yields nodes better (next value)) :
    Yields nodes better (step >>= next) := by
  intro heap written
  obtain ⟨writtenAfter, isGood⟩ := first heap written
  simp only [Bind.bind, andThen]
  rcases ran : step heap with ⟨failure | value, middle⟩
  · rw [ran] at writtenAfter
    refine ⟨writtenAfter, ?_⟩
    intro value never
    cases never
  · rw [ran] at writtenAfter isGood
    exact second value (isGood value rfl) middle writtenAfter

theorem Yields.useValue
    {step : Evaluation Value}
    {use : Value → Evaluation Value}
    (first : Yields nodes (Value.WrittenIn nodes) step)
    (second :
      ∀ value, value.WrittenIn nodes →
        Yields nodes (Value.WrittenIn nodes) (use value)) :
    Yields nodes (Value.WrittenIn nodes)
      (step >>= fun value => useValue value use) := by
  refine first.bind fun value written => ?_
  cases value with
  | returned inner =>
      exact .ofValue written
  | _ =>
      exact second _ written

theorem Yields.ofOperation
    {token : Token}
    {result : Except Fault Value}
    (data : ∀ value, result = .ok value → value.IsData) :
    Yields nodes (Value.WrittenIn nodes) (ofOperation token result) := by
  cases result with
  | error fault =>
      exact .ofFailure _
  | ok value =>
      exact .ofValue (data value rfl).writtenIn

theorem Yields.applyWith
    {runBody : Block → ScopeId → Evaluation Value}
    (body :
      ∀ block scope, block.nodes ⊆ nodes →
        Yields nodes (Value.WrittenIn nodes) (runBody block scope))
    {callee : Value}
    {arguments : List Value}
    {token : Token}
    (calleeWritten : callee.WrittenIn nodes)
    (argumentsWritten : ∀ argument ∈ arguments, argument.WrittenIn nodes) :
    Yields nodes (Value.WrittenIn nodes)
      (applyWith runBody callee arguments token) := by
  cases callee with
  | function closure =>
      have added :
          Yields nodes (fun _ => True)
            (addScope (Scope.ofCall closure arguments)) :=
        fun heap written =>
          ⟨written.add (Scope.writtenIn_ofCall argumentsWritten), fun _ _ => trivial⟩
      simp only [Evaluation.applyWith]
      split
      · refine added.bind fun scope _ => ?_
        refine (body closure.body scope calleeWritten).bind fun value written => ?_
        exact .ofValue written.unmarked
      · exact .ofFailure _
  | _ =>
      exact .ofFailure _

/-- What a step that ends with a value leaves, and ends with. -/
theorem Yields.of_ends
    {good : α → Prop}
    {step : Evaluation α}
    {heap after : Heap}
    {value : α}
    (yields : Yields nodes good step)
    (written : heap.WrittenIn nodes)
    (ends : step heap = ⟨.ok value, after⟩) :
    after.WrittenIn nodes ∧ good value := by
  have ending := yields heap written
  rw [ends] at ending
  exact ⟨ending.1, ending.2 value rfl⟩

end Evaluation

section Trees

variable {nodes : List Expression} {apply : Application} {scope : ScopeId}

/-- Calls of written functions with written arguments yield written values. -/
def Application.YieldsWritten
    (nodes : List Expression)
    (apply : Application) :
    Prop :=
  ∀ callee arguments token,
    callee.WrittenIn nodes →
      (∀ argument ∈ arguments, argument.WrittenIn nodes) →
        Yields nodes (Value.WrittenIn nodes) (apply callee arguments token)

mutual

theorem Expression.yields_written
    (applied : apply.YieldsWritten nodes) :
    (tree : Expression) →
      tree.nodes ⊆ nodes →
        Yields nodes (Value.WrittenIn nodes) (tree.evaluate apply scope)
  | .identifier name, inside => by
      rw [Expression.evaluate]
      have looked :
          Yields nodes
            (fun found : Option Value =>
              ∀ value, found = some value → value.WrittenIn nodes)
            (lookup? scope name.value) := by
        intro heap written
        refine ⟨written, ?_⟩
        rintro _ ⟨⟩ value found
        exact written.lookup? found
      refine looked.bind fun found written => ?_
      cases found with
      | none =>
          exact .ofFailure _
      | some value =>
          exact .ofValue (written value rfl)
  | .integer _ _, _ => by
      rw [Expression.evaluate]
      exact .ofValue trivial
  | .string _ _, _ => by
      rw [Expression.evaluate]
      exact .ofValue trivial
  | .boolean _ _, _ => by
      rw [Expression.evaluate]
      exact .ofValue trivial
  | .prefixed _ _ right, inside => by
      rw [Expression.evaluate]
      simp only [Expression.nodes, List.cons_subset] at inside
      exact (right.yields_written applied inside.2).useValue fun _ _ =>
        .ofOperation fun _ => Value.isData_of_applyPrefix
  | .binary _ left _ right, inside => by
      rw [Expression.evaluate]
      simp only [Expression.nodes, List.cons_subset, List.append_subset] at inside
      obtain ⟨-, insideLeft, insideRight⟩ := inside
      exact (left.yields_written applied insideLeft).useValue fun _ _ =>
        (right.yields_written applied insideRight).useValue fun _ _ =>
          .ofOperation fun _ => Value.isData_of_applyBinary
  | .conditional _ condition consequence alternative?, inside => by
      rw [Expression.evaluate]
      simp only [Expression.nodes, List.cons_subset, List.append_subset] at inside
      obtain ⟨-, insideCondition, insideConsequence, insideAlternative⟩ := inside
      refine (condition.yields_written applied insideCondition).useValue
        fun value _ => ?_
      split
      · exact consequence.yields_written applied insideConsequence
      · exact Block.yields_written? applied alternative? insideAlternative
  | .function _ _ body, inside => by
      rw [Expression.evaluate]
      simp only [Expression.nodes, List.cons_subset] at inside
      exact .ofValue inside.2
  | .call token callee arguments, inside => by
      rw [Expression.evaluate]
      simp only [Expression.nodes, List.cons_subset, List.append_subset] at inside
      obtain ⟨-, insideCallee, insideArguments⟩ := inside
      refine (callee.yields_written applied insideCallee).useValue
        fun calleeValue calleeWritten => ?_
      refine (Expression.yields_written_all applied arguments insideArguments).bind
        fun operands written => ?_
      cases operands with
      | values values =>
          exact applied calleeValue values token calleeWritten written
      | interrupted value =>
          exact .ofValue written

theorem Expression.yields_written_all
    (applied : apply.YieldsWritten nodes) :
    (trees : List Expression) →
      Expression.nodesOfAll trees ⊆ nodes →
        Yields nodes (Operands.WrittenIn nodes)
          (Expression.evaluateAll apply scope trees)
  | [], _ => by
      rw [Expression.evaluateAll]
      refine .ofValue ?_
      intro value member
      cases member
  | first :: rest, inside => by
      rw [Expression.evaluateAll]
      simp only [Expression.nodesOfAll, List.append_subset] at inside
      refine (first.yields_written applied inside.1).bind fun value written => ?_
      split
      · exact .ofValue written
      · refine (Expression.yields_written_all applied rest inside.2).bind
          fun operands othersWritten => ?_
        cases operands with
        | values values =>
            exact .ofValue (List.forall_mem_cons.mpr ⟨written, othersWritten⟩)
        | interrupted value =>
            exact .ofValue othersWritten

theorem Statement.yields_written
    (applied : apply.YieldsWritten nodes) :
    (tree : Statement) →
      tree.nodes ⊆ nodes →
        Yields nodes (Value.WrittenIn nodes) (tree.evaluate apply scope)
  | .binding _ name value, inside => by
      rw [Statement.evaluate]
      refine (value.yields_written applied inside).useValue fun bound written => ?_
      have binds :
          Yields nodes (fun _ => True) (bindName scope name.value bound) :=
        fun heap heapWritten => ⟨heapWritten.bind scope written, fun _ _ => trivial⟩
      exact binds.bind fun _ _ => .ofValue trivial
  | .returning _ value, inside => by
      rw [Statement.evaluate]
      exact (value.yields_written applied inside).useValue fun _ written =>
        .ofValue written
  | .expression _ inner, inside => by
      rw [Statement.evaluate]
      exact inner.yields_written applied inside
  | .block inner, inside => by
      rw [Statement.evaluate]
      exact inner.yields_written applied inside

theorem Statement.yields_written_all
    (applied : apply.YieldsWritten nodes) :
    (trees : List Statement) →
      (last : Value) →
        Statement.nodesOfAll trees ⊆ nodes →
          last.WrittenIn nodes →
            Yields nodes (Value.WrittenIn nodes)
              (Statement.evaluateAll apply scope trees last)
  | [], _, _, written => by
      rw [Statement.evaluateAll]
      exact .ofValue written
  | first :: rest, _, inside, _ => by
      rw [Statement.evaluateAll]
      simp only [Statement.nodesOfAll, List.append_subset] at inside
      exact (first.yields_written applied inside.1).useValue fun value written =>
        Statement.yields_written_all applied rest value inside.2 written

theorem Block.yields_written
    (applied : apply.YieldsWritten nodes) :
    (tree : Block) →
      tree.nodes ⊆ nodes →
        Yields nodes (Value.WrittenIn nodes) (tree.evaluate apply scope)
  | ⟨_, statements⟩, inside => by
      rw [Block.evaluate]
      exact Statement.yields_written_all applied statements .null inside trivial

theorem Block.yields_written?
    (applied : apply.YieldsWritten nodes) :
    (tree? : Option Block) →
      Block.nodes? tree? ⊆ nodes →
        Yields nodes (Value.WrittenIn nodes) (Block.evaluate? apply scope tree?)
  | none, _ => by
      rw [Block.evaluate?]
      exact .ofValue trivial
  | some tree, inside => by
      rw [Block.evaluate?]
      exact tree.yields_written applied inside

end

end Trees

/-- However deep they nest, calls of functions written in the program stay in it. -/
theorem Evaluation.yieldsWritten_applyWithin
    (nodes : List Expression)
    (limit : Nat) :
    Application.YieldsWritten nodes (applyWithin limit) := by
  induction limit with
  | zero =>
      intro callee arguments token
      exact Yields.applyWith fun _ _ _ => .ofFailure _
  | succ limit inductionHypothesis =>
      intro callee arguments token
      rw [applyWithin_succ]
      exact Yields.applyWith fun block _ inside =>
        block.yields_written inductionHypothesis inside

section Endings

variable
  {nodes : List Expression}
  {limit : Nat}
  {scope : ScopeId}
  {heap after : Heap}

theorem Expression.written_of_ends
    {tree : Expression}
    {value : Value}
    (inside : tree.nodes ⊆ nodes)
    (written : heap.WrittenIn nodes)
    (ends :
      tree.evaluate (applyWithin limit) scope heap = ⟨.ok value, after⟩) :
    after.WrittenIn nodes ∧ value.WrittenIn nodes :=
  (tree.yields_written (yieldsWritten_applyWithin nodes limit) inside).of_ends
    written ends

theorem Expression.written_of_all_end
    {trees : List Expression}
    {operands : Operands}
    (inside : Expression.nodesOfAll trees ⊆ nodes)
    (written : heap.WrittenIn nodes)
    (ended :
      Expression.evaluateAll (applyWithin limit) scope trees heap =
        ⟨.ok operands, after⟩) :
    after.WrittenIn nodes ∧ operands.WrittenIn nodes :=
  (Expression.yields_written_all (yieldsWritten_applyWithin nodes limit) trees
    inside).of_ends written ended

theorem Statement.written_of_ends
    {tree : Statement}
    {value : Value}
    (inside : tree.nodes ⊆ nodes)
    (written : heap.WrittenIn nodes)
    (ends :
      tree.evaluate (applyWithin limit) scope heap = ⟨.ok value, after⟩) :
    after.WrittenIn nodes ∧ value.WrittenIn nodes :=
  (tree.yields_written (yieldsWritten_applyWithin nodes limit) inside).of_ends
    written ends

end Endings

/-- All expressions in a subject. -/
def Subject.nodes : Subject → List Expression
  | .expression tree => tree.nodes
  | .operands trees => Expression.nodesOfAll trees
  | .statement tree => tree.nodes
  | .statements trees => Statement.nodesOfAll trees

/-- The subject of a task, and all functions on its heap, are from the program. -/
structure Task.WrittenIn
    (nodes : List Expression)
    (task : Task) :
    Prop where
  heap : task.heap.WrittenIn nodes
  subject : task.subject.nodes ⊆ nodes

namespace Task

variable {nodes : List Expression} {task next : Task}

/-- What a task demands was written where the task was. -/
theorem Demands.writtenIn
    (demands : task.Demands next)
    (written : task.WrittenIn nodes) :
    next.WrittenIn nodes := by
  obtain ⟨heapWritten, inside⟩ := written
  cases demands with
  | prefixedOperand =>
      simp only [Subject.nodes, Expression.nodes, List.cons_subset] at inside
      exact ⟨heapWritten, inside.2⟩
  | leftOperand =>
      simp only [Subject.nodes, Expression.nodes, List.cons_subset,
        List.append_subset] at inside
      exact ⟨heapWritten, inside.2.1⟩
  | rightOperand leftEnds unmarked =>
      simp only [Subject.nodes, Expression.nodes, List.cons_subset,
        List.append_subset] at inside
      obtain ⟨-, insideLeft, insideRight⟩ := inside
      obtain ⟨afterWritten, -⟩ :=
        Expression.written_of_ends insideLeft heapWritten leftEnds
      exact ⟨afterWritten, insideRight⟩
  | condition =>
      simp only [Subject.nodes, Expression.nodes, List.cons_subset,
        List.append_subset] at inside
      exact ⟨heapWritten, inside.2.1⟩
  | consequence conditionEnds unmarked truthy =>
      simp only [Subject.nodes, Expression.nodes, List.cons_subset,
        List.append_subset] at inside
      obtain ⟨-, insideCondition, insideConsequence, -⟩ := inside
      obtain ⟨afterWritten, -⟩ :=
        Expression.written_of_ends insideCondition heapWritten conditionEnds
      exact ⟨afterWritten, insideConsequence⟩
  | alternative conditionEnds unmarked falsy =>
      simp only [Subject.nodes, Expression.nodes, List.cons_subset,
        List.append_subset] at inside
      obtain ⟨-, insideCondition, -, insideAlternative⟩ := inside
      obtain ⟨afterWritten, -⟩ :=
        Expression.written_of_ends insideCondition heapWritten conditionEnds
      exact ⟨afterWritten, insideAlternative⟩
  | callee =>
      simp only [Subject.nodes, Expression.nodes, List.cons_subset,
        List.append_subset] at inside
      exact ⟨heapWritten, inside.2.1⟩
  | arguments calleeEnds unmarked =>
      simp only [Subject.nodes, Expression.nodes, List.cons_subset,
        List.append_subset] at inside
      obtain ⟨-, insideCallee, insideArguments⟩ := inside
      obtain ⟨afterWritten, -⟩ :=
        Expression.written_of_ends insideCallee heapWritten calleeEnds
      exact ⟨afterWritten, insideArguments⟩
  | body calleeEnds argumentsEnd count =>
      simp only [Subject.nodes, Expression.nodes, List.cons_subset,
        List.append_subset] at inside
      obtain ⟨-, insideCallee, insideArguments⟩ := inside
      obtain ⟨middleWritten, functionWritten⟩ :=
        Expression.written_of_ends insideCallee heapWritten calleeEnds
      obtain ⟨afterWritten, valuesWritten⟩ :=
        Expression.written_of_all_end insideArguments middleWritten argumentsEnd
      exact ⟨afterWritten.add (Scope.writtenIn_ofCall valuesWritten),
        functionWritten⟩
  | firstOperand =>
      simp only [Subject.nodes, Expression.nodesOfAll, List.append_subset]
        at inside
      exact ⟨heapWritten, inside.1⟩
  | laterOperands firstEnds unmarked =>
      simp only [Subject.nodes, Expression.nodesOfAll, List.append_subset]
        at inside
      obtain ⟨afterWritten, -⟩ :=
        Expression.written_of_ends inside.1 heapWritten firstEnds
      exact ⟨afterWritten, inside.2⟩
  | boundValue =>
      exact ⟨heapWritten, inside⟩
  | returnedValue =>
      exact ⟨heapWritten, inside⟩
  | innerExpression =>
      exact ⟨heapWritten, inside⟩
  | innerBlock =>
      exact ⟨heapWritten, inside⟩
  | firstStatement =>
      simp only [Subject.nodes, Statement.nodesOfAll, List.append_subset]
        at inside
      exact ⟨heapWritten, inside.1⟩
  | laterStatements firstEnds unmarked =>
      simp only [Subject.nodes, Statement.nodesOfAll, List.append_subset]
        at inside
      obtain ⟨afterWritten, -⟩ :=
        Statement.written_of_ends inside.1 heapWritten firstEnds
      exact ⟨afterWritten, inside.2⟩

/-- So was every task that it comes to demand. -/
theorem WrittenIn.reached
    (written : task.WrittenIn nodes)
    (reached : Relation.ReflTransGen Demands task next) :
    next.WrittenIn nodes := by
  induction reached with
  | refl =>
      exact written
  | tail earlier demands inductionHypothesis =>
      exact demands.writtenIn inductionHypothesis

end Task

/-- An expression is one of its nodes. -/
theorem Expression.mem_nodes (tree : Expression) : tree ∈ tree.nodes := by
  cases tree <;> simp [nodes]

/--
A program that ends in a fault ends so because of one node, its own or one of a
function that the heap holds: the evaluation comes to it, it fails itself, and the
fault is reported at its token.
-/
theorem Program.exists_failing_node_among
    {nodes : List Expression}
    {program : Program}
    {limit : Nat}
    {scope : ScopeId}
    {heap : Heap}
    {diagnostic : Diagnostic}
    (inside : program.nodes ⊆ nodes)
    (written : heap.WrittenIn nodes)
    (failed : (program.evaluate limit scope heap).fault? = some diagnostic) :
    ∃ node ∈ nodes,
      (∃ fewer inner heapThere,
        Relation.ReflTransGen Task.Demands
            ⟨limit, scope, heap, .statements program.statements⟩
            ⟨fewer, inner, heapThere, .expression node⟩ ∧
          node.FailsItself fewer inner heapThere diagnostic.fault) ∧
        diagnostic.position = node.token.start := by
  have start : Task.WrittenIn nodes
      ⟨limit, scope, heap, .statements program.statements⟩ :=
    ⟨written, inside⟩
  have failedTask :
      Task.fault? ⟨limit, scope, heap, .statements program.statements⟩ =
        some diagnostic := by
    rw [Program.evaluate, fault?_bind] at failed
    obtain ended | ⟨value, after, -, never⟩ := failed
    · exact ended
    · cases never
  obtain ⟨⟨fewer, inner, heapThere, subject⟩, reached, node, isNode, fails,
      position⟩ :=
    Task.exists_failing _ failedTask
  cases isNode
  have among := (start.reached reached).subject node.mem_nodes
  exact ⟨node, among, ⟨fewer, inner, heapThere, reached, fails⟩, position⟩

end Scriptlet
