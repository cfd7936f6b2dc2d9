import Scriptlet.Proofs.Return.Encoding
import Scriptlet.Proofs.Scope.History

namespace Scriptlet

/-!
# What evaluation does to scopes

An evaluation may run through many scopes: every call creates one, inside the scope
that the called function was written in, and binds the arguments there; functions
are kept in scopes that outlive the call that made them.  Still nothing happens but
that scopes are created inside scopes that are there and names are bound in such
scopes, for an evaluation only comes to functions written in scopes that are there.

To tell what happens during an evaluation, the same evaluation is run on a heap that
writes down everything that is done to it.
-/

open Evaluation

/--
What happens when a scope is added: it is created, and then its names are bound, the
earliest first.
-/
def Happening.ofScope (id : ScopeId) (scope : Scope) : List Happening :=
  .created scope.outer? scope.call? ::
    scope.bindings.reverse.map fun binding => .bound id binding.1 binding.2

/-- A heap that writes down what happens to it, the earliest first. -/
structure RecordedHeap where
  heap : Heap
  history : List Happening

/-- Start to write down what happens to a heap. -/
def Heap.recorded (heap : Heap) : RecordedHeap :=
  ⟨heap, []⟩

instance : ScopeStore RecordedHeap where
  lookup? recorded id name :=
    recorded.heap.lookup? id name
  bind recorded id name value :=
    ⟨recorded.heap.bind id name value,
      recorded.history ++ [.bound id name value]⟩
  add recorded scope :=
    match recorded.heap.add scope with
    | (id, extended) =>
        (id, ⟨extended, recorded.history ++ Happening.ofScope id scope⟩)

/-- All functions among operands were written in one of so many scopes. -/
def Operands.Below (count : Nat) : Operands → Prop
  | .values all => ∀ value ∈ all, value.Below count
  | .interrupted value => value.Below count

section Values

variable {count : Nat} {value : Value}

theorem Value.IsData.below
    (data : value.IsData) :
    value.Below count := by
  cases value with
  | returned inner =>
      exact data.elim
  | function closure =>
      exact data.elim
  | _ =>
      exact trivial

theorem Value.Below.unmarked
    (below : value.Below count) :
    value.unmarked.Below count := by
  cases value with
  | returned inner =>
      exact below
  | _ =>
      exact below

end Values

namespace Heap

/-- Binding a name in the youngest scope is as good as creating it with the binding. -/
theorem bind_youngest
    (heap : Heap)
    (scope : Scope)
    (name : String)
    (value : Value) :
    (heap.add scope).2.bind heap.scopes.size name value =
      (heap.add (scope.bind name value)).2 := by
  refine congrArg Heap.mk (Array.ext_getElem? fun id => ?_)
  simp only [add, Array.getElem?_modify, Array.getElem?_push]
  by_cases youngest : id = heap.scopes.size
  · simp [youngest]
  · simp [youngest, Ne.symm youngest]

/-- Names are bound in the youngest scope one after the other. -/
theorem becomes_bindings
    (heap : Heap)
    (outer? : Option ScopeId)
    (call? : Option Call)
    (earlier bindings : List (String × Value))
    (below : ∀ binding ∈ bindings, binding.2.Below (heap.scopes.size + 1)) :
    (heap.add ⟨earlier, outer?, call?⟩).2.Becomes
      (bindings.map fun binding => .bound heap.scopes.size binding.1 binding.2)
      (heap.add ⟨bindings.reverse ++ earlier, outer?, call?⟩).2 := by
  induction bindings generalizing earlier with
  | nil =>
      exact .still _
  | cons binding rest inductionHypothesis =>
      obtain ⟨belowFirst, belowRest⟩ := List.forall_mem_cons.mp below
      have others := inductionHypothesis (binding :: earlier) belowRest
      rw [List.reverse_cons, List.append_assoc]
      refine .next ⟨?_, ?_⟩ ?_
      · simp [add]
      · simpa [add] using belowFirst
      · rw [after, bind_youngest]
        exact others

/-- A call creates its scope and binds the parameters there in order. -/
theorem becomes_ofCall
    {heap : Heap}
    {closure : Closure}
    {arguments : List Value}
    (inside : closure.scope < heap.scopes.size)
    (below : ∀ argument ∈ arguments, argument.Below heap.scopes.size) :
    heap.Becomes
      (Happening.ofScope heap.scopes.size (Scope.ofCall closure arguments))
      (heap.add (Scope.ofCall closure arguments)).2 := by
  have created :
      heap.Allows
        (.created (some closure.scope) (some ⟨closure, arguments.length⟩)) := by
    simpa [Allows] using inside
  have bound :=
    heap.becomes_bindings (some closure.scope) (some ⟨closure, arguments.length⟩) []
      ((closure.parameters.map Name.value).zip arguments)
      (fun binding member =>
        (below binding.2 (List.of_mem_zip member).2).mono (Nat.le_succ _))
  rw [List.append_nil] at bound
  rw [Happening.ofScope, Scope.ofCall, List.reverse_reverse]
  exact .next created bound

end Heap

namespace Evaluation

/--
The step on a heap in order that has so many scopes, and the step on such a heap that
writes down what happens: whatever they end with, it is the same, what is written
down leads from the heap before to the heap after, and the heap allows it.  If they
end with a value, then with a good one for the number of scopes there are then.
-/
def Makes
    (count : Nat)
    (good : Nat → α → Prop)
    (step : Evaluation α)
    (recording : Computation RecordedHeap α) :
    Prop :=
  ∀ heap : Heap, heap.Ordered → count ≤ heap.scopes.size →
    ∀ history, ∃ happenings,
      recording ⟨heap, history⟩ =
          ⟨(step heap).result, (step heap).heap, history ++ happenings⟩ ∧
        heap.Becomes happenings (step heap).heap ∧
        ∀ value, (step heap).result = .ok value →
          good (step heap).heap.scopes.size value

variable {count : Nat}

/-- A step that only looks at the heap makes nothing happen. -/
theorem Makes.ofLook
    {good : Nat → α → Prop}
    {look : Heap → α}
    (isGood :
      ∀ heap : Heap, heap.Ordered → count ≤ heap.scopes.size →
        good heap.scopes.size (look heap)) :
    Makes count good
      (fun heap => ⟨.ok (look heap), heap⟩)
      (fun recorded => ⟨.ok (look recorded.heap), recorded⟩) := by
  intro heap ordered enough history
  refine ⟨[], by rw [List.append_nil], .still heap, ?_⟩
  rintro _ ⟨⟩
  exact isGood heap ordered enough

theorem Makes.ofValue
    {good : Nat → α → Prop}
    {value : α}
    (isGood : ∀ more, count ≤ more → good more value) :
    Makes count good (pure value) (pure value) :=
  .ofLook fun heap _ => isGood heap.scopes.size

/-- A value made of functions of the scopes there are. -/
theorem Makes.ofBelow
    {value : Value}
    (below : value.Below count) :
    Makes count Value.Below (pure value) (pure value) :=
  .ofValue fun _ => below.mono

theorem Makes.ofFailure
    {good : Nat → α → Prop}
    (failure : Failure) :
    Makes count good (fail failure) (fail failure) := by
  intro heap _ _ history
  refine ⟨[], ?_, .still heap, fun _ never => by cases never⟩
  rw [List.append_nil]
  rfl

/-- A sequence makes happen what its parts do, also when it is cut short. -/
theorem Makes.bind
    {good : Nat → α → Prop}
    {better : Nat → β → Prop}
    {step : Evaluation α}
    {recording : Computation RecordedHeap α}
    {next : α → Evaluation β}
    {recordingNext : α → Computation RecordedHeap β}
    (first : Makes count good step recording)
    (second :
      ∀ value more, count ≤ more → good more value →
        Makes more better (next value) (recordingNext value)) :
    Makes count better (step >>= next) (recording >>= recordingNext) := by
  intro heap ordered enough history
  obtain ⟨happenings, recorded, becomes, isGood⟩ :=
    first heap ordered enough history
  simp only [Bind.bind, andThen, recorded]
  rcases ran : step heap with ⟨failure | value, middle⟩
  · rw [ran] at becomes
    exact ⟨happenings, rfl, becomes, fun _ never => by cases never⟩
  · rw [ran] at becomes isGood
    obtain ⟨others, recordedLast, becomesLast, isBetter⟩ :=
      second value middle.scopes.size (Nat.le_trans enough becomes.size_le)
        (isGood value rfl) middle (ordered.becomes becomes) (Nat.le_refl _)
        (history ++ happenings)
    rw [List.append_assoc] at recordedLast
    exact ⟨happenings ++ others, recordedLast, becomes.trans becomesLast, isBetter⟩

theorem Makes.useValue
    {step : Evaluation Value}
    {recording : Computation RecordedHeap Value}
    {use : Value → Evaluation Value}
    {recordingUse : Value → Computation RecordedHeap Value}
    (first : Makes count Value.Below step recording)
    (second :
      ∀ value more, count ≤ more → value.Below more →
        Makes more Value.Below (use value) (recordingUse value)) :
    Makes count Value.Below
      (step >>= fun value => useValue value use)
      (recording >>= fun value => useValue value recordingUse) := by
  refine first.bind fun value more atMost below => ?_
  cases value with
  | returned inner =>
      exact .ofBelow below
  | _ =>
      exact second _ more atMost below

theorem Makes.ofOperation
    {token : Token}
    {result : Except Fault Value}
    (data : ∀ value, result = .ok value → value.IsData) :
    Makes count Value.Below (ofOperation token result) (ofOperation token result) := by
  cases result with
  | error fault =>
      exact .ofFailure _
  | ok value =>
      exact .ofBelow (data value rfl).below

/-- What is written down leads to the heap that the step itself ends with. -/
theorem Makes.becomes_history
    {good : Nat → α → Prop}
    {step : Evaluation α}
    {recording : Computation RecordedHeap α}
    {heap : Heap}
    (makes : Makes heap.scopes.size good step recording)
    (ordered : heap.Ordered) :
    heap.Becomes (recording heap.recorded).heap.history (step heap).heap := by
  obtain ⟨happenings, recorded, becomes, -⟩ :=
    makes heap ordered (Nat.le_refl _) []
  rw [Heap.recorded, recorded]
  exact becomes

/-- A call runs the body in a scope that is there by then. -/
theorem Makes.applyWith
    {runBody : Block → ScopeId → Evaluation Value}
    {recordBody : Block → ScopeId → Computation RecordedHeap Value}
    (body :
      ∀ block scope more, scope < more →
        Makes more Value.Below (runBody block scope) (recordBody block scope))
    {callee : Value}
    {arguments : List Value}
    {token : Token}
    (calleeBelow : callee.Below count)
    (argumentsBelow : ∀ argument ∈ arguments, argument.Below count) :
    Makes count Value.Below
      (applyWith runBody callee arguments token)
      (applyWith recordBody callee arguments token) := by
  cases callee with
  | function closure =>
      have added :
          Makes count (fun size scope => scope < size)
            (addScope (Scope.ofCall closure arguments))
            (addScope (Scope.ofCall closure arguments)) := by
        intro heap ordered enough history
        have becomes :=
          Heap.becomes_ofCall (Nat.lt_of_lt_of_le calleeBelow enough)
            fun argument member => (argumentsBelow argument member).mono enough
        refine ⟨_, rfl, becomes, ?_⟩
        rintro _ ⟨⟩
        simp [addScope, Heap.add]
      simp only [Evaluation.applyWith]
      split
      · refine added.bind fun scope more _ inside => ?_
        exact (body closure.body scope more inside).bind fun value most _ below =>
          .ofBelow below.unmarked
      · exact .ofFailure _
  | _ =>
      exact .ofFailure _

end Evaluation

section Trees

variable
  {apply : Application}
  {recordCall : ApplicationOn RecordedHeap}
  {scope : ScopeId}

/-- Calls make things happen only in scopes that are there, and write them down. -/
def Application.MakesAll
    (apply : Application)
    (recordCall : ApplicationOn RecordedHeap) :
    Prop :=
  ∀ callee arguments token count,
    callee.Below count →
      (∀ argument ∈ arguments, argument.Below count) →
        Makes count Value.Below
          (apply callee arguments token)
          (recordCall callee arguments token)

mutual

theorem Expression.makes_evaluate
    (applied : apply.MakesAll recordCall)
    {count : Nat}
    (inside : scope < count) :
    (tree : Expression) →
      Makes count Value.Below
        (tree.evaluate apply scope)
        (tree.evaluate recordCall scope)
  | .identifier name => by
      rw [Expression.evaluate, Expression.evaluate]
      have looked :
          Makes count
            (fun size (found : Option Value) =>
              ∀ value, found = some value → value.Below size)
            (lookup? scope name.value)
            (lookup? scope name.value) := by
        refine .ofLook fun heap ordered _ value found => ?_
        obtain ⟨there, bindingScope, isScope, member⟩ :=
          Heap.exists_binding_of_lookupWithin found
        exact ordered.values there bindingScope name.value value isScope member
      refine looked.bind fun found more _ below => ?_
      cases found with
      | none =>
          exact .ofFailure _
      | some value =>
          exact .ofBelow (below value rfl)
  | .integer _ _ => by
      rw [Expression.evaluate, Expression.evaluate]
      exact .ofBelow trivial
  | .string _ _ => by
      rw [Expression.evaluate, Expression.evaluate]
      exact .ofBelow trivial
  | .boolean _ _ => by
      rw [Expression.evaluate, Expression.evaluate]
      exact .ofBelow trivial
  | .prefixed _ _ right => by
      rw [Expression.evaluate, Expression.evaluate]
      exact (right.makes_evaluate applied inside).useValue fun _ _ _ _ =>
        .ofOperation fun _ => Value.isData_of_applyPrefix
  | .binary _ left _ right => by
      rw [Expression.evaluate, Expression.evaluate]
      exact (left.makes_evaluate applied inside).useValue fun _ more atMost _ =>
        (right.makes_evaluate applied (Nat.lt_of_lt_of_le inside atMost)).useValue
          fun _ _ _ _ => .ofOperation fun _ => Value.isData_of_applyBinary
  | .conditional _ condition consequence alternative? => by
      rw [Expression.evaluate, Expression.evaluate]
      refine (condition.makes_evaluate applied inside).useValue
        fun value more atMost _ => ?_
      have insideMore := Nat.lt_of_lt_of_le inside atMost
      split
      · exact consequence.makes_evaluate applied insideMore
      · exact Block.makes_evaluate? applied insideMore alternative?
  | .function _ _ _ => by
      rw [Expression.evaluate, Expression.evaluate]
      exact .ofBelow inside
  | .call _ callee arguments => by
      rw [Expression.evaluate, Expression.evaluate]
      refine (callee.makes_evaluate applied inside).useValue
        fun calleeValue more atMost calleeBelow => ?_
      refine (Expression.makes_evaluateAll applied
        (Nat.lt_of_lt_of_le inside atMost) arguments).bind
          fun operands most evenMore below => ?_
      cases operands with
      | values values =>
          exact applied calleeValue values _ most (calleeBelow.mono evenMore) below
      | interrupted value =>
          exact .ofBelow below

theorem Expression.makes_evaluateAll
    (applied : apply.MakesAll recordCall)
    {count : Nat}
    (inside : scope < count) :
    (trees : List Expression) →
      Makes count Operands.Below
        (Expression.evaluateAll apply scope trees)
        (Expression.evaluateAll recordCall scope trees)
  | [] => by
      rw [Expression.evaluateAll, Expression.evaluateAll]
      exact .ofValue fun _ _ value member => by cases member
  | first :: rest => by
      rw [Expression.evaluateAll, Expression.evaluateAll]
      refine (first.makes_evaluate applied inside).bind
        fun value more atMost below => ?_
      split
      · exact .ofValue fun _ => below.mono
      · refine (Expression.makes_evaluateAll applied
          (Nat.lt_of_lt_of_le inside atMost) rest).bind
            fun operands most evenMore othersBelow => ?_
        cases operands with
        | values values =>
            refine .ofValue fun last lastMore => ?_
            have firstBelow := below.mono (Nat.le_trans evenMore lastMore)
            exact List.forall_mem_cons.mpr ⟨firstBelow, fun other member =>
              (othersBelow other member).mono lastMore⟩
        | interrupted value =>
            exact .ofValue fun _ => Value.Below.mono othersBelow

theorem Statement.makes_evaluate
    (applied : apply.MakesAll recordCall)
    {count : Nat}
    (inside : scope < count) :
    (tree : Statement) →
      Makes count Value.Below
        (tree.evaluate apply scope)
        (tree.evaluate recordCall scope)
  | .binding _ name value => by
      rw [Statement.evaluate, Statement.evaluate]
      refine (value.makes_evaluate applied inside).useValue
        fun bound more atMost below => ?_
      have insideMore := Nat.lt_of_lt_of_le inside atMost
      have binds :
          Makes more (fun _ _ => True)
            (bindName scope name.value bound)
            (bindName scope name.value bound) :=
        fun heap _ enough history =>
          ⟨[.bound scope name.value bound],
            rfl,
            .single ⟨Nat.lt_of_lt_of_le insideMore enough, below.mono enough⟩,
            fun _ _ => trivial⟩
      exact binds.bind fun _ _ _ _ => .ofBelow trivial
  | .returning _ value => by
      rw [Statement.evaluate, Statement.evaluate]
      refine (value.makes_evaluate applied inside).useValue
        fun result more _ below => ?_
      have marked : (Value.returned result).Below more := below
      exact .ofBelow marked
  | .expression _ inner => by
      rw [Statement.evaluate, Statement.evaluate]
      exact inner.makes_evaluate applied inside
  | .block inner => by
      rw [Statement.evaluate, Statement.evaluate]
      exact inner.makes_evaluate applied inside

theorem Statement.makes_evaluateAll
    (applied : apply.MakesAll recordCall)
    {count : Nat}
    (inside : scope < count) :
    (trees : List Statement) →
      (last : Value) →
        last.Below count →
          Makes count Value.Below
            (Statement.evaluateAll apply scope trees last)
            (Statement.evaluateAll recordCall scope trees last)
  | [], _, below => by
      rw [Statement.evaluateAll, Statement.evaluateAll]
      exact .ofBelow below
  | first :: rest, _, _ => by
      rw [Statement.evaluateAll, Statement.evaluateAll]
      exact (first.makes_evaluate applied inside).useValue
        fun value _ atMost below =>
          Statement.makes_evaluateAll applied (Nat.lt_of_lt_of_le inside atMost)
            rest value below

theorem Block.makes_evaluate
    (applied : apply.MakesAll recordCall)
    {count : Nat}
    (inside : scope < count) :
    (tree : Block) →
      Makes count Value.Below
        (tree.evaluate apply scope)
        (tree.evaluate recordCall scope)
  | ⟨_, statements⟩ => by
      rw [Block.evaluate, Block.evaluate]
      exact Statement.makes_evaluateAll applied inside statements .null trivial

theorem Block.makes_evaluate?
    (applied : apply.MakesAll recordCall)
    {count : Nat}
    (inside : scope < count) :
    (tree? : Option Block) →
      Makes count Value.Below
        (Block.evaluate? apply scope tree?)
        (Block.evaluate? recordCall scope tree?)
  | none => by
      rw [Block.evaluate?, Block.evaluate?]
      exact .ofBelow trivial
  | some tree => by
      rw [Block.evaluate?, Block.evaluate?]
      exact tree.makes_evaluate applied inside

end

end Trees

/-- However deep they nest, calls make things happen only in scopes there are. -/
theorem Evaluation.makesAll_applyWithin
    (limit : Nat) :
    Application.MakesAll (applyWithin limit) (applyWithin limit) := by
  induction limit with
  | zero =>
      intro callee arguments token count
      exact Makes.applyWith fun _ _ _ _ => .ofFailure _
  | succ limit inductionHypothesis =>
      intro callee arguments token count
      rw [applyWithin_succ, applyWithin_succ]
      exact Makes.applyWith fun block _ _ inside =>
        block.makes_evaluate inductionHypothesis inside

/-- So does a program. -/
theorem Program.makes_evaluate
    {count : Nat}
    {scope : ScopeId}
    (inside : scope < count)
    (limit : Nat)
    (program : Program) :
    Makes count Value.Below
      (program.evaluate limit scope)
      (program.evaluate limit scope) := by
  rw [Program.evaluate, Program.evaluate]
  exact (Statement.makes_evaluateAll (makesAll_applyWithin limit) inside
    program.statements .null trivial).bind fun _ _ _ below =>
      .ofBelow below.unmarked

end Scriptlet
