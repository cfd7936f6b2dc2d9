import Scriptlet.Proofs.Return.Reference

namespace Scriptlet

/-!
# Marks stand for leaving

Evaluation tells a `return` on its way out by a mark on the value.  Read as a way
to end, the mark says that the step leaves; read so, evaluation and the run of
the same tree without marks are one and the same, step by step, in failures too.

The scopes of the two correspond as long as no name is bound to a marked value,
and evaluation never binds one.
-/

namespace Value

/-- The value is not on its way out of a `return`. -/
def Unmarked : Value → Prop
  | .returned _ => False
  | _ => True

/-- A value that is not marked is the plain value it is made of. -/
theorem toValue_plain
    {value : Value}
    (unmarked : value.Unmarked) :
    value.plain.toValue = value := by
  cases value with
  | returned inner =>
      exact unmarked.elim
  | _ =>
      rfl

end Value

namespace PlainValue

theorem unmarked_toValue (value : PlainValue) : value.toValue.Unmarked := by
  cases value <;> exact trivial

/-- A plain value is used, never handed on. -/
@[simp]
theorem useValue_toValue
    (value : PlainValue)
    (use : Value → Evaluation Value) :
    Evaluation.useValue value.toValue use = use value.toValue := by
  cases value <;> rfl

@[simp]
theorem unmarked_toValue_eq (value : PlainValue) :
    value.toValue.unmarked = value.toValue := by
  cases value <;> rfl

end PlainValue

/-- Integers, booleans and strings, which are all that operators give. -/
def Value.IsData : Value → Prop
  | .integer _ | .boolean _ | .string _ => True
  | _ => False

theorem Value.IsData.unmarked
    {value : Value}
    (data : value.IsData) :
    value.Unmarked := by
  cases value with
  | returned inner =>
      exact data.elim
  | _ =>
      exact trivial

theorem Value.isData_of_applyPrefix
    {operator : String}
    {right result : Value}
    (given : Value.applyPrefix operator right = .ok result) :
    result.IsData := by
  unfold Value.applyPrefix at given
  split at given
  · cases given
    exact trivial
  · split at given
    · cases given
      exact trivial
    · cases given

theorem Value.isData_of_applyBinary
    {operator : String}
    {left right result : Value}
    (given : Value.applyBinary operator left right = .ok result) :
    result.IsData := by
  unfold Value.applyBinary at given
  split at given
  · unfold Value.applyIntegers at given
    split at given
    all_goals try split at given
    all_goals cases given
    all_goals exact trivial
  · unfold Value.applyStrings at given
    split at given
    all_goals cases given
    all_goals exact trivial
  · unfold Value.applyBooleans at given
    split at given
    all_goals cases given
    all_goals exact trivial
  · unfold Value.applyOthers at given
    split at given
    all_goals try split at given
    all_goals cases given
    all_goals exact trivial

/-- No operator gives a marked value. -/
theorem Value.unmarked_of_applyPrefix
    {operator : String}
    {right result : Value}
    (given : Value.applyPrefix operator right = .ok result) :
    result.Unmarked :=
  (isData_of_applyPrefix given).unmarked

theorem Value.unmarked_of_applyBinary
    {operator : String}
    {left right result : Value}
    (given : Value.applyBinary operator left right = .ok result) :
    result.Unmarked :=
  (isData_of_applyBinary given).unmarked

namespace PlainScope

/-- A plain scope as a scope of the language. -/
def toScope (scope : PlainScope) : Scope :=
  ⟨scope.bindings.map fun binding => (binding.1, binding.2.toValue),
    scope.outer?,
    scope.call?⟩

theorem toScope_ofCall (closure : Closure) (arguments : List PlainValue) :
    (ofCall closure arguments).toScope =
      Scope.ofCall closure (arguments.map PlainValue.toValue) := by
  simp [ofCall, toScope, Scope.ofCall, List.zip_map_right]

theorem get?_toScope (scope : PlainScope) (name : String) :
    scope.toScope.get? name =
      (scope.bindings.lookup name).map PlainValue.toValue := by
  rw [Scope.get?, toScope, Heap.lookup_map_values]

end PlainScope

namespace PlainHeap

/-- A plain heap as a heap of the language. -/
def toHeap (heap : PlainHeap) : Heap :=
  ⟨heap.scopes.map PlainScope.toScope⟩

theorem getElem?_toHeap (heap : PlainHeap) (id : ScopeId) :
    heap.toHeap.scopes[id]? = heap.scopes[id]?.map PlainScope.toScope := by
  simp [toHeap]

theorem lookupWithin_toHeap
    (heap : PlainHeap)
    (name : String)
    (steps : Nat)
    (id : ScopeId) :
    heap.toHeap.lookupWithin name steps id =
      (heap.lookupWithin name steps id).map PlainValue.toValue := by
  induction steps generalizing id with
  | zero =>
      rfl
  | succ steps inductionHypothesis =>
      rw [Heap.lookupWithin, lookupWithin, getElem?_toHeap]
      cases heap.scopes[id]? with
      | none =>
          rfl
      | some scope =>
          simp only [Option.map_some, PlainScope.get?_toScope, Option.bind_eq_bind,
            Option.bind_some]
          cases scope.bindings.lookup name with
          | some value =>
              rfl
          | none =>
              cases outer : scope.outer? with
              | none =>
                  simp [PlainScope.toScope, outer]
              | some id =>
                  simpa [PlainScope.toScope, outer] using inductionHypothesis id

theorem lookup?_toHeap
    (heap : PlainHeap)
    (id : ScopeId)
    (name : String) :
    heap.toHeap.lookup? id name =
      (heap.lookup? id name).map PlainValue.toValue :=
  heap.lookupWithin_toHeap name (id + 1) id

/-- Binding a name and reading the heap with marks can change places. -/
theorem bind_toHeap
    (heap : PlainHeap)
    (id : ScopeId)
    (name : String)
    (value : PlainValue) :
    heap.toHeap.bind id name value.toValue =
      toHeap ⟨heap.scopes.modify id fun scope => scope.bind name value⟩ := by
  simp only [Heap.bind, toHeap, Heap.mk.injEq]
  symm
  apply Heap.map_modify
  intro scope
  rfl

theorem add_toHeap (heap : PlainHeap) (scope : PlainScope) :
    heap.toHeap.add scope.toScope =
      (heap.scopes.size, toHeap ⟨heap.scopes.push scope⟩) := by
  simp [Heap.add, toHeap]

end PlainHeap

namespace Scope

/-- No name is bound to a marked value in this scope. -/
def Unmarked (scope : Scope) : Prop :=
  ∀ binding ∈ scope.bindings, binding.2.Unmarked

/-- A scope with all marks taken off its values. -/
def plain (scope : Scope) : PlainScope :=
  ⟨scope.bindings.map fun binding => (binding.1, binding.2.plain),
    scope.outer?,
    scope.call?⟩

theorem toScope_plain
    {scope : Scope}
    (unmarked : scope.Unmarked) :
    scope.plain.toScope = scope := by
  have same
      (binding : String × Value)
      (bound : binding ∈ scope.bindings) :
      (binding.1, binding.2.plain.toValue) = binding := by
    rw [Value.toValue_plain (unmarked binding bound)]
  simp only [plain, PlainScope.toScope, List.map_map, Function.comp_def]
  rw [List.map_congr_left same, List.map_id']

end Scope

namespace Heap

/-- No name is bound to a marked value. -/
def Unmarked (heap : Heap) : Prop :=
  ∀ scope ∈ heap.scopes, scope.Unmarked

/-- A heap with all marks taken off its values. -/
def plain (heap : Heap) : PlainHeap :=
  ⟨heap.scopes.map Scope.plain⟩

/-- A heap without marked values is the plain heap it is made of. -/
theorem toHeap_plain
    {heap : Heap}
    (unmarked : heap.Unmarked) :
    heap.plain.toHeap = heap := by
  have same
      (scope : Scope)
      (member : scope ∈ heap.scopes) :
      scope.plain.toScope = scope :=
    Scope.toScope_plain (unmarked scope member)
  simp only [plain, PlainHeap.toHeap, Array.map_map, Function.comp_def]
  rw [Array.map_congr_left same, Array.map_id']

end Heap

theorem PlainHeap.unmarked_toHeap (heap : PlainHeap) : heap.toHeap.Unmarked := by
  intro scope member binding bound
  simp only [toHeap, Array.mem_map] at member
  obtain ⟨plainScope, -, rfl⟩ := member
  simp only [PlainScope.toScope, List.mem_map] at bound
  obtain ⟨plainBinding, -, rfl⟩ := bound
  exact plainBinding.2.unmarked_toValue

end Scriptlet
