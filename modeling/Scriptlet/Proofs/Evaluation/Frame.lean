import Scriptlet.Evaluation

namespace Scriptlet

/-!
# What evaluation leaves alone

Scopes are shared by all functions written in them, and every call adds one.
Evaluation in a scope makes bindings in that scope and in the scopes that its
own calls add, and nowhere else; a call makes none in any scope that was there
before.  So what is bound in a scope changes only while something is evaluated
in that very scope, and no scope is ever enclosed in another one than at first.
-/

namespace Heap

/--
The scopes of a heap are there later on as well, enclosed as they were, and those
that are not open to change are the same.
-/
structure Keeps
    (changing : ScopeId → Prop)
    (before after : Heap) :
    Prop where
  outer :
    ∀ id < before.scopes.size,
      after.scopes[id]?.map Scope.outer? = before.scopes[id]?.map Scope.outer?
  scope :
    ∀ id < before.scopes.size, ¬ changing id →
      after.scopes[id]? = before.scopes[id]?

namespace Keeps

variable {changing : ScopeId → Prop} {before middle after : Heap}

theorem refl (heap : Heap) : heap.Keeps changing heap :=
  ⟨fun _ _ => rfl, fun _ _ _ => rfl⟩

/-- No scope is ever lost. -/
theorem size_le
    (kept : before.Keeps changing after) :
    before.scopes.size ≤ after.scopes.size := by
  apply Nat.le_of_not_lt
  intro lost
  have there := kept.outer after.scopes.size lost
  rw [Array.getElem?_eq_none (Nat.le_refl _),
    Array.getElem?_eq_getElem lost] at there
  simp at there

theorem trans
    (first : before.Keeps changing middle)
    (second : middle.Keeps changing after) :
    before.Keeps changing after where
  outer := fun id inside =>
    (second.outer id (Nat.lt_of_lt_of_le inside first.size_le)).trans
      (first.outer id inside)
  scope := fun id inside unchanging =>
    (second.scope id (Nat.lt_of_lt_of_le inside first.size_le) unchanging).trans
      (first.scope id inside unchanging)

/-- What keeps every scope keeps those that are not open to change. -/
theorem weaken
    (kept : before.Keeps (fun _ => False) after) :
    before.Keeps changing after :=
  ⟨kept.outer, fun id inside _ => kept.scope id inside not_false⟩

/-- A scope that was not there before may change without harm. -/
theorem ofNew
    (kept : before.Keeps (· = before.scopes.size) after) :
    before.Keeps (fun _ => False) after :=
  ⟨kept.outer, fun id inside _ => kept.scope id inside (Nat.ne_of_lt inside)⟩

end Keeps

/-- A binding changes nothing but the bindings of its scope. -/
theorem keeps_bind
    (heap : Heap)
    (id : ScopeId)
    (name : String)
    (value : Value) :
    heap.Keeps (· = id) (heap.bind id name value) where
  outer := fun other _ => heap.outer?_bind id other name value
  scope := by
    intro other _ different
    rw [getElem?_bind, if_neg (Ne.symm different)]

/-- A new scope leaves all others as they are. -/
theorem keeps_add
    (heap : Heap)
    (scope : Scope) :
    heap.Keeps (fun _ => False) (heap.add scope).2 := by
  have same
      (id : ScopeId)
      (inside : id < heap.scopes.size) :
      (heap.add scope).2.scopes[id]? = heap.scopes[id]? := by
    rw [getElem?_add, if_neg (Nat.ne_of_lt inside)]
  exact ⟨fun id inside => congrArg _ (same id inside),
    fun id inside _ => same id inside⟩

end Heap

namespace Evaluation

/-- Whatever it ends with, the step keeps the scopes not open to change. -/
def Keeps
    (changing : ScopeId → Prop)
    (step : Evaluation α) :
    Prop :=
  ∀ heap : Heap, heap.Keeps changing (step heap).heap

variable {changing : ScopeId → Prop}

/-- A step that ends without touching the heap. -/
theorem Keeps.ofResult
    (result : Except Failure α) :
    Keeps changing fun heap => ⟨result, heap⟩ :=
  fun heap => Heap.Keeps.refl heap

theorem Keeps.ofOperation
    (token : Token)
    (result : Except Fault α) :
    Keeps changing (ofOperation token result) := by
  cases result with
  | error fault =>
      exact .ofResult _
  | ok value =>
      exact .ofResult _

/-- A sequence keeps what its parts keep, also when it is cut short. -/
theorem Keeps.bind
    {step : Evaluation α}
    {next : α → Evaluation β}
    (first : Keeps changing step)
    (second : ∀ value, Keeps changing (next value)) :
    Keeps changing (step >>= next) := by
  intro heap
  have front := first heap
  simp only [Bind.bind, andThen]
  split
  · rename_i ends
    rw [ends] at front
    exact front
  · rename_i value middle ends
    rw [ends] at front
    exact front.trans (second value middle)

theorem Keeps.useValue
    {step : Evaluation Value}
    {use : Value → Evaluation Value}
    (first : Keeps changing step)
    (second : ∀ value, Keeps changing (use value)) :
    Keeps changing (step >>= fun value => useValue value use) := by
  refine first.bind fun value => ?_
  cases value with
  | returned value =>
      exact .ofResult _
  | _ =>
      exact second _

/-- A call makes its bindings in a scope of its own. -/
theorem Keeps.applyWith
    {runBody : Block → ScopeId → Evaluation Value}
    (body : ∀ block scope, Keeps (· = scope) (runBody block scope))
    (callee : Value)
    (arguments : List Value)
    (token : Token) :
    Keeps (fun _ => False) (applyWith runBody callee arguments token) := by
  unfold Evaluation.applyWith
  split
  · rename_i closure
    split
    · intro heap
      have added := heap.keeps_add (Scope.ofCall closure arguments)
      have ran :=
        (body closure.body heap.scopes.size).bind
          (fun value => Keeps.ofResult (.ok value.unmarked))
          (heap.add (Scope.ofCall closure arguments)).2
      exact (added.weaken.trans ran).ofNew
    · exact .ofResult _
  · exact .ofResult _

end Evaluation

open Evaluation

section Trees

variable {apply : Application} {scope : ScopeId}

/-- Whatever is called, the scopes that were there before are kept. -/
def Application.KeepsAll (apply : Application) : Prop :=
  ∀ callee arguments token,
    Keeps (fun _ => False) (apply callee arguments token)

mutual

theorem Expression.keeps_evaluate
    (applied : apply.KeepsAll) :
    (tree : Expression) →
      Keeps (· = scope) (tree.evaluate apply scope)
  | .identifier name => by
      rw [Expression.evaluate]
      refine Keeps.bind (fun heap => .refl heap) fun found => ?_
      cases found with
      | none =>
          exact .ofResult _
      | some value =>
          exact .ofResult _
  | .integer _ _ => by
      rw [Expression.evaluate]
      exact .ofResult _
  | .string _ _ => by
      rw [Expression.evaluate]
      exact .ofResult _
  | .boolean _ _ => by
      rw [Expression.evaluate]
      exact .ofResult _
  | .prefixed _ _ right => by
      rw [Expression.evaluate]
      exact (right.keeps_evaluate applied).useValue fun _ => .ofOperation _ _
  | .binary _ left _ right => by
      rw [Expression.evaluate]
      exact (left.keeps_evaluate applied).useValue fun _ =>
        (right.keeps_evaluate applied).useValue fun _ => .ofOperation _ _
  | .conditional _ condition consequence alternative? => by
      rw [Expression.evaluate]
      refine (condition.keeps_evaluate applied).useValue fun value => ?_
      split
      · exact consequence.keeps_evaluate applied
      · exact Block.keeps_evaluate? applied alternative?
  | .function _ _ _ => by
      rw [Expression.evaluate]
      exact .ofResult _
  | .call _ callee arguments => by
      rw [Expression.evaluate]
      refine (callee.keeps_evaluate applied).useValue fun calleeValue => ?_
      refine (Expression.keeps_evaluateAll applied arguments).bind fun operands => ?_
      cases operands with
      | values values =>
          exact fun heap => (applied calleeValue values _ heap).weaken
      | interrupted value =>
          exact .ofResult _

theorem Expression.keeps_evaluateAll
    (applied : apply.KeepsAll) :
    (trees : List Expression) →
      Keeps (· = scope) (Expression.evaluateAll apply scope trees)
  | [] => by
      rw [Expression.evaluateAll]
      exact .ofResult _
  | first :: rest => by
      rw [Expression.evaluateAll]
      refine (first.keeps_evaluate applied).bind fun value => ?_
      split
      · exact .ofResult _
      · refine (Expression.keeps_evaluateAll applied rest).bind fun operands => ?_
        cases operands with
        | values values =>
            exact .ofResult _
        | interrupted value =>
            exact .ofResult _

theorem Statement.keeps_evaluate
    (applied : apply.KeepsAll) :
    (tree : Statement) →
      Keeps (· = scope) (tree.evaluate apply scope)
  | .binding _ name value => by
      rw [Statement.evaluate]
      exact (value.keeps_evaluate applied).useValue fun bound =>
        Keeps.bind (fun heap => heap.keeps_bind scope name.value bound) fun _ =>
          .ofResult _
  | .returning _ value => by
      rw [Statement.evaluate]
      exact (value.keeps_evaluate applied).useValue fun _ => .ofResult _
  | .expression _ inner => by
      rw [Statement.evaluate]
      exact inner.keeps_evaluate applied
  | .block inner => by
      rw [Statement.evaluate]
      exact inner.keeps_evaluate applied

theorem Statement.keeps_evaluateAll
    (applied : apply.KeepsAll) :
    (trees : List Statement) →
      (last : Value) →
        Keeps (· = scope) (Statement.evaluateAll apply scope trees last)
  | [], _ => by
      rw [Statement.evaluateAll]
      exact .ofResult _
  | first :: rest, _ => by
      rw [Statement.evaluateAll]
      exact (first.keeps_evaluate applied).useValue fun value =>
        Statement.keeps_evaluateAll applied rest value

theorem Block.keeps_evaluate
    (applied : apply.KeepsAll) :
    (tree : Block) →
      Keeps (· = scope) (tree.evaluate apply scope)
  | ⟨_, statements⟩ => by
      rw [Block.evaluate]
      exact Statement.keeps_evaluateAll applied statements .null

theorem Block.keeps_evaluate?
    (applied : apply.KeepsAll) :
    (tree? : Option Block) →
      Keeps (· = scope) (Block.evaluate? apply scope tree?)
  | none => by
      rw [Block.evaluate?]
      exact .ofResult _
  | some tree => by
      rw [Block.evaluate?]
      exact tree.keeps_evaluate applied

end

end Trees

namespace Evaluation

/-- However deep calls nest, a call keeps every scope that was there before. -/
theorem keepsAll_applyWithin
    (limit : Nat) :
    Application.KeepsAll (applyWithin limit) := by
  induction limit with
  | zero =>
      exact Keeps.applyWith fun _ _ => .ofResult _
  | succ limit inductionHypothesis =>
      rw [applyWithin_succ]
      exact Keeps.applyWith fun block _ => block.keeps_evaluate inductionHypothesis

/--
Evaluation in a scope keeps all other scopes as they are and every scope
enclosed as it was, and a call keeps all scopes as they are, whatever the
evaluation or the call ends with.
-/
theorem other_scopes_kept
    (limit : Nat)
    (heap : Heap)
    (scope : ScopeId) :
    (∀ tree : Expression,
      heap.Keeps (· = scope)
        (tree.evaluate (applyWithin limit) scope heap).heap) ∧
      (∀ tree : Statement,
        heap.Keeps (· = scope)
          (tree.evaluate (applyWithin limit) scope heap).heap) ∧
      ∀ callee arguments token,
        heap.Keeps (fun _ => False)
          (applyWithin limit callee arguments token heap).heap := by
  refine ⟨fun tree => ?_, fun tree => ?_, fun callee arguments token => ?_⟩
  · exact tree.keeps_evaluate (keepsAll_applyWithin limit) heap
  · exact tree.keeps_evaluate (keepsAll_applyWithin limit) heap
  · exact keepsAll_applyWithin limit callee arguments token heap

end Evaluation

end Scriptlet
