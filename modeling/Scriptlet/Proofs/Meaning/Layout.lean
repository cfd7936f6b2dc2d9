import Scriptlet.Command.Session
import Scriptlet.Proofs.Meaning.Bare

namespace Scriptlet

/-!
# Layout makes no difference to evaluation

Evaluating a bare tree on a bare heap mirrors evaluating the tree on the heap:
it ends with the same value or the same fault and with the same bindings, all of
them bare.  Two functions are equal exactly when their bare functions are, so
comparisons come out the same as well.  Programs of one shape that come from
source text share their bare tree; what either of them ends with is therefore
the same, but for the positions of faults.
-/

/-- A function whose tree is bare. -/
def Closure.bare (closure : Closure) : Closure :=
  ⟨closure.parameters.map Name.bare, closure.body.bare, closure.scope⟩

/-- A value in which the trees of functions are bare. -/
def Value.bare : Value → Value
  | .integer value => .integer value
  | .boolean value => .boolean value
  | .string value => .string value
  | .null => .null
  | .returned value => .returned value.bare
  | .function closure => .function closure.bare

/-- A scope in which the trees of functions are bare. -/
def Scope.bare (scope : Scope) : Scope :=
  ⟨scope.bindings.map fun binding => (binding.1, binding.2.bare),
    scope.outer?,
    scope.call?.map fun call => ⟨call.closure.bare, call.arguments⟩⟩

/-- A heap in which the trees of functions are bare. -/
def Heap.bare (heap : Heap) : Heap :=
  ⟨heap.scopes.map Scope.bare⟩

/-- A failure without the position of its fault. -/
def Failure.bare : Failure → Failure
  | .fault diagnostic => .fault ⟨diagnostic.fault, Position.null⟩
  | .tooManyCalls => .tooManyCalls

/-- Operands in which the trees of functions are bare. -/
def Operands.bare : Operands → Operands
  | .values all => .values (all.map Value.bare)
  | .interrupted value => .interrupted value.bare

namespace Closure

theorem text_bare (closure : Closure) : closure.bare.text = closure.text := by
  simp only [bare, text, Name.canonicalList, Name.map_value_bare,
    Block.canonical_bare]

theorem same_bare (left right : Closure) :
    left.bare.same right.bare = left.same right := by
  simp only [bare, same, Name.sameShapes, Name.map_value_bare,
    Block.sameShape_bare]

end Closure

namespace Value

@[simp]
theorem typeName_bare (value : Value) : value.bare.typeName = value.typeName := by
  cases value <;> rfl

theorem text_bare (value : Value) : value.bare.text = value.text := by
  induction value with
  | returned value inductionHypothesis =>
      simpa only [bare, text] using inductionHypothesis
  | function closure =>
      exact closure.text_bare
  | _ =>
      rfl

@[simp]
theorem isTruthy_bare (value : Value) : value.bare.isTruthy = value.isTruthy := by
  cases value <;> rfl

theorem unmarked_bare (value : Value) : value.bare.unmarked = value.unmarked.bare := by
  cases value <;> rfl

theorem same_bare (left right : Value) :
    left.bare.same right.bare = left.same right := by
  induction left generalizing right with
  | returned left inductionHypothesis =>
      cases right with
      | returned right =>
          simpa only [bare, same] using inductionHypothesis right
      | _ =>
          rfl
  | function left =>
      cases right with
      | function right =>
          exact left.same_bare right
      | _ =>
          rfl
  | _ =>
      cases right <;> rfl

/-- Operators do to bare values what they do to values. -/
theorem applyPrefix_bare (operator : String) (right : Value) :
    applyPrefix operator right.bare = (applyPrefix operator right).map bare := by
  unfold applyPrefix
  split
  · simp [Except.map, bare]
  · cases right with
    | integer value =>
        simp only [bare]
        split
        · rfl
        · rfl
    | _ =>
        simp [Except.map, bare, typeName]

theorem applyIntegers_bare (operator : String) (left right : Int64) :
    (applyIntegers operator left right).map bare =
      applyIntegers operator left right := by
  unfold applyIntegers
  split
  all_goals try split
  all_goals rfl

theorem applyStrings_bare (operator left right : String) :
    (applyStrings operator left right).map bare =
      applyStrings operator left right := by
  unfold applyStrings
  split
  all_goals rfl

theorem applyBooleans_bare (operator : String) (left right : Bool) :
    (applyBooleans operator left right).map bare =
      applyBooleans operator left right := by
  unfold applyBooleans
  split
  all_goals rfl

theorem applyOthers_bare (operator : String) (left right : Value) :
    applyOthers operator left.bare right.bare =
      (applyOthers operator left right).map bare := by
  unfold applyOthers
  rw [same_bare, typeName_bare, typeName_bare]
  split
  · rfl
  · rfl
  · split
    · rfl
    · rfl

theorem applyBinary_bare (operator : String) (left right : Value) :
    applyBinary operator left.bare right.bare =
      (applyBinary operator left right).map bare := by
  cases left with
  | integer left =>
      cases right with
      | integer right =>
          exact (applyIntegers_bare operator left right).symm
      | _ =>
          exact applyOthers_bare operator _ _
  | string left =>
      cases right with
      | string right =>
          exact (applyStrings_bare operator left right).symm
      | _ =>
          exact applyOthers_bare operator _ _
  | boolean left =>
      cases right with
      | boolean right =>
          exact (applyBooleans_bare operator left right).symm
      | _ =>
          exact applyOthers_bare operator _ _
  | _ =>
      cases right <;> exact applyOthers_bare operator _ _

end Value

namespace Heap

theorem getElem?_bare (heap : Heap) (id : ScopeId) :
    heap.bare.scopes[id]? = heap.scopes[id]?.map Scope.bare := by
  simp [bare]

end Heap

theorem Scope.get?_bare (scope : Scope) (name : String) :
    scope.bare.get? name = (scope.get? name).map Value.bare := by
  rw [get?, get?, bare, Heap.lookup_map_values]

theorem Scope.bare_ofCall (closure : Closure) (arguments : List Value) :
    (ofCall closure arguments).bare =
      ofCall closure.bare (arguments.map Value.bare) := by
  simp [ofCall, bare, Closure.bare, List.zip_map_right, Function.comp_def]

namespace Heap

theorem lookupWithin_bare
    (heap : Heap)
    (name : String)
    (steps : Nat)
    (id : ScopeId) :
    heap.bare.lookupWithin name steps id =
      (heap.lookupWithin name steps id).map Value.bare := by
  induction steps generalizing id with
  | zero =>
      rfl
  | succ steps inductionHypothesis =>
      rw [lookupWithin, lookupWithin, getElem?_bare]
      cases heap.scopes[id]? with
      | none =>
          rfl
      | some scope =>
          simp only [Option.map_some, Scope.get?_bare]
          cases scope.get? name with
          | some value =>
              rfl
          | none =>
              cases outer : scope.outer? with
              | none =>
                  simp [Scope.bare, outer]
              | some id =>
                  simpa [Scope.bare, outer] using inductionHypothesis id

theorem lookup?_bare (heap : Heap) (id : ScopeId) (name : String) :
    heap.bare.lookup? id name = (heap.lookup? id name).map Value.bare :=
  heap.lookupWithin_bare name (id + 1) id

theorem bind_bare (heap : Heap) (id : ScopeId) (name : String) (value : Value) :
    (heap.bind id name value).bare = heap.bare.bind id name value.bare := by
  simp only [bind, bare, Heap.mk.injEq]
  apply map_modify
  intro scope
  rfl

theorem add_bare (heap : Heap) (scope : Scope) :
    heap.bare.add scope.bare = ((heap.add scope).1, (heap.add scope).2.bare) := by
  simp [add, bare]

end Heap

namespace Evaluation

/-- On a bare heap, the other step ends as the step does, bare. -/
def Mirrors
    (strip : α → β)
    (step : Evaluation α)
    (mirror : Evaluation β) :
    Prop :=
  ∀ heap : Heap,
    mirror heap.bare =
      ⟨((step heap).result.map strip).mapError Failure.bare,
        (step heap).heap.bare⟩

theorem Mirrors.bind
    {strip : α → β}
    {otherStrip : γ → δ}
    {step : Evaluation α}
    {mirror : Evaluation β}
    {next : α → Evaluation γ}
    {mirrorNext : β → Evaluation δ}
    (first : Mirrors strip step mirror)
    (second : ∀ value, Mirrors otherStrip (next value) (mirrorNext (strip value))) :
    Mirrors otherStrip (step >>= next) (mirror >>= mirrorNext) := by
  intro heap
  have front := first heap
  simp only [Bind.bind, andThen, front]
  rcases step heap with ⟨failure | value, middle⟩
  · rfl
  · exact second value middle

/-- A step that ends with a value and leaves the heap as it is. -/
theorem Mirrors.ofValue
    {strip : α → β}
    (value : α) :
    Mirrors strip (pure value) (pure (strip value)) :=
  fun _ => rfl

theorem Mirrors.ofFault
    {strip : α → β}
    (token : Token)
    (fault : Fault) :
    Mirrors strip (faultAt token fault) (faultAt Token.blank fault) :=
  fun _ => rfl

/-- A mark is seen on the bare value as well. -/
theorem Mirrors.useValue
    {step mirror : Evaluation Value}
    {use mirrorUse : Value → Evaluation Value}
    (first : Mirrors Value.bare step mirror)
    (second : ∀ value, Mirrors Value.bare (use value) (mirrorUse value.bare)) :
    Mirrors Value.bare
      (step >>= fun value => useValue value use)
      (mirror >>= fun value => useValue value mirrorUse) := by
  refine first.bind fun value => ?_
  cases value with
  | returned value =>
      exact fun _ => rfl
  | _ =>
      exact second _

theorem Mirrors.ofOperation
    (token : Token)
    (result : Except Fault Value) :
    Mirrors Value.bare
      (ofOperation token result)
      (ofOperation Token.blank (result.map Value.bare)) := by
  cases result with
  | error fault =>
      exact fun _ => rfl
  | ok value =>
      exact fun _ => rfl

theorem Mirrors.applyWith
    {runBody : Block → ScopeId → Evaluation Value}
    (body :
      ∀ block scope,
        Mirrors Value.bare (runBody block scope) (runBody block.bare scope))
    (callee : Value)
    (arguments : List Value)
    (token : Token) :
    Mirrors Value.bare
      (applyWith runBody callee arguments token)
      (applyWith runBody callee.bare (arguments.map Value.bare) Token.blank) := by
  cases callee with
  | function closure =>
      have added :
          Mirrors id
            (addScope (Scope.ofCall closure arguments))
            (addScope (Scope.ofCall closure.bare (arguments.map Value.bare))) := by
        intro heap
        simp only [addScope, Heap.store_add, ← Scope.bare_ofCall, Heap.add_bare]
        rfl
      simp only [Evaluation.applyWith, Value.bare]
      simp only [Closure.bare, List.length_map]
      split
      · refine added.bind fun scope => ?_
        refine (body closure.body scope).bind fun value => ?_
        rw [value.unmarked_bare]
        exact .ofValue _
      · exact .ofFault _ _
  | _ =>
      exact .ofFault _ _

end Evaluation

open Evaluation

section Trees

variable {apply : Application} {scope : ScopeId}

/-- Calls of bare values mirror calls of the values. -/
def Application.MirrorsBare (apply : Application) : Prop :=
  ∀ callee arguments token,
    Mirrors Value.bare
      (apply callee arguments token)
      (apply callee.bare (arguments.map Value.bare) Token.blank)

mutual

theorem Expression.mirrors
    (applied : apply.MirrorsBare) :
    (tree : Expression) →
      Mirrors Value.bare
        (tree.evaluate apply scope)
        (tree.bare.evaluate apply scope)
  | .identifier name => by
      rw [Expression.bare, Expression.evaluate, Expression.evaluate]
      have looked :
          Mirrors (Option.map Value.bare)
            (lookup? scope name.value)
            (lookup? scope name.value) := by
        intro heap
        simp only [lookup?, Heap.store_lookup?, Heap.lookup?_bare]
        rfl
      refine looked.bind fun found => ?_
      cases found with
      | none =>
          exact .ofFault _ _
      | some value =>
          exact .ofValue value
  | .integer _ _ => by
      rw [Expression.bare, Expression.evaluate, Expression.evaluate]
      exact .ofValue _
  | .string _ _ => by
      rw [Expression.bare, Expression.evaluate, Expression.evaluate]
      exact .ofValue _
  | .boolean _ _ => by
      rw [Expression.bare, Expression.evaluate, Expression.evaluate]
      exact .ofValue _
  | .prefixed _ _ right => by
      rw [Expression.bare, Expression.evaluate, Expression.evaluate]
      refine (right.mirrors applied).useValue fun rightValue => ?_
      rw [Value.applyPrefix_bare]
      exact .ofOperation _ _
  | .binary _ left _ right => by
      rw [Expression.bare, Expression.evaluate, Expression.evaluate]
      refine (left.mirrors applied).useValue fun leftValue => ?_
      refine (right.mirrors applied).useValue fun rightValue => ?_
      rw [Value.applyBinary_bare]
      exact .ofOperation _ _
  | .conditional _ condition consequence alternative? => by
      rw [Expression.bare, Expression.evaluate, Expression.evaluate]
      refine (condition.mirrors applied).useValue fun value => ?_
      rw [Value.isTruthy_bare]
      split
      · exact consequence.mirrors applied
      · exact Block.mirrors? applied alternative?
  | .function _ _ _ => by
      rw [Expression.bare, Expression.evaluate, Expression.evaluate]
      exact .ofValue _
  | .call token callee arguments => by
      rw [Expression.bare, Expression.evaluate, Expression.evaluate]
      refine (callee.mirrors applied).useValue fun calleeValue => ?_
      refine (Expression.mirrors_all applied arguments).bind fun operands => ?_
      cases operands with
      | values values =>
          exact applied calleeValue values token
      | interrupted value =>
          exact .ofValue value

theorem Expression.mirrors_all
    (applied : apply.MirrorsBare) :
    (trees : List Expression) →
      Mirrors Operands.bare
        (Expression.evaluateAll apply scope trees)
        (Expression.evaluateAll apply scope (Expression.bareAll trees))
  | [] => by
      rw [Expression.bareAll, Expression.evaluateAll]
      exact .ofValue _
  | first :: rest => by
      rw [Expression.bareAll, Expression.evaluateAll, Expression.evaluateAll]
      refine (first.mirrors applied).bind fun firstValue => ?_
      have others
          (value : Value) :
          Mirrors Operands.bare
            (do
              match ← Expression.evaluateAll apply scope rest with
              | .values values => return .values (value :: values)
              | .interrupted value => return .interrupted value)
            (do
              match ← Expression.evaluateAll apply scope
                  (Expression.bareAll rest) with
              | .values values => return .values (value.bare :: values)
              | .interrupted value => return .interrupted value) := by
        refine (Expression.mirrors_all applied rest).bind fun operands => ?_
        cases operands with
        | values values =>
            exact .ofValue (Operands.values (value :: values))
        | interrupted value =>
            exact .ofValue (Operands.interrupted value)
      cases firstValue with
      | returned value =>
          exact .ofValue (Operands.interrupted (.returned value))
      | _ =>
          exact others _

theorem Statement.mirrors
    (applied : apply.MirrorsBare) :
    (tree : Statement) →
      Mirrors Value.bare
        (tree.evaluate apply scope)
        (tree.bare.evaluate apply scope)
  | .binding _ name value => by
      rw [Statement.bare, Statement.evaluate, Statement.evaluate]
      refine (value.mirrors applied).useValue fun bound => ?_
      have binds :
          Mirrors id
            (bindName scope name.value bound)
            (bindName scope name.value bound.bare) := by
        intro heap
        simp only [bindName, Heap.store_bind, Heap.bind_bare]
        rfl
      exact binds.bind fun _ => .ofValue _
  | .returning _ value => by
      rw [Statement.bare, Statement.evaluate, Statement.evaluate]
      exact (value.mirrors applied).useValue fun result =>
        .ofValue (Value.returned result)
  | .expression _ inner => by
      rw [Statement.bare, Statement.evaluate, Statement.evaluate]
      exact inner.mirrors applied
  | .block inner => by
      rw [Statement.bare, Statement.evaluate, Statement.evaluate]
      exact inner.mirrors applied

theorem Statement.mirrors_all
    (applied : apply.MirrorsBare) :
    (trees : List Statement) →
      (last : Value) →
        Mirrors Value.bare
          (Statement.evaluateAll apply scope trees last)
          (Statement.evaluateAll apply scope (Statement.bareAll trees) last.bare)
  | [], last => by
      rw [Statement.bareAll, Statement.evaluateAll, Statement.evaluateAll]
      exact .ofValue last
  | first :: rest, _ => by
      rw [Statement.bareAll, Statement.evaluateAll, Statement.evaluateAll]
      exact (first.mirrors applied).useValue fun value =>
        Statement.mirrors_all applied rest value

theorem Block.mirrors
    (applied : apply.MirrorsBare) :
    (tree : Block) →
      Mirrors Value.bare
        (tree.evaluate apply scope)
        (tree.bare.evaluate apply scope)
  | ⟨_, statements⟩ => by
      rw [Block.bare, Block.evaluate, Block.evaluate]
      exact Statement.mirrors_all applied statements .null

theorem Block.mirrors?
    (applied : apply.MirrorsBare) :
    (tree? : Option Block) →
      Mirrors Value.bare
        (Block.evaluate? apply scope tree?)
        (Block.evaluate? apply scope (Block.bare? tree?))
  | none => by
      rw [Block.bare?, Block.evaluate?]
      exact .ofValue _
  | some tree => by
      rw [Block.bare?, Block.evaluate?, Block.evaluate?]
      exact tree.mirrors applied

end

end Trees

/-- However deep they nest, calls of bare values mirror calls of the values. -/
theorem Evaluation.mirrorsBare_applyWithin (limit : Nat) :
    Application.MirrorsBare (applyWithin limit) := by
  induction limit with
  | zero =>
      exact Mirrors.applyWith fun _ _ _ => rfl
  | succ limit inductionHypothesis =>
      rw [applyWithin_succ]
      exact Mirrors.applyWith fun block _ => block.mirrors inductionHypothesis

/-- Evaluating a bare program mirrors evaluating the program. -/
theorem Program.mirrors
    (limit : Nat)
    (scope : ScopeId)
    (program : Program) :
    Mirrors Value.bare
      (program.evaluate limit scope)
      (program.bare.evaluate limit scope) := by
  refine (Statement.mirrors_all (mirrorsBare_applyWithin limit)
    program.statements .null).bind fun value => ?_
  rw [value.unmarked_bare]
  exact .ofValue _

/-- Two values of one type that are printed the same. -/
def Value.LooksLike (left right : Value) : Prop :=
  left.typeName = right.typeName ∧ left.text = right.text

/-- Values with one bare value look alike. -/
theorem Value.looksLike_of_bare_eq
    {left right : Value}
    (same : left.bare = right.bare) :
    left.LooksLike right := by
  constructor
  · rw [← left.typeName_bare, same, right.typeName_bare]
  · rw [← left.text_bare, same, right.text_bare]

namespace Evaluation

/--
Two results are alike: values that look alike, one fault at whatever positions,
or too many calls on both sides.
-/
def Alike : Except Failure Value → Except Failure Value → Prop
  | .ok left, .ok right => left.LooksLike right
  | .error (.fault left), .error (.fault right) => left.fault = right.fault
  | .error .tooManyCalls, .error .tooManyCalls => True
  | _, _ => False

theorem alike_of_bare_eq
    {left right : Except Failure Value}
    (same :
      (left.map Value.bare).mapError Failure.bare =
        (right.map Value.bare).mapError Failure.bare) :
    Alike left right := by
  cases left with
  | ok left =>
      cases right with
      | ok right =>
          exact Value.looksLike_of_bare_eq (Except.ok.inj same)
      | error failure =>
          contradiction
  | error leftFailure =>
      cases right with
      | ok right =>
          contradiction
      | error rightFailure =>
          have sameFailure : leftFailure.bare = rightFailure.bare :=
            Except.error.inj same
          cases leftFailure <;> cases rightFailure <;>
            simp only [Failure.bare, Failure.fault.injEq, Diagnostic.mk.injEq,
              reduceCtorEq, and_true] at sameFailure
          · exact sameFailure
          · exact trivial

/-- Two outcomes are alike, and so is what a scope binds in the end. -/
structure Outcome.AlikeFrom
    (scope : ScopeId)
    (left right : Outcome Heap Value) :
    Prop where
  result : Alike left.result right.result
  names :
    ∀ name,
      Option.Rel Value.LooksLike
        (left.heap.lookup? scope name)
        (right.heap.lookup? scope name)

end Evaluation

/-- What is bound to a name looks alike in heaps with one bare heap. -/
theorem Heap.lookup?_alike
    {left right : Heap}
    (same : left.bare = right.bare)
    (scope : ScopeId)
    (name : String) :
    Option.Rel Value.LooksLike
      (left.lookup? scope name)
      (right.lookup? scope name) := by
  have found := left.lookup?_bare scope name
  rw [same, right.lookup?_bare] at found
  cases leftFound : left.lookup? scope name with
  | none =>
      rw [leftFound, Option.map_none, Option.map_eq_none_iff] at found
      rw [found]
      exact .none
  | some leftValue =>
      rw [leftFound, Option.map_some, Option.map_eq_some_iff] at found
      obtain ⟨rightValue, rightFound, sameValue⟩ := found
      rw [rightFound]
      exact .some (Value.looksLike_of_bare_eq sameValue.symm)

namespace Program

/-- Programs with one bare program mean the same on every heap. -/
theorem alikeFrom_of_bare_eq
    {program other : Program}
    (same : program.bare = other.bare)
    (limit : Nat)
    (scope : ScopeId)
    (heap : Heap) :
    Outcome.AlikeFrom scope
      (program.evaluate limit scope heap)
      (other.evaluate limit scope heap) := by
  have mirrored := program.mirrors limit scope heap
  rw [same, other.mirrors limit scope heap, Outcome.mk.injEq] at mirrored
  obtain ⟨sameResult, sameHeap⟩ := mirrored
  exact ⟨alike_of_bare_eq sameResult.symm,
    fun name => Heap.lookup?_alike sameHeap.symm scope name⟩

/--
Programs of one shape mean the same, however their source texts are laid out:
evaluated in a new scope they end with values that look alike, in the same
fault, or with too many calls, and what names are bound to in the end looks
alike too.  So does a program and its canonical form, where that is read as a
program of the same shape.
-/
theorem same_shape_same_meaning
    (strictBlocks otherStrict : Bool)
    (source file otherSource otherFile : String)
    (same :
      (Parsed.ofSource strictBlocks source file).program.sameShape
        (Parsed.ofSource otherStrict otherSource otherFile).program = true)
    (limit : Nat) :
    Outcome.AlikeFrom Session.new.scope
      ((Parsed.ofSource strictBlocks source file).program.evaluate
        limit Session.new.scope Session.new.heap)
      ((Parsed.ofSource otherStrict otherSource otherFile).program.evaluate
        limit Session.new.scope Session.new.heap) := by
  have sourced := Parsed.sourced_ofSource strictBlocks source file
  have otherSourced := Parsed.sourced_ofSource otherStrict otherSource otherFile
  apply alikeFrom_of_bare_eq
  exact congrArg Program.mk (Statement.bareAll_eq _ _ sourced otherSourced same)

/-- A call of a function, and the same program in its canonical form. -/
theorem same_shape_same_meaning_canonical :
    let program :=
      (Parsed.ofSource true "let f = fn(x) \x7b x + 007 \x7d; f( (1) )" "a").program
    let reread := (Parsed.ofSource false program.canonical "b").program
    program.sameShape reread = true ∧
      Outcome.AlikeFrom Session.new.scope
        (program.evaluate 2 Session.new.scope Session.new.heap)
        (reread.evaluate 2 Session.new.scope Session.new.heap) := by
  have same :
      (Parsed.ofSource true
          "let f = fn(x) \x7b x + 007 \x7d; f( (1) )" "a").program.sameShape
        (Parsed.ofSource false
          (Parsed.ofSource true
            "let f = fn(x) \x7b x + 007 \x7d; f( (1) )" "a").program.canonical
          "b").program = true := by
    decide +kernel
  exact ⟨same, same_shape_same_meaning true false _ _ _ _ same 2⟩

end Program

end Scriptlet
