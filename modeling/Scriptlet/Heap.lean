import Scriptlet.Value

namespace Scriptlet

/-!
# Scopes

A scope binds names to values and may be enclosed in an older scope, in which
names are looked up that it does not bind itself.  Bindings always go into the
scope they are made in.  The heap holds every scope ever created, in the order
of creation; a scope is identified by its place in that order.
-/

/-- A call of a function with a number of arguments. -/
structure Call where
  closure : Closure
  arguments : Nat

/--
The bindings of a scope, the latest first, the enclosing scope, and the call
that the scope was created for.
-/
structure Scope where
  bindings : List (String × Value)
  outer? : Option ScopeId
  call? : Option Call

/-- All scopes, in the order they were created. -/
structure Heap where
  scopes : Array Scope

namespace Scope

/-- A scope that nothing is bound in and that no call was made for. -/
def enclosedIn (outer? : Option ScopeId) : Scope :=
  ⟨[], outer?, none⟩

/--
The scope of a call: inside the scope the function was written in, with the
parameters bound to the arguments in order.
-/
def ofCall (closure : Closure) (arguments : List Value) : Scope :=
  ⟨((closure.parameters.map Name.value).zip arguments).reverse,
    some closure.scope,
    some ⟨closure, arguments.length⟩⟩

/-- The value last bound to a name in this scope. -/
def get? (scope : Scope) (name : String) : Option Value :=
  scope.bindings.lookup name

/-- Bind a name, in front of all earlier bindings. -/
def bind (scope : Scope) (name : String) (value : Value) : Scope :=
  { scope with bindings := (name, value) :: scope.bindings }

end Scope

namespace Heap

/-- The heap before any scope is created. -/
def empty : Heap :=
  ⟨#[]⟩

/-- Add a scope after all scopes there are. -/
def add (heap : Heap) (scope : Scope) : ScopeId × Heap :=
  (heap.scopes.size, ⟨heap.scopes.push scope⟩)

/-- Create a scope without bindings. -/
def create (heap : Heap) (outer? : Option ScopeId) : ScopeId × Heap :=
  heap.add (Scope.enclosedIn outer?)

/-- The calls that scopes were created for, in the order they were made. -/
def calls (heap : Heap) : List Call :=
  heap.scopes.toList.filterMap Scope.call?

/-- Bind a name in a scope. -/
def bind (heap : Heap) (id : ScopeId) (name : String) (value : Value) : Heap :=
  ⟨heap.scopes.modify id fun scope => scope.bind name value⟩

/-- A new scope comes after all scopes there are. -/
theorem getElem?_add
    (heap : Heap)
    (scope : Scope)
    (id : ScopeId) :
    (heap.add scope).2.scopes[id]? =
      if id = heap.scopes.size then some scope else heap.scopes[id]? := by
  simp [add, Array.getElem?_push]

/-- A binding changes the scope it is made in and no other. -/
theorem getElem?_bind
    (heap : Heap)
    (target id : ScopeId)
    (name : String)
    (value : Value) :
    (heap.bind target name value).scopes[id]? =
      if target = id then
        heap.scopes[id]?.map fun scope => scope.bind name value
      else
        heap.scopes[id]? := by
  simp [bind, Array.getElem?_modify]

/-- A binding leaves every scope enclosed as it was. -/
theorem outer?_bind
    (heap : Heap)
    (target id : ScopeId)
    (name : String)
    (value : Value) :
    (heap.bind target name value).scopes[id]?.map Scope.outer? =
      heap.scopes[id]?.map Scope.outer? := by
  rw [getElem?_bind]
  split
  · rw [Option.map_map]
    rfl
  · rfl

/-- What is found among changed values is what is found, changed. -/
theorem lookup_map_values
    (change : α → β)
    (bindings : List (String × α))
    (name : String) :
    (bindings.map fun binding => (binding.1, change binding.2)).lookup name =
      (bindings.lookup name).map change := by
  induction bindings with
  | nil =>
      rfl
  | cons binding rest inductionHypothesis =>
      rw [List.map_cons, List.lookup_cons, List.lookup_cons, inductionHypothesis]
      split
      · rfl
      · rfl

/-- One scope is changed before or after all are read in another way. -/
theorem map_modify
    {read : α → β}
    {change : α → α}
    {changeRead : β → β}
    (fits : ∀ scope, read (change scope) = changeRead (read scope))
    (scopes : Array α)
    (id : ScopeId) :
    (scopes.modify id change).map read = (scopes.map read).modify id changeRead := by
  apply Array.ext_getElem?
  intro other
  simp only [Array.getElem?_modify, Array.getElem?_map]
  split
  · cases scopes[other]? with
    | none =>
        rfl
    | some scope =>
        simp [fits]
  · rfl

/-- Look a name up in a scope and at most `steps - 1` scopes around it. -/
def lookupWithin (heap : Heap) (name : String) : Nat → ScopeId → Option Value
  | 0, _ =>
      none
  | steps + 1, id =>
      match heap.scopes[id]? with
      | none =>
          none
      | some scope =>
          match scope.get? name with
          | some value =>
              some value
          | none =>
              match scope.outer? with
              | none =>
                  none
              | some outer =>
                  lookupWithin heap name steps outer

/--
Look a name up in a scope and the scopes around it.  Enclosing scopes are older,
so a chain from a scope has no more members than its place in the heap allows.
-/
def lookup? (heap : Heap) (id : ScopeId) (name : String) : Option Value :=
  lookupWithin heap name (id + 1) id

/-- A value that is found is bound to the name in some scope. -/
theorem exists_binding_of_lookupWithin
    {heap : Heap}
    {name : String}
    {steps : Nat}
    {id : ScopeId}
    {value : Value}
    (found : heap.lookupWithin name steps id = some value) :
    ∃ (there : ScopeId) (scope : Scope),
      heap.scopes[there]? = some scope ∧ (name, value) ∈ scope.bindings := by
  induction steps generalizing id with
  | zero =>
      cases found
  | succ steps inductionHypothesis =>
      rw [lookupWithin] at found
      cases isScope : heap.scopes[id]? with
      | none =>
          simp [isScope] at found
      | some scope =>
          cases isBound : scope.get? name with
          | some bound =>
              simp only [isScope, isBound, Option.some.injEq] at found
              subst found
              obtain ⟨front, back, shape, -⟩ := List.lookup_eq_some_iff.mp isBound
              exact ⟨id, scope, isScope, by simp [shape]⟩
          | none =>
              cases outer : scope.outer? with
              | none =>
                  simp [isScope, isBound, outer] at found
              | some around =>
                  simp only [isScope, isBound, outer] at found
                  exact inductionHypothesis found

end Heap

end Scriptlet
