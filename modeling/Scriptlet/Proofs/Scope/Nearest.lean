import Scriptlet.Proofs.Scope.Happenings

namespace Scriptlet

/-!
# Lookups find the nearest scope and its latest value

Scopes are created, names are bound in them, and programs, statements and expressions
are evaluated in them, in any order and any number of times.  The functions met on the
way keep scopes, and scopes keep functions, so that values and scopes refer to each
other in circles; the links from a scope to the one around it never do.

A lookup therefore ends, whatever was done before.  It finds the value last bound to
the name in the nearest scope that binds it, and a further binding changes only the
lookups that come to its scope before another one binds the name.
-/

open Evaluation Happening

/-- What may be done to the scopes there are. -/
inductive ScopeOperation where
  /-- Create a scope that is enclosed in none. -/
  | create
  /-- Create a scope inside another one. -/
  | enclose (outer : ScopeId)
  /-- Bind a name in a scope. -/
  | set (scope : ScopeId) (name : String) (value : Value)
  /-- Evaluate a program in a scope, with so many calls active at a time at most. -/
  | evaluateProgram (limit : Nat) (scope : ScopeId) (program : Program)
  /-- Evaluate a statement in a scope. -/
  | evaluateStatement (limit : Nat) (scope : ScopeId) (statement : Statement)
  /-- Evaluate an expression in a scope. -/
  | evaluateExpression (limit : Nat) (scope : ScopeId) (expression : Expression)

namespace ScopeOperation

/-- The heap after an operation, whatever an evaluation ends with. -/
def after (heap : Heap) : ScopeOperation → Heap
  | .create => (heap.create none).2
  | .enclose outer => (heap.create (some outer)).2
  | .set scope name value => heap.bind scope name value
  | .evaluateProgram limit scope program =>
      (program.evaluate limit scope heap).heap
  | .evaluateStatement limit scope statement =>
      (statement.evaluate (applyWithin limit) scope heap).heap
  | .evaluateExpression limit scope expression =>
      (expression.evaluate (applyWithin limit) scope heap).heap

/-- An operation is possible on a heap that has the scopes it refers to. -/
def Possible (heap : Heap) : ScopeOperation → Prop
  | .create => True
  | .enclose outer => outer < heap.scopes.size
  | .set scope _ value => scope < heap.scopes.size ∧ value.Below heap.scopes.size
  | .evaluateProgram _ scope _ => scope < heap.scopes.size
  | .evaluateStatement _ scope _ => scope < heap.scopes.size
  | .evaluateExpression _ scope _ => scope < heap.scopes.size

/--
What an operation makes happen: that for which it is named, or all that an evaluation
does to the heap, as it is written down in the course of it.
-/
def Tells (heap : Heap) (happenings : List Happening) : ScopeOperation → Prop
  | .create => happenings = [.created none none]
  | .enclose outer => happenings = [.created (some outer) none]
  | .set scope name value => happenings = [.bound scope name value]
  | .evaluateProgram limit scope program =>
      happenings = (program.evaluate limit scope heap.recorded).heap.history
  | .evaluateStatement limit scope statement =>
      happenings =
        (statement.evaluate (applyWithin limit) scope heap.recorded).heap.history
  | .evaluateExpression limit scope expression =>
      happenings =
        (expression.evaluate (applyWithin limit) scope heap.recorded).heap.history

/-- The heap after operations in order. -/
def afterAll (heap : Heap) : List ScopeOperation → Heap
  | [] => heap
  | operation :: rest => afterAll (operation.after heap) rest

/-- Each operation is possible when its turn comes. -/
def AllPossible (heap : Heap) : List ScopeOperation → Prop
  | [] => True
  | operation :: rest =>
      operation.Possible heap ∧ AllPossible (operation.after heap) rest

/-- The histories of operations that are done in order. -/
inductive AllTell : Heap → List ScopeOperation → List Happening → Prop where
  | nothing
      (heap : Heap) :
      AllTell heap [] []
  | next
      {heap : Heap}
      {operation : ScopeOperation}
      {rest : List ScopeOperation}
      {happenings later : List Happening}
      (tells : operation.Tells heap happenings)
      (others : AllTell (operation.after heap) rest later) :
      AllTell heap (operation :: rest) (happenings ++ later)

end ScopeOperation

/-- The chain comes to the scope, and no scope before it binds the name. -/
def Happening.Reaches
    (history : List Happening)
    (chain : List ScopeId)
    (target : ScopeId)
    (name : String) :
    Prop :=
  ∃ nearer farther,
    chain = nearer ++ target :: farther ∧ ∀ id ∈ nearer, ¬ Binds history id name

namespace Heap

/-- The scopes from one outwards, each created inside the next. -/
inductive Chain (heap : Heap) : ScopeId → List ScopeId → Prop where
  | outermost
      {id : ScopeId}
      {scope : Scope}
      (isScope : heap.scopes[id]? = some scope)
      (alone : scope.outer? = none) :
      Chain heap id [id]
  | enclosed
      {id outer : ScopeId}
      {scope : Scope}
      {farther : List ScopeId}
      (isScope : heap.scopes[id]? = some scope)
      (inside : scope.outer? = some outer)
      (around : Chain heap outer farther) :
      Chain heap id (id :: farther)

/--
How names are looked up on a heap with a history.  Scopes are numbered as they were
created, so that a lower number means earlier.
-/
structure LooksUp
    (history : List Happening)
    (heap : Heap) :
    Prop where
  /-- The scopes are those created, and have the values last bound in them. -/
  records :
    heap.Records history
  /-- A scope was created after the one around it. -/
  older :
    ∀ (id : ScopeId) (scope : Scope) (outer : ScopeId),
      heap.scopes[id]? = some scope → scope.outer? = some outer → outer < id
  /-- From every scope there is a way outwards that ends. -/
  chain :
    ∀ id < heap.scopes.size, ∃ chain, heap.Chain id chain
  /-- A lookup needs no more steps than the way has scopes. -/
  ends :
    ∀ (id : ScopeId) (chain : List ScopeId), heap.Chain id chain →
      ∀ (name : String) (steps : Nat), chain.length ≤ steps →
        heap.lookupWithin name steps id = heap.lookup? id name
  /-- It finds what was last bound in the nearest scope that binds the name. -/
  found :
    ∀ (id : ScopeId) (chain : List ScopeId), heap.Chain id chain →
      ∀ (name : String) (value : Value),
        heap.lookup? id name = some value ↔
          ∃ target,
            Reaches history chain target name ∧ LastBound history target name value
  /-- It finds nothing only where no scope binds the name. -/
  unfound :
    ∀ (id : ScopeId) (chain : List ScopeId), heap.Chain id chain →
      ∀ name : String,
        heap.lookup? id name = none ↔ ∀ other ∈ chain, ¬ Binds history other name
  /-- A new binding is found from where its scope is reached. -/
  reached :
    ∀ (target : ScopeId) (name : String) (value : Value),
      heap.Allows (.bound target name value) →
        ∀ (id : ScopeId) (chain : List ScopeId), heap.Chain id chain →
          Reaches history chain target name →
            (heap.bind target name value).lookup? id name = some value
  /-- It makes no difference to other names, and none from elsewhere. -/
  unreached :
    ∀ (target : ScopeId) (name : String) (value : Value),
      heap.Allows (.bound target name value) →
        ∀ (id : ScopeId) (chain : List ScopeId), heap.Chain id chain →
          ∀ other : String,
            ¬ (other = name ∧ Reaches history chain target name) →
              (heap.bind target name value).lookup? id other =
                heap.lookup? id other

section

variable
  {heap : Heap}
  {history : List Happening}
  {id target : ScopeId}
  {chain : List ScopeId}
  {name : String}
  {value : Value}

/-- The way outwards is found scope by scope, as each is older than the last. -/
theorem Ordered.exists_chain
    (ordered : heap.Ordered)
    (inside : id < heap.scopes.size) :
    ∃ chain, heap.Chain id chain := by
  induction id using Nat.strongRecOn with
  | ind id inductionHypothesis =>
      have isScope := Array.getElem?_eq_getElem inside
      cases outer : heap.scopes[id].outer? with
      | none =>
          exact ⟨[id], .outermost isScope outer⟩
      | some around =>
          have older := ordered.outer id _ around isScope outer
          obtain ⟨farther, chain⟩ :=
            inductionHypothesis around older (Nat.lt_trans older inside)
          exact ⟨id :: farther, .enclosed isScope outer chain⟩

/-- It has no more scopes than were created up to its first. -/
theorem Chain.length_le
    (along : heap.Chain id chain)
    (ordered : heap.Ordered) :
    chain.length ≤ id + 1 := by
  induction along with
  | outermost =>
      exact Nat.le_add_left 1 _
  | enclosed isScope inside _ inductionHypothesis =>
      have older := ordered.outer _ _ _ isScope inside
      exact Nat.succ_le_succ (Nat.le_trans inductionHypothesis older)

/-- A lookup asks the scopes along the way for their own values. -/
theorem Chain.lookupWithin_eq
    (along : heap.Chain id chain)
    {steps : Nat}
    (enough : chain.length ≤ steps)
    (name : String) :
    heap.lookupWithin name steps id =
      chain.findSome? fun scope => heap.get? scope name := by
  induction along generalizing steps with
  | outermost isScope alone =>
      rename_i id scope
      obtain ⟨fewer, rfl⟩ := Nat.exists_eq_add_of_le' enough
      rw [List.findSome?_singleton, get?, isScope, Option.bind_some]
      cases isBound : scope.get? name with
      | none =>
          simp [lookupWithin, isScope, isBound, alone]
      | some bound =>
          simp [lookupWithin, isScope, isBound]
  | enclosed isScope inside _ inductionHypothesis =>
      rename_i id outer scope farther _
      obtain ⟨fewer, rfl⟩ := Nat.exists_eq_add_of_le' enough
      rw [List.findSome?_cons, get?, isScope, Option.bind_some]
      cases isBound : scope.get? name with
      | none =>
          have others := inductionHypothesis (Nat.le_add_left farther.length fewer)
          simp [lookupWithin, isScope, isBound, inside, ← others, ← Nat.add_assoc]
      | some bound =>
          simp [lookupWithin, isScope, isBound, ← Nat.add_assoc]

theorem Chain.lookup?_eq
    (along : heap.Chain id chain)
    (ordered : heap.Ordered)
    (name : String) :
    heap.lookup? id name = chain.findSome? fun scope => heap.get? scope name :=
  along.lookupWithin_eq (along.length_le ordered) name

/-- A binding leaves all ways outwards as they are. -/
theorem Chain.bind
    (along : heap.Chain id chain)
    (target : ScopeId)
    (name : String)
    (value : Value) :
    (heap.bind target name value).Chain id chain := by
  have kept
      {id : ScopeId}
      {scope : Scope}
      (isScope : heap.scopes[id]? = some scope) :
      ∃ bound,
        (heap.bind target name value).scopes[id]? = some bound ∧
          bound.outer? = scope.outer? := by
    rw [← Option.map_eq_some_iff, outer?_bind, isScope]
    rfl
  induction along with
  | outermost isScope alone =>
      obtain ⟨bound, isBound, same⟩ := kept isScope
      exact .outermost isBound (same.trans alone)
  | enclosed isScope inside _ inductionHypothesis =>
      obtain ⟨bound, isBound, same⟩ := kept isScope
      exact .enclosed isBound (same.trans inside) inductionHypothesis

/-- What a new binding changes, it changes from where its scope is reached. -/
theorem exists_reached_of_lookups_ne
    {before after : ScopeId → Option Value}
    (elsewhere : ∀ other, other ≠ target → after other = before other)
    (differs : chain.findSome? after ≠ chain.findSome? before) :
    ∃ nearer farther,
      chain = nearer ++ target :: farther ∧ ∀ id ∈ nearer, before id = none := by
  induction chain with
  | nil =>
      exact absurd rfl differs
  | cons first rest inductionHypothesis =>
      by_cases isTarget : first = target
      · exact ⟨[], rest, by rw [isTarget]; rfl, by simp⟩
      · rw [List.findSome?_cons, List.findSome?_cons, elsewhere first isTarget]
          at differs
        cases own : before first with
        | none =>
            rw [own] at differs
            obtain ⟨nearer, farther, rfl, unbound⟩ := inductionHypothesis differs
            exact ⟨first :: nearer, farther, rfl,
              List.forall_mem_cons.mpr ⟨own, unbound⟩⟩
        | some value =>
            rw [own] at differs
            exact absurd rfl differs

/-- Where its scope is reached, the new binding is found. -/
theorem findSome?_bind_of_reaches
    (reaches : Reaches history chain target name)
    (records : heap.Records history)
    (inside : target < heap.scopes.size) :
    (chain.findSome? fun scope => (heap.bind target name value).get? scope name) =
      some value := by
  obtain ⟨nearer, farther, rfl, unbound⟩ := reaches
  induction nearer with
  | nil =>
      simp [get?_bind_self inside]
  | cons first rest inductionHypothesis =>
      rw [List.forall_mem_cons] at unbound
      rw [List.cons_append, List.findSome?_cons]
      by_cases isTarget : target = first
      · rw [← isTarget, get?_bind_self inside]
      · rw [get?_bind_of_ne _ _ fun same => absurd same isTarget,
          records.get?_eq_none_iff.mpr unbound.1]
        exact inductionHypothesis unbound.2

end

/-- A heap that came about in order looks names up by what has happened to it. -/
theorem Becomes.looksUp
    {heap : Heap}
    {history : List Happening}
    (becomes : empty.Becomes history heap) :
    heap.LooksUp history := by
  have ordered := ordered_empty.becomes becomes
  have records := records_empty.becomes becomes
  rw [List.nil_append] at records
  refine
    { records := records
      older := ordered.outer
      chain := fun id inside => ordered.exists_chain inside
      ends := ?ends
      found := ?found
      unfound := ?unfound
      reached := ?reached
      unreached := ?unreached }
  case ends =>
    intro id chain along name steps enough
    rw [along.lookupWithin_eq enough, along.lookup?_eq ordered]
  case found =>
    intro id chain along name value
    rw [along.lookup?_eq ordered, List.findSome?_eq_some_iff]
    constructor
    · rintro ⟨nearer, target, farther, shape, own, unbound⟩
      exact ⟨target,
        ⟨nearer, farther, shape, fun other member =>
          records.get?_eq_none_iff.mp (unbound other member)⟩,
        (records.value target name value).mp own⟩
    · rintro ⟨target, ⟨nearer, farther, shape, unbound⟩, last⟩
      exact ⟨nearer, target, farther, shape,
        (records.value target name value).mpr last,
        fun other member => records.get?_eq_none_iff.mpr (unbound other member)⟩
  case unfound =>
    intro id chain along name
    rw [along.lookup?_eq ordered, List.findSome?_eq_none_iff]
    exact forall₂_congr fun other _ => records.get?_eq_none_iff
  case reached =>
    intro target name value allowed id chain along reaches
    rw [(along.bind target name value).lookup?_eq (ordered.after allowed)]
    exact findSome?_bind_of_reaches reaches records allowed.1
  case unreached =>
    intro target name value allowed id chain along other elsewhere
    rw [(along.bind target name value).lookup?_eq (ordered.after allowed),
      along.lookup?_eq ordered]
    by_cases isName : other = name
    · subst isName
      by_contra differs
      obtain ⟨nearer, farther, shape, unbound⟩ :=
        exists_reached_of_lookups_ne
          (fun there different =>
            heap.get?_bind_of_ne value fun same => absurd same.symm different)
          differs
      exact elsewhere ⟨rfl, nearer, farther, shape, fun there member =>
        records.get?_eq_none_iff.mp (unbound there member)⟩
    · simp only [heap.get?_bind_of_ne value fun _ => Ne.symm isName]

/-- What happens earlier and later may be told apart. -/
theorem Becomes.split
    {heap last : Heap}
    {earlier later : List Happening}
    (becomes : heap.Becomes (earlier ++ later) last) :
    ∃ middle, heap.Becomes earlier middle ∧ middle.Becomes later last := by
  induction earlier generalizing heap with
  | nil =>
      exact ⟨heap, .still heap, becomes⟩
  | cons happening rest inductionHypothesis =>
      cases becomes with
      | next allowed others =>
          obtain ⟨middle, first, second⟩ := inductionHypothesis others
          exact ⟨middle, .next allowed first, second⟩

end Heap

namespace ScopeOperation

variable
  {heap : Heap}
  {operation : ScopeOperation}
  {operations : List ScopeOperation}
  {happenings history : List Happening}

/-- An operation leads to the heap after it by what it tells. -/
theorem Tells.becomes
    (tells : operation.Tells heap happenings)
    (ordered : heap.Ordered)
    (possible : operation.Possible heap) :
    heap.Becomes happenings (operation.after heap) := by
  cases operation with
  | create =>
      cases tells
      exact .single fun _ never => by cases never
  | enclose outer =>
      cases tells
      exact .single fun around isOuter => by
        cases isOuter
        exact possible
  | set scope name value =>
      cases tells
      exact .single possible
  | evaluateProgram limit scope program =>
      cases tells
      exact (program.makes_evaluate possible limit).becomes_history ordered
  | evaluateStatement limit scope statement =>
      cases tells
      exact (statement.makes_evaluate (makesAll_applyWithin limit)
        possible).becomes_history ordered
  | evaluateExpression limit scope expression =>
      cases tells
      exact (expression.makes_evaluate (makesAll_applyWithin limit)
        possible).becomes_history ordered

/-- Every operation has something to tell. -/
theorem exists_tells
    (heap : Heap)
    (operation : ScopeOperation) :
    ∃ happenings, operation.Tells heap happenings := by
  cases operation <;> exact ⟨_, rfl⟩

/-- Operations in order lead to the heap in the end by what they tell. -/
theorem AllTell.becomes
    (tell : AllTell heap operations history)
    (ordered : heap.Ordered)
    (possible : AllPossible heap operations) :
    heap.Becomes history (afterAll heap operations) := by
  induction tell with
  | nothing heap =>
      exact .still heap
  | next tells _ inductionHypothesis =>
      have becomes := tells.becomes ordered possible.1
      exact becomes.trans
        (inductionHypothesis (ordered.becomes becomes) possible.2)

/-- Operations in order have a history. -/
theorem exists_allTell
    (heap : Heap)
    (operations : List ScopeOperation) :
    ∃ history, AllTell heap operations history := by
  induction operations generalizing heap with
  | nil =>
      exact ⟨[], .nothing heap⟩
  | cons operation rest inductionHypothesis =>
      obtain ⟨happenings, tells⟩ := exists_tells heap operation
      obtain ⟨later, others⟩ := inductionHypothesis (operation.after heap)
      exact ⟨happenings ++ later, .next tells others⟩

/--
Whatever is done, in any order, it has a history.  By this history names are looked
up on the heap in the end, and at every moment on the way there, by what was earlier.
-/
theorem lookups_nearest_latest
    (operations : List ScopeOperation)
    (possible : AllPossible Heap.empty operations) :
    (∃ history, AllTell Heap.empty operations history) ∧
      ∀ history, AllTell Heap.empty operations history →
        (afterAll Heap.empty operations).LooksUp history ∧
          ∀ earlier later, history = earlier ++ later →
            ∃ heap : Heap,
              Heap.empty.Becomes earlier heap ∧
                heap.Becomes later (afterAll Heap.empty operations) ∧
                heap.LooksUp earlier := by
  refine ⟨exists_allTell Heap.empty operations, ?_⟩
  intro history tell
  have becomes := tell.becomes Heap.ordered_empty possible
  refine ⟨becomes.looksUp, ?_⟩
  rintro earlier later rfl
  obtain ⟨heap, first, second⟩ := becomes.split
  exact ⟨heap, first, second, first.looksUp⟩

/--
A name is bound, a function that looks it up is kept and called, and inside the scope
of that call the name is bound once more.
-/
def shadowing : List ScopeOperation :=
  let token : Token := ⟨.illegal, "", Span.null⟩
  let body : Block := ⟨token, [.expression token (.identifier ⟨token, "x"⟩)]⟩
  let function : Expression := .function token [⟨token, "y"⟩] body
  let call : Expression :=
    .call token (.identifier ⟨token, "f"⟩) [.integer token 2]
  [ .create,
    .set 0 "x" (.integer 1),
    .evaluateStatement 1 0 (.binding token ⟨token, "f"⟩ function),
    .evaluateExpression 1 0 call,
    .enclose 1,
    .set 2 "x" (.integer 3) ]

theorem lookups_nearest_latest_shadowing :
    let heap := afterAll Heap.empty shadowing
    AllPossible Heap.empty shadowing ∧
      heap.lookup? 2 "x" = some (.integer 3) ∧
      heap.lookup? 2 "y" = some (.integer 2) ∧
      heap.lookup? 1 "x" = some (.integer 1) ∧
      ∃ history, AllTell Heap.empty shadowing history ∧ heap.LooksUp history := by
  have possible : AllPossible Heap.empty shadowing :=
    ⟨trivial, ⟨Nat.one_pos, trivial⟩, Nat.one_pos, Nat.one_pos, Nat.one_lt_two,
      ⟨Nat.lt_succ_self 2, trivial⟩, trivial⟩
  obtain ⟨⟨history, tell⟩, looksUp⟩ := lookups_nearest_latest shadowing possible
  exact ⟨possible, rfl, rfl, rfl, history, tell, (looksUp history tell).1⟩

end ScopeOperation

end Scriptlet
