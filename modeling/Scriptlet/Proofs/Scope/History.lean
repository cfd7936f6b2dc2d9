import Mathlib.Data.List.Induction
import Scriptlet.Evaluation

namespace Scriptlet

/-!
# What happens to scopes

Only two things ever happen to a heap: a scope is created, inside one that is there
already or inside none, and a name is bound in a scope that is there.  A history is
the list of what has happened, the earliest first.

The history alone says in which scope each scope was created, which names a scope
binds, and which value was bound to a name there last.  A heap that came about in
this way agrees with its history on all three.
-/

/-- What may happen to a heap. -/
inductive Happening where
  /-- A scope is created, possibly inside another one and for a call. -/
  | created (outer? : Option ScopeId) (call? : Option Call)
  /-- A name is bound in a scope. -/
  | bound (id : ScopeId) (name : String) (value : Value)

/-- All functions in the value were written in one of so many scopes. -/
def Value.Below (count : Nat) : Value → Prop
  | .returned value => value.Below count
  | .function closure => closure.scope < count
  | _ => True

/-- What is below a count is below every greater one. -/
theorem Value.Below.mono
    {value : Value}
    {fewer more : Nat}
    (below : value.Below fewer)
    (atMost : fewer ≤ more) :
    value.Below more := by
  induction value with
  | returned inner inductionHypothesis =>
      exact inductionHypothesis below
  | function closure =>
      exact Nat.lt_of_lt_of_le below atMost
  | _ =>
      exact trivial

namespace Heap

/-- The heap after something has happened to it. -/
def after (heap : Heap) : Happening → Heap
  | .created outer? call? => (heap.add ⟨[], outer?, call?⟩).2
  | .bound id name value => heap.bind id name value

/-- Nothing can happen to a heap that involves scopes it does not have. -/
def Allows (heap : Heap) : Happening → Prop
  | .created outer? _ => ∀ outer ∈ outer?, outer < heap.scopes.size
  | .bound id _ value => id < heap.scopes.size ∧ value.Below heap.scopes.size

/-- The heap becomes another one as things happen to it in order. -/
inductive Becomes : Heap → List Happening → Heap → Prop where
  | still
      (heap : Heap) :
      Becomes heap [] heap
  | next
      {heap last : Heap}
      {happening : Happening}
      {rest : List Happening}
      (allowed : heap.Allows happening)
      (others : Becomes (heap.after happening) rest last) :
      Becomes heap (happening :: rest) last

namespace Becomes

variable
  {heap middle last : Heap}
  {happening : Happening}
  {happenings more : List Happening}

theorem single
    (allowed : heap.Allows happening) :
    heap.Becomes [happening] (heap.after happening) :=
  .next allowed (.still _)

theorem trans
    (first : heap.Becomes happenings middle)
    (second : middle.Becomes more last) :
    heap.Becomes (happenings ++ more) last := by
  induction first with
  | still =>
      exact second
  | next allowed _ inductionHypothesis =>
      exact .next allowed (inductionHypothesis second)

end Becomes

/-! ## The order of scopes -/

/--
Every scope was created after the one it is enclosed in, and functions were written
in scopes that are there.
-/
structure Ordered (heap : Heap) : Prop where
  outer :
    ∀ (id : ScopeId) (scope : Scope) (outer : ScopeId),
      heap.scopes[id]? = some scope → scope.outer? = some outer → outer < id
  values :
    ∀ (id : ScopeId) (scope : Scope) (name : String) (value : Value),
      heap.scopes[id]? = some scope → (name, value) ∈ scope.bindings →
        value.Below heap.scopes.size

/-- Whatever happens, no scope is lost. -/
theorem size_le_after
    (heap : Heap)
    (happening : Happening) :
    heap.scopes.size ≤ (heap.after happening).scopes.size := by
  cases happening with
  | created outer? call? =>
      simp [after, add]
  | bound id name value =>
      simp [after, bind]

theorem ordered_empty : empty.Ordered where
  outer := fun id scope outer isScope => by simp [empty] at isScope
  values := fun id scope name value isScope => by simp [empty] at isScope

namespace Ordered

variable {heap last : Heap} {happening : Happening} {happenings : List Happening}

/-- A scope that is created is the youngest, one that a name is bound in stays. -/
theorem after
    (ordered : heap.Ordered)
    (allowed : heap.Allows happening) :
    (heap.after happening).Ordered := by
  cases happening with
  | created outer? call? =>
      refine ⟨?_, ?_⟩
      · intro id scope outer isScope isOuter
        simp only [Heap.after, getElem?_add] at isScope
        split at isScope
        · rename_i youngest
          cases isScope
          exact youngest ▸ allowed outer isOuter
        · exact ordered.outer id scope outer isScope isOuter
      · intro id scope name value isScope member
        simp only [Heap.after, getElem?_add] at isScope
        split at isScope
        · cases isScope
          cases member
        · exact (ordered.values id scope name value isScope member).mono
            (heap.size_le_after (.created outer? call?))
  | bound target name value =>
      obtain ⟨-, below⟩ := allowed
      have size : (heap.bind target name value).scopes.size = heap.scopes.size := by
        simp [bind]
      refine ⟨?_, ?_⟩
      · intro id scope outer isScope isOuter
        have kept := heap.outer?_bind target id name value
        rw [show (heap.bind target name value).scopes[id]? = some scope from isScope,
          Option.map_some, eq_comm, Option.map_eq_some_iff] at kept
        obtain ⟨before, isBefore, same⟩ := kept
        exact ordered.outer id before outer isBefore (same.trans isOuter)
      · intro id scope other bound isScope member
        rw [Heap.after, size]
        simp only [Heap.after, getElem?_bind] at isScope
        split at isScope
        · obtain ⟨before, isBefore, rfl⟩ := Option.map_eq_some_iff.mp isScope
          rcases List.mem_cons.mp member with same | earlier
          · cases same
            exact below
          · exact ordered.values id before other bound isBefore earlier
        · exact ordered.values id scope other bound isScope member

theorem becomes
    (ordered : heap.Ordered)
    (becomes : heap.Becomes happenings last) :
    last.Ordered := by
  induction becomes with
  | still =>
      exact ordered
  | next allowed _ inductionHypothesis =>
      exact inductionHypothesis (ordered.after allowed)

end Ordered

/-- No scope is lost however much happens. -/
theorem Becomes.size_le
    {heap last : Heap}
    {happenings : List Happening}
    (becomes : heap.Becomes happenings last) :
    heap.scopes.size ≤ last.scopes.size := by
  induction becomes with
  | still =>
      exact Nat.le_refl _
  | next _ _ inductionHypothesis =>
      exact Nat.le_trans (size_le_after _ _) inductionHypothesis

end Heap

/-! ## What the history says -/

namespace Happening

/-- The scope around a created one, if a scope was created at all. -/
def outer? : Happening → Option (Option ScopeId)
  | .created outer? _ => some outer?
  | .bound .. => none

/-- The scopes that scopes were created in, in the order of creation. -/
def outers (history : List Happening) : List (Option ScopeId) :=
  history.filterMap outer?

/-- A scope binds a name when some value was bound to it there. -/
def Binds
    (history : List Happening)
    (id : ScopeId)
    (name : String) :
    Prop :=
  ∃ value, .bound id name value ∈ history

/-- The value was bound to the name in the scope, and none was after it. -/
def LastBound
    (history : List Happening)
    (id : ScopeId)
    (name : String)
    (value : Value) :
    Prop :=
  ∃ earlier later,
    history = earlier ++ .bound id name value :: later ∧ ¬ Binds later id name

section

variable
  {history : List Happening}
  {happening : Happening}
  {id : ScopeId}
  {name : String}
  {value : Value}

theorem binds_append_singleton :
    Binds (history ++ [happening]) id name ↔
      Binds history id name ∨ ∃ value, happening = .bound id name value := by
  simp [Binds, exists_or, eq_comm]

/-- Either the value is bound now, or the name is not and the value was last before. -/
theorem lastBound_append_singleton :
    LastBound (history ++ [happening]) id name value ↔
      happening = .bound id name value ∨
        (∀ other, happening ≠ .bound id name other) ∧
          LastBound history id name value := by
  constructor
  · rintro ⟨earlier, later, shape, unbound⟩
    rcases List.eq_nil_or_concat later with rfl | ⟨front, last, rfl⟩
    · obtain ⟨-, same⟩ := List.append_inj' shape rfl
      exact .inl (List.cons.inj same).1
    · rw [List.concat_eq_append] at shape unbound
      rw [← List.cons_append, ← List.append_assoc] at shape
      obtain ⟨rfl, same⟩ := List.append_inj' shape rfl
      cases same
      rw [binds_append_singleton, not_or, not_exists] at unbound
      exact .inr ⟨unbound.2, earlier, front, rfl, unbound.1⟩
  · rintro (rfl | ⟨unbound, earlier, later, rfl, unboundLater⟩)
    · exact ⟨history, [], rfl, by simp [Binds]⟩
    · refine ⟨earlier, later ++ [happening], by simp, ?_⟩
      rw [binds_append_singleton, not_or, not_exists]
      exact ⟨unboundLater, unbound⟩

/-- A name that is bound has a value that was bound last. -/
theorem binds_iff_exists_lastBound :
    Binds history id name ↔ ∃ value, LastBound history id name value := by
  constructor
  · intro binds
    induction history using List.reverseRecOn with
    | nil =>
        simp [Binds] at binds
    | append_singleton history happening inductionHypothesis =>
        by_cases bound : ∃ value, happening = .bound id name value
        · obtain ⟨value, isBound⟩ := bound
          exact ⟨value, lastBound_append_singleton.mpr (.inl isBound)⟩
        · obtain ⟨value, last⟩ := inductionHypothesis
            ((binds_append_singleton.mp binds).resolve_right bound)
          exact ⟨value, lastBound_append_singleton.mpr
            (.inr ⟨not_exists.mp bound, last⟩)⟩
  · rintro ⟨value, earlier, later, rfl, -⟩
    exact ⟨value, by simp⟩

end

end Happening

namespace Heap

open Happening

/-- The value last bound to a name in a scope itself. -/
def get? (heap : Heap) (id : ScopeId) (name : String) : Option Value :=
  heap.scopes[id]?.bind fun scope => scope.get? name

/-- In a new scope nothing is bound. -/
theorem get?_after_created
    (heap : Heap)
    (outer? : Option ScopeId)
    (call? : Option Call)
    (id : ScopeId)
    (name : String) :
    (heap.after (.created outer? call?)).get? id name = heap.get? id name := by
  rw [get?, get?, after, getElem?_add]
  split
  · rename_i youngest
    rw [youngest, Array.getElem?_eq_none (Nat.le_refl _)]
    rfl
  · rfl

/-- In a scope that is there, a name has the value just bound to it. -/
theorem get?_bind_self
    {heap : Heap}
    {id : ScopeId}
    (inside : id < heap.scopes.size)
    (name : String)
    (value : Value) :
    (heap.bind id name value).get? id name = some value := by
  simp [get?, getElem?_bind, Array.getElem?_eq_getElem inside, Scope.bind,
    Scope.get?]

/-- All other names of all other scopes keep their values. -/
theorem get?_bind_of_ne
    (heap : Heap)
    {target id : ScopeId}
    {bound name : String}
    (value : Value)
    (other : target = id → bound ≠ name) :
    (heap.bind target bound value).get? id name = heap.get? id name := by
  rw [get?, get?, getElem?_bind]
  split
  · rename_i same
    have different : (name == bound) = false := by
      simpa using (other same).symm
    cases heap.scopes[id]? with
    | none =>
        rfl
    | some scope =>
        simp [Scope.bind, Scope.get?, List.lookup_cons, different]
  · rfl

/--
A heap agrees with a history: its scopes are those created, each enclosed as it was
created, and each name has in each scope the value last bound to it there.
-/
structure Records
    (history : List Happening)
    (heap : Heap) :
    Prop where
  outer :
    ∀ id : ScopeId, heap.scopes[id]?.map Scope.outer? = (outers history)[id]?
  value :
    ∀ (id : ScopeId) (name : String) (value : Value),
      heap.get? id name = some value ↔ LastBound history id name value

theorem records_empty : empty.Records [] where
  outer := fun id => by simp [empty, outers]
  value := fun id name value => by simp [empty, get?, LastBound]

namespace Records

variable
  {heap last : Heap}
  {history happenings : List Happening}
  {happening : Happening}

/-- There are as many scopes as were created. -/
theorem length_outers
    (records : heap.Records history) :
    (outers history).length = heap.scopes.size := by
  apply Nat.le_antisymm
  · apply List.getElem?_eq_none_iff.mp
    rw [← records.outer, Array.getElem?_eq_none (Nat.le_refl _)]
    rfl
  · apply Array.getElem?_eq_none_iff.mp
    rw [← Option.map_eq_none_iff, records.outer,
      List.getElem?_eq_none (Nat.le_refl _)]

/-- A name without a value in a scope was never bound there. -/
theorem get?_eq_none_iff
    (records : heap.Records history)
    {id : ScopeId}
    {name : String} :
    heap.get? id name = none ↔ ¬ Binds history id name := by
  rw [binds_iff_exists_lastBound, Option.eq_none_iff_forall_ne_some, not_exists]
  exact forall_congr' fun value => not_congr (records.value id name value)

/-- A heap and its history go on agreeing when something happens to both. -/
theorem after
    (records : heap.Records history)
    (allowed : heap.Allows happening) :
    (heap.after happening).Records (history ++ [happening]) := by
  cases happening with
  | created outer? call? =>
      refine ⟨?_, ?_⟩
      · intro id
        have shape :
            outers (history ++ [.created outer? call?]) =
              outers history ++ [outer?] := by
          simp [outers, Happening.outer?]
        rw [shape, Heap.after, getElem?_add, List.getElem?_append,
          records.length_outers]
        rcases Nat.lt_trichotomy id heap.scopes.size with older | youngest | missing
        · rw [if_neg (Nat.ne_of_lt older), if_pos older, records.outer]
        · simp [youngest]
        · have beyond : 1 ≤ id - heap.scopes.size := Nat.sub_pos_of_lt missing
          rw [if_neg (Nat.ne_of_gt missing), if_neg (Nat.lt_asymm missing),
            Array.getElem?_eq_none (Nat.le_of_lt missing),
            List.getElem?_eq_none beyond]
          rfl
      · intro id name value
        rw [get?_after_created, records.value, lastBound_append_singleton]
        simp
  | bound target bound new =>
      refine ⟨?_, ?_⟩
      · intro id
        have shape :
            outers (history ++ [.bound target bound new]) = outers history := by
          simp [outers, Happening.outer?]
        rw [shape, ← records.outer]
        exact heap.outer?_bind target id bound new
      · intro id name value
        rw [lastBound_append_singleton, ← records.value]
        by_cases same : target = id ∧ bound = name
        · obtain ⟨rfl, rfl⟩ := same
          rw [Heap.after, get?_bind_self allowed.1]
          simp
        · have other : target = id → bound ≠ name := not_and.mp same
          have differs (value : Value) :
              Happening.bound target bound new ≠ .bound id name value := by
            rintro ⟨⟩
            exact same ⟨rfl, rfl⟩
          rw [Heap.after, heap.get?_bind_of_ne new other]
          simp [differs]

theorem becomes
    (records : heap.Records history)
    (becomes : heap.Becomes happenings last) :
    last.Records (history ++ happenings) := by
  induction becomes generalizing history with
  | still =>
      rwa [List.append_nil]
  | next allowed _ inductionHypothesis =>
      have later := inductionHypothesis (records.after allowed)
      rwa [List.append_assoc] at later

end Records

end Heap

end Scriptlet
