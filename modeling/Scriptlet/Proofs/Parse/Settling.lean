import Scriptlet.Proofs.Parse.Levels

namespace Scriptlet

/-!
# Exactly when the nesting limit is met

An outcome *settles* a condition when the condition decides how the step ends:
where it holds, the step ends quietly in a way that is asked for, and where it
does not, the step has met the nesting limit.  For a sequence of steps the
conditions of its parts have to hold together.

The condition that arises is that a level fits below the limit, once for every
level that is entered.
-/

namespace Parse

namespace Outcome

/-- The condition decides whether the step ends as asked for or meets the limit. -/
structure Settles
    (outcome : Outcome Cursor α)
    (fits : Prop)
    (goal : α → Cursor → Prop) :
    Prop where
  within :
    fits → ∃ value after, outcome.Gives True value after ∧ goal value after
  beyond : ¬ fits → outcome.MeetsLimit

variable
  {outcome : Outcome Cursor α}
  {fits : Prop}
  {goal : α → Cursor → Prop}

theorem Settles.mono
    {weaker : α → Cursor → Prop}
    (settled : outcome.Settles fits goal)
    (implies : ∀ value after, goal value after → weaker value after) :
    outcome.Settles fits weaker where
  within holds := by
    obtain ⟨value, after, given, reached⟩ := settled.within holds
    exact ⟨value, after, given, implies value after reached⟩
  beyond := settled.beyond

/-- Conditions that come to the same settle the same. -/
theorem Settles.congr
    {same : Prop}
    (settled : outcome.Settles fits goal)
    (iff : same ↔ fits) :
    outcome.Settles same goal where
  within holds := settled.within (iff.mp holds)
  beyond fails := settled.beyond fun holds => fails (iff.mpr holds)

/-- Where the condition holds, the limit is not met. -/
theorem Settles.not_meetsLimit
    (settled : outcome.Settles fits goal)
    (holds : fits) :
    ¬ outcome.MeetsLimit := by
  obtain ⟨_, _, ⟨-, -, quiet⟩, -⟩ := settled.within holds
  rintro ⟨diagnostic, member, -⟩
  rw [quiet trivial] at member
  contradiction

end Outcome

section Steps

variable {start : Cursor} {fits : Prop}

theorem settles_mk
    {value : α}
    {goal : α → Cursor → Prop}
    (holds : goal value start) :
    (⟨some value, start, []⟩ : Outcome Cursor α).Settles True goal where
  within _ := ⟨value, start, gives_mk.mpr ⟨rfl, rfl⟩, holds⟩
  beyond impossible := (impossible trivial).elim

/-- What the first part of a sequence has recorded, the sequence has. -/
theorem meetsLimit_bind
    {step : Parse α}
    {next : α → Parse β}
    (tooDeep : (step start).MeetsLimit) :
    ((step >>= next) start).MeetsLimit := by
  obtain ⟨diagnostic, member, fault⟩ := tooDeep
  refine ⟨diagnostic, ?_, fault⟩
  rcases ran : step start with ⟨_ | value, after, events⟩
  · rw [bind_apply_of_none ran]
    rwa [ran] at member
  · rw [ran] at member
    rw [bind_apply_of_some ran, Event.diagnostics_append]
    exact List.mem_append_left _ member

/-- So has it what the second part records. -/
theorem meetsLimit_bind_of_gives
    {step : Parse α}
    {next : α → Parse β}
    {value : α}
    {middle : Cursor}
    (given : (step start).Gives True value middle)
    (tooDeep : (next value middle).MeetsLimit) :
    ((step >>= next) start).MeetsLimit := by
  obtain ⟨diagnostic, member, fault⟩ := tooDeep
  obtain ⟨ends, rfl, -⟩ := given
  have ran :
      step start = ⟨some value, (step start).cursor, (step start).events⟩ := by
    rw [← ends]
  refine ⟨diagnostic, ?_, fault⟩
  rw [bind_apply_of_some ran, Event.diagnostics_append]
  exact List.mem_append_right _ member

/-- A sequence settles what its two parts do, one from where the other ends. -/
theorem settles_bind
    {step : Parse α}
    {next : α → Parse β}
    {later : Prop}
    {goal : β → Cursor → Prop}
    (settled :
      (step start).Settles fits fun value middle =>
        (next value middle).Settles later goal) :
    ((step >>= next) start).Settles (fits ∧ later) goal where
  within holds := by
    obtain ⟨value, middle, given, settledLater⟩ := settled.within holds.1
    obtain ⟨result, after, givenLater, reached⟩ :=
      settledLater.within holds.2
    exact ⟨result, after,
      gives_bind.mpr ⟨value, middle, given, givenLater⟩, reached⟩
  beyond fails := by
    by_cases holds : fits
    · obtain ⟨value, middle, given, settledLater⟩ := settled.within holds
      have failsLater : ¬ later := fun holdsLater => fails ⟨holds, holdsLater⟩
      exact meetsLimit_bind_of_gives given (settledLater.beyond failsLater)
    · exact meetsLimit_bind (settled.beyond holds)

theorem settles_map
    {change : α → β}
    {step : Parse α}
    {goal : β → Cursor → Prop}
    (settled :
      (step start).Settles fits fun value after => goal (change value) after) :
    ((change <$> step) start).Settles fits goal where
  within holds := by
    obtain ⟨value, after, given, reached⟩ := settled.within holds
    exact ⟨change value, after, gives_map.mpr ⟨value, given, rfl⟩, reached⟩
  beyond := settled.beyond

theorem settles_attempt
    {step : Parse α}
    {goal : Option α → Cursor → Prop}
    (settled :
      (step start).Settles fits fun value after => goal (some value) after) :
    (attempt step start).Settles fits goal where
  within holds := by
    obtain ⟨value, after, given, reached⟩ := settled.within holds
    exact ⟨some value, after, gives_attempt.mpr given, reached⟩
  beyond := settled.beyond

theorem settles_nested
    {step : Parse α}
    {goal : α → Cursor → Prop}
    (settled :
      (step start).Settles fits fun value inner =>
        goal value (inner.atDepth start.depth)) :
    (nested step start).Settles fits goal where
  within holds := by
    obtain ⟨value, inner, given, reached⟩ := settled.within holds
    exact ⟨value, _, gives_nested.mpr ⟨inner, given, rfl⟩, reached⟩
  beyond := settled.beyond

theorem settles_closing
    {step : Parse α}
    {goal : α → Cursor → Prop}
    (settled : (step start).Settles fits goal) :
    (closing step start).Settles fits goal where
  within holds := by
    obtain ⟨value, after, given, reached⟩ := settled.within holds
    exact ⟨value, after, gives_closing.mpr given, reached⟩
  beyond fails := by
    obtain ⟨diagnostic, member, fault⟩ := settled.beyond fails
    refine ⟨diagnostic, ?_, fault⟩
    simp only [closing, Event.diagnostics_append, List.mem_append]
    exact .inl member

theorem settles_emit_bind
    {event : Event}
    {next : Unit → Parse β}
    {goal : β → Cursor → Prop}
    (harmless : event.diagnostic? = none)
    (settled : (next () start).Settles fits goal) :
    ((emit event >>= next) start).Settles fits goal := by
  have emitted :
      (emit event start).Settles True fun value middle =>
        (next value middle).Settles fits goal :=
    ⟨fun _ => ⟨(), start, (gives_emit harmless).mpr rfl, settled⟩,
      fun impossible => (impossible trivial).elim⟩
  exact (settles_bind emitted).congr (by simp)

/-- Another level is entered exactly when it fits below the limit. -/
theorem settles_descend_bind
    {level : Level}
    {next : Unit → Parse β}
    {goal : β → Cursor → Prop}
    (settled :
      start.depth < nestingLimit →
        (next () (start.atDepth (start.depth + 1))).Settles fits goal) :
    ((descend level >>= next) start).Settles
      (start.depth + 1 ≤ nestingLimit ∧ fits) goal := by
  apply settles_bind
  constructor
  · intro within
    exact ⟨(), _, gives_descend.mpr ⟨within, rfl⟩, settled within⟩
  · intro full
    refine ⟨⟨.nestingTooDeep nestingLimit, start.stream.current.start⟩, ?_, rfl⟩
    simp [descend_of_le (Nat.le_of_not_lt full), Event.diagnostics,
      Event.diagnostic?]

end Steps

section Levels

variable
  {strictBlocks : Bool}
  {levels : Nat}
  {start : Cursor}
  {bound : Precedence}
  {fits : Prop}
  (enough : nestingLimit ≤ levels + start.depth)

include enough

theorem settles_expressionWithin
    {goal : Expression → Cursor → Prop}
    (inside :
      ∀ fewer,
        nestingLimit ≤ fewer + (start.depth + 1) →
          ((operand (routinesWithin strictBlocks fewer) >>=
            operatorsWithin strictBlocks fewer bound)
              (start.atDepth (start.depth + 1))).Settles fits fun tree inner =>
                goal tree (inner.atDepth start.depth)) :
    (expressionWithin strictBlocks levels bound start).Settles
      (start.depth + 1 ≤ nestingLimit ∧ fits) goal := by
  cases levels with
  | zero =>
      unfold expressionWithin
      refine settles_nested (settles_descend_bind fun within => ?_)
      omega
  | succ fewer =>
      unfold expressionWithin
      refine settles_nested (settles_descend_bind fun _ => ?_)
      exact inside fewer (by omega)

theorem settles_blockWithin
    {goal : Block → Cursor → Prop}
    (inside :
      ∀ fewer,
        nestingLimit ≤ fewer + (start.depth + 1) →
          (blockBody strictBlocks (routinesWithin strictBlocks fewer)
            (start.atDepth (start.depth + 1))).Settles fits fun tree inner =>
              goal tree (inner.atDepth start.depth)) :
    (blockWithin strictBlocks levels start).Settles
      (start.depth + 1 ≤ nestingLimit ∧ fits) goal := by
  cases levels with
  | zero =>
      unfold blockWithin
      refine settles_nested (settles_descend_bind fun within => ?_)
      omega
  | succ fewer =>
      unfold blockWithin
      refine settles_nested (settles_descend_bind fun _ => ?_)
      exact inside fewer (by omega)

/-- An operator that binds tighter than the bound is applied, one level deeper. -/
theorem settles_operatorsWithin
    {left : Expression}
    {form : OperatorForm}
    {goal : Expression → Cursor → Prop}
    (isOperator : start.stream.peek.kind.operatorForm? = some form)
    (tighter : bound.rank < start.stream.peek.kind.precedence.rank)
    (inside :
      ∀ fewer,
        nestingLimit ≤ fewer + (start.depth + 1) →
          ((operatorOf (routinesWithin strictBlocks fewer) left
              start.stream.peek.kind.precedence form >>=
            operatorsWithin strictBlocks fewer bound)
              (start.atDepth (start.depth + 1)).advance).Settles fits goal) :
    (operatorsWithin strictBlocks levels bound left start).Settles
      (start.depth + 1 ≤ nestingLimit ∧ fits) goal := by
  have applies : bound < start.stream.peek.kind.precedence :=
    tighter
  cases levels with
  | zero =>
      unfold operatorsWithin operatorOr
      simp only [peekKind_bind_apply, isOperator, applies, ↓reduceIte]
      refine settles_descend_bind fun within => ?_
      omega
  | succ fewer =>
      unfold operatorsWithin operatorOr
      simp only [peekKind_bind_apply, isOperator, applies, ↓reduceIte]
      refine settles_descend_bind fun _ => ?_
      rw [advance_bind_apply]
      exact inside fewer (by omega)

end Levels

/-- What is no operator ends an expression. -/
theorem operatorsWithin_of_not_operator
    {strictBlocks : Bool}
    {levels : Nat}
    {start : Cursor}
    {bound : Precedence}
    (left : Expression)
    (stops : start.stream.peek.kind.operatorForm? = none) :
    operatorsWithin strictBlocks levels bound left start =
      ⟨some left, start, []⟩ := by
  cases levels with
  | zero =>
      unfold operatorsWithin operatorOr
      simp only [peekKind_bind_apply, stops, pure_apply]
  | succ fewer =>
      unfold operatorsWithin operatorOr
      simp only [peekKind_bind_apply, stops, pure_apply]

section Shallow

/-- The step enters no level past the limit, wherever it starts. -/
class Shallow (step : Parse α) : Prop where
  within : ∀ start, ¬ (step start).MeetsLimit

/-- A step that is known to arrive and enters no level settles it. -/
theorem Outcome.Reaches.settles
    {step : Parse α}
    [shallow : Shallow step]
    {start : Cursor}
    {goal : α → Cursor → Prop}
    (reached : (step start).Reaches goal) :
    (step start).Settles True goal where
  within _ := reached.resolve_left (shallow.within start)
  beyond impossible := (impossible trivial).elim

theorem shallow_of_silent
    {step : Parse α}
    (silent : ∀ start, (step start).events = []) :
    Shallow step where
  within := by
    rintro start ⟨diagnostic, member, -⟩
    rw [silent start] at member
    contradiction

instance shallow_pure
    {value : α} :
    Shallow (pure value : Parse α) :=
  shallow_of_silent fun _ => rfl

instance shallow_bind
    {step : Parse α}
    {next : α → Parse β}
    [first : Shallow step]
    [second : ∀ value, Shallow (next value)] :
    Shallow (step >>= next) where
  within := by
    rintro start ⟨diagnostic, member, fault⟩
    have quiet := first.within start
    rcases ran : step start with ⟨_ | value, after, events⟩
    · rw [bind_apply_of_none ran] at member
      rw [ran] at quiet
      exact quiet ⟨diagnostic, member, fault⟩
    · rw [bind_apply_of_some ran, Event.diagnostics_append,
        List.mem_append] at member
      rw [ran] at quiet
      rcases member with member | member
      · exact quiet ⟨diagnostic, member, fault⟩
      · exact (second value).within after ⟨diagnostic, member, fault⟩

instance shallow_map
    {change : α → β}
    {step : Parse α}
    [inner : Shallow step] :
    Shallow (change <$> step) where
  within := inner.within

instance shallow_ite
    {condition : Prop}
    [Decidable condition]
    {first second : Parse α}
    [positive : Shallow first]
    [negative : Shallow second] :
    Shallow (if condition then first else second) := by
  split
  · exact positive
  · exact negative

instance shallow_cursor : Shallow cursor :=
  shallow_of_silent fun _ => rfl

instance shallow_advance : Shallow advance :=
  shallow_of_silent fun _ => rfl

instance shallow_current : Shallow current := by
  unfold current
  infer_instance

instance shallow_peekKind : Shallow peekKind := by
  unfold peekKind
  infer_instance

instance shallow_rounds : Shallow rounds := by
  unfold rounds
  infer_instance

instance shallow_reject
    {expected found : TokenKind}
    {position : Position} :
    Shallow (reject (.expectedToken expected found) position : Parse α) where
  within := by
    rintro start ⟨diagnostic, member, fault⟩
    simp only [reject, record, emit, fail, bind, andThen, Event.diagnostics,
      Event.diagnostic?, List.append_nil, List.filterMap_cons,
      List.filterMap_nil, List.mem_singleton] at member
    rw [member] at fault
    contradiction

instance shallow_expect
    {kind : TokenKind} :
    Shallow (expect kind) := by
  unfold expect
  infer_instance

instance shallow_skipSemicolon : Shallow skipSemicolon := by
  unfold skipSemicolon
  infer_instance

instance shallow_moreParameters
    {count : Nat} :
    Shallow (moreParameters count) := by
  induction count with
  | zero =>
      unfold moreParameters
      infer_instance
  | succ count inductionHypothesis =>
      unfold moreParameters
      simp only [andSoOn_eq]
      infer_instance

instance shallow_parameters : Shallow parameters := by
  unfold parameters
  infer_instance

end Shallow

end Parse

end Scriptlet
