import Scriptlet.Parse.Program

namespace Scriptlet

/-!
# What a parse step ends with

Statements about the parser are statements about the outcomes of its steps.  An
outcome *gives* a value when the step ends with it; under `quiet` it also has to
have recorded nothing.  An outcome *reaches* a condition when it gives, quietly,
a value for which the condition holds, or else has met the nesting limit.

Steps that only look around or move on are executed by equations.  What the
other steps give is said by one equivalence each, which splits a sequence of
steps into its parts.
-/

namespace Cursor

@[simp]
theorem ahead_advance (cursor : Cursor) :
    cursor.advance.stream.ahead = cursor.stream.ahead.tail := by
  unfold advance
  split
  · rename_i empty
    rw [List.isEmpty_iff.mp empty, List.tail_nil]
  · rfl

@[simp]
theorem last_advance (cursor : Cursor) :
    cursor.advance.stream.last = cursor.stream.last := by
  unfold advance
  split
  · rfl
  · rfl

@[simp]
theorem depth_advance (cursor : Cursor) :
    cursor.advance.depth = cursor.depth := by
  unfold advance
  split
  · rfl
  · rfl

@[simp]
theorem stream_atDepth (cursor : Cursor) (depth : Nat) :
    (cursor.atDepth depth).stream = cursor.stream :=
  rfl

@[simp]
theorem depth_atDepth (cursor : Cursor) (depth : Nat) :
    (cursor.atDepth depth).depth = depth :=
  rfl

/-- The token after the current one is current once the cursor moves on. -/
theorem peek_eq_current_advance (cursor : Cursor) :
    cursor.stream.peek = cursor.advance.stream.current := by
  simp [TokenStream.peek, TokenStream.current, TokenStream.advance]

theorem current_of_ahead
    {cursor : Cursor}
    {token : Token}
    {rest : List Token}
    (ahead : cursor.stream.ahead = token :: rest) :
    cursor.stream.current = token := by
  simp [TokenStream.current, ahead]

/-- A current token that is not the end of input is the first one ahead. -/
theorem ahead_of_current_kind_ne
    {cursor : Cursor}
    (inside : cursor.stream.current.kind ≠ .endOfInput) :
    cursor.stream.ahead =
      cursor.stream.current :: cursor.stream.ahead.tail := by
  cases shape : cursor.stream.ahead with
  | nil =>
      exact (inside
        ((cursor.stream.current_kind_eq_endOfInput_iff).mpr shape)).elim
  | cons token rest =>
      simp [current_of_ahead shape]

end Cursor

namespace Parse

namespace Outcome

/-- The step ends with a value at a cursor; a quiet one has recorded nothing. -/
def Gives
    (quiet : Prop)
    (outcome : Outcome Cursor α)
    (value : α)
    (after : Cursor) :
    Prop :=
  outcome.result? = some value ∧
    outcome.cursor = after ∧
    (quiet → Event.diagnostics outcome.events = [])

/-- The step has recorded that a level was entered past the limit. -/
def MeetsLimit (outcome : Outcome Cursor α) : Prop :=
  ∃ diagnostic ∈ Event.diagnostics outcome.events,
    diagnostic.fault = .nestingTooDeep nestingLimit

/-- The step ends quietly in a way that is asked for, or meets the limit. -/
def Reaches
    (outcome : Outcome Cursor α)
    (goal : α → Cursor → Prop) :
    Prop :=
  outcome.MeetsLimit ∨
    ∃ value after, outcome.Gives True value after ∧ goal value after

theorem Reaches.mono
    {outcome : Outcome Cursor α}
    {goal weaker : α → Cursor → Prop}
    (reached : outcome.Reaches goal)
    (implies : ∀ value after, goal value after → weaker value after) :
    outcome.Reaches weaker := by
  rcases reached with tooDeep | ⟨value, after, given, holds⟩
  · exact .inl tooDeep
  · exact .inr ⟨value, after, given, implies value after holds⟩

end Outcome

section Execution

variable {next : α → Parse β} {start : Cursor}

@[simp]
theorem pure_apply (value : α) :
    (pure value : Parse α) start = ⟨some value, start, []⟩ :=
  rfl

/-- A step without a result leaves the rest of a sequence out. -/
theorem bind_apply_of_none
    {step : Parse α}
    {after : Cursor}
    {events : List Event}
    (ends : step start = ⟨none, after, events⟩) :
    (step >>= next) start = ⟨none, after, events⟩ := by
  simp only [bind, andThen, ends]

/-- A step with a result hands it on, and the events follow each other. -/
theorem bind_apply_of_some
    {step : Parse α}
    {value : α}
    {after : Cursor}
    {events : List Event}
    (ends : step start = ⟨some value, after, events⟩) :
    (step >>= next) start =
      ⟨(next value after).result?,
        (next value after).cursor,
        events ++ (next value after).events⟩ := by
  simp only [bind, andThen, ends]

/-- A step that ends silently hands its value and its cursor on. -/
theorem bind_apply_of_silent
    {step : Parse α}
    {value : α}
    {after : Cursor}
    (silent : step start = ⟨some value, after, []⟩) :
    (step >>= next) start = next value after := by
  rw [bind_apply_of_some silent, List.nil_append]

@[simp]
theorem cursor_bind_apply
    {next : Cursor → Parse β} :
    (cursor >>= next) start = next start start :=
  bind_apply_of_silent rfl

@[simp]
theorem current_apply :
    current start = ⟨some start.stream.current, start, []⟩ := by
  simp [current]

@[simp]
theorem current_bind_apply
    {next : Token → Parse β} :
    (current >>= next) start = next start.stream.current start :=
  bind_apply_of_silent current_apply

@[simp]
theorem currentKind_bind_apply
    {next : TokenKind → Parse β} :
    (currentKind >>= next) start = next start.stream.current.kind start :=
  bind_apply_of_silent (by simp [currentKind])

@[simp]
theorem peekKind_bind_apply
    {next : TokenKind → Parse β} :
    (peekKind >>= next) start = next start.stream.peek.kind start :=
  bind_apply_of_silent (by simp [peekKind])

@[simp]
theorem rounds_bind_apply
    {next : Nat → Parse β} :
    (rounds >>= next) start = next start.stream.ahead.length start :=
  bind_apply_of_silent (by simp [rounds, TokenStream.remaining])

@[simp]
theorem advance_bind_apply
    {next : Token → Parse β} :
    (advance >>= next) start = next start.stream.current start.advance :=
  bind_apply_of_silent rfl

@[simp]
theorem setDepth_bind_apply
    {depth : Nat}
    {next : Unit → Parse β} :
    (setDepth depth >>= next) start = next () (start.atDepth depth) :=
  bind_apply_of_silent rfl

theorem expect_bind_apply
    {kind : TokenKind}
    {next : Token → Parse β}
    (expected : start.stream.peek.kind = kind) :
    (expect kind >>= next) start = next start.stream.peek start.advance := by
  apply bind_apply_of_silent
  unfold expect
  simp only [cursor_bind_apply, Cursor.place_peek, expected, ↓reduceIte,
    advance_bind_apply, current_apply]
  rw [Cursor.peek_eq_current_advance]

/-- Within the limit a level is entered. -/
theorem descend_of_lt
    {level : Level}
    (within : start.depth < nestingLimit) :
    descend level start =
      ⟨some (), start.atDepth (start.depth + 1),
        [.entered level (start.depth + 1) start.passed]⟩ := by
  have fits : ¬ nestingLimit < start.depth + 1 := by
    omega
  simp [descend, fits, emit, bind, andThen, cursor, setDepth, Cursor.atDepth]

/-- At the limit the fault is recorded at the token being looked at. -/
theorem descend_of_le
    {level : Level}
    (full : nestingLimit ≤ start.depth) :
    descend level start =
      ⟨none, start.atDepth (start.depth + 1),
        [ .entered level (start.depth + 1) start.passed,
          .recorded
            ⟨.nestingTooDeep nestingLimit, start.stream.current.start⟩ ]⟩ := by
  have past : nestingLimit < start.depth + 1 := by
    omega
  simp [descend, past, reject, record, emit, fail, bind, andThen, cursor,
    setDepth, Cursor.atDepth]

/-- Where one level more is open, one level less is needed. -/
theorem fits_inside
    {levels : Nat}
    (fits : nestingLimit ≤ levels + 1 + start.depth) :
    nestingLimit ≤ levels + (start.atDepth (start.depth + 1)).depth := by
  rw [Cursor.depth_atDepth]
  omega

/-- A choice between two steps is a choice between their outcomes. -/
@[simp]
theorem ite_apply
    {condition : Prop}
    [Decidable condition]
    {first second : Parse α} :
    (if condition then first else second) start =
      if condition then first start else second start := by
  split
  · rfl
  · rfl

end Execution

section Giving

variable {quiet : Prop} {start after : Cursor}

@[simp]
theorem gives_mk
    {value result : α} :
    (⟨some value, start, []⟩ : Outcome Cursor α).Gives quiet result after ↔
      result = value ∧ after = start := by
  simp [Outcome.Gives, Event.diagnostics, eq_comm]

/-- A sequence gives a value when its parts do, one from where the other ends. -/
@[simp]
theorem gives_bind
    {step : Parse α}
    {next : α → Parse β}
    {result : β} :
    ((step >>= next) start).Gives quiet result after ↔
      ∃ value middle,
        (step start).Gives quiet value middle ∧
          (next value middle).Gives quiet result after := by
  rcases ran : step start with ⟨_ | value, middle, events⟩
  · rw [bind_apply_of_none ran]
    simp [Outcome.Gives]
  · rw [bind_apply_of_some ran]
    constructor
    · rintro ⟨ends, cursorEq, silent⟩
      simp only [Event.diagnostics_append, List.append_eq_nil_iff] at silent
      exact ⟨value, middle, ⟨rfl, rfl, fun asked => (silent asked).1⟩,
        ends, cursorEq, fun asked => (silent asked).2⟩
    · rintro ⟨other, otherMiddle, ⟨valueEq, middleEq, silent⟩, given⟩
      simp only [Option.some.injEq] at valueEq middleEq
      subst valueEq middleEq
      refine ⟨given.1, given.2.1, fun asked => ?_⟩
      simp [silent asked, given.2.2 asked]

@[simp]
theorem gives_map
    {change : α → β}
    {step : Parse α}
    {result : β} :
    ((change <$> step) start).Gives quiet result after ↔
      ∃ value, (step start).Gives quiet value after ∧ result = change value := by
  rcases ran : step start with ⟨_ | value, middle, events⟩
  · simp [Outcome.Gives, Functor.map, mapResult, ran]
  · simp only [Outcome.Gives, Functor.map, mapResult, ran, Option.map_some,
      Option.some.injEq]
    constructor
    · rintro ⟨rfl, cursorEq, silent⟩
      exact ⟨value, ⟨rfl, cursorEq, silent⟩, rfl⟩
    · rintro ⟨other, ⟨rfl, cursorEq, silent⟩, rfl⟩
      exact ⟨rfl, cursorEq, silent⟩

@[simp]
theorem not_gives_fail
    {value : α} :
    ¬ ((fail : Parse α) start).Gives quiet value after := by
  simp [Outcome.Gives, fail]

@[simp]
theorem not_gives_reject
    {fault : Fault}
    {position : Position}
    {value : α} :
    ¬ ((reject fault position : Parse α) start).Gives quiet value after := by
  simp [reject]

/-- Events that are no diagnostics make no difference to what is given. -/
@[simp]
theorem gives_emit
    {event : Event}
    {value : Unit}
    (harmless : event.diagnostic? = none) :
    (emit event start).Gives quiet value after ↔ after = start := by
  simp [Outcome.Gives, emit, Event.diagnostics, harmless, eq_comm]

/-- An expected token is the one the cursor moves on to. -/
@[simp]
theorem gives_expect
    {kind : TokenKind}
    {token : Token} :
    (expect kind start).Gives quiet token after ↔
      start.stream.peek.kind = kind ∧
        token = start.stream.peek ∧
        after = start.advance := by
  unfold expect
  simp only [cursor_bind_apply, Cursor.place_peek, ite_apply]
  split
  · rename_i expected
    simp [expected, ← Cursor.peek_eq_current_advance]
  · rename_i unexpected
    simp [unexpected]

@[simp]
theorem gives_skipSemicolon
    {value : Unit} :
    (skipSemicolon start).Gives quiet value after ↔
      after =
        if start.stream.peek.kind = .semicolon then
          start.advance
        else
          start := by
  unfold skipSemicolon
  simp only [peekKind_bind_apply, ite_apply]
  split
  · simp
  · simp

@[simp]
theorem gives_nested
    {step : Parse α}
    {value : α} :
    (nested step start).Gives quiet value after ↔
      ∃ inner,
        (step start).Gives quiet value inner ∧
          after = inner.atDepth start.depth := by
  simp only [nested, Outcome.Gives]
  constructor
  · rintro ⟨ends, rfl, silent⟩
    exact ⟨_, ⟨ends, rfl, silent⟩, rfl⟩
  · rintro ⟨inner, ⟨ends, rfl, silent⟩, rfl⟩
    exact ⟨ends, rfl, silent⟩

/-- A level is entered when the limit allows one more. -/
@[simp]
theorem gives_descend
    {level : Level}
    {value : Unit} :
    (descend level start).Gives quiet value after ↔
      start.depth < nestingLimit ∧
        after = start.atDepth (start.depth + 1) := by
  by_cases within : start.depth < nestingLimit
  · rw [descend_of_lt within]
    constructor
    · rintro ⟨-, rfl, -⟩
      exact ⟨within, rfl⟩
    · rintro ⟨-, rfl⟩
      exact ⟨rfl, rfl, fun _ => rfl⟩
  · simp [descend_of_le (Nat.le_of_not_lt within), within, Outcome.Gives]

@[simp]
theorem gives_closing
    {step : Parse α}
    {value : α} :
    (closing step start).Gives quiet value after ↔
      (step start).Gives quiet value after := by
  simp [Outcome.Gives, closing, Event.diagnostics, Event.diagnostic?]

theorem gives_attempt
    {step : Parse α}
    {result? : Option α} :
    (attempt step start).Gives quiet result? after ↔
      (step start).result? = result? ∧
        (step start).cursor = after ∧
        (quiet → Event.diagnostics (step start).events = []) := by
  simp [Outcome.Gives, attempt]

end Giving

section Reaching

variable {start : Cursor}

@[simp]
theorem reaches_mk
    {value : α}
    {goal : α → Cursor → Prop} :
    (⟨some value, start, []⟩ : Outcome Cursor α).Reaches goal ↔ goal value start := by
  constructor
  · rintro (⟨diagnostic, member, -⟩ | ⟨other, after, given, holds⟩)
    · simp [Event.diagnostics] at member
    · obtain ⟨rfl, rfl⟩ := gives_mk.mp given
      exact holds
  · intro holds
    exact .inr ⟨value, start, gives_mk.mpr ⟨rfl, rfl⟩, holds⟩

/-- A sequence reaches what its second part reaches from where the first ends. -/
theorem reaches_bind
    {step : Parse α}
    {next : α → Parse β}
    {goal : β → Cursor → Prop}
    (reached :
      (step start).Reaches fun value middle =>
        (next value middle).Reaches goal) :
    ((step >>= next) start).Reaches goal := by
  rcases ran : step start with ⟨_ | value, middle, events⟩
  · rw [ran] at reached
    rcases reached with tooDeep | ⟨value, middle, given, -⟩
    · rw [bind_apply_of_none ran]
      exact .inl tooDeep
    · simp [Outcome.Gives] at given
  · rw [ran] at reached
    rw [bind_apply_of_some ran]
    rcases reached with ⟨diagnostic, member, fault⟩ | ⟨other, after, given, later⟩
    · refine .inl ⟨diagnostic, ?_, fault⟩
      simp only [Event.diagnostics_append, List.mem_append]
      exact .inl member
    · obtain ⟨valueEq, afterEq, silent⟩ := given
      simp only [Option.some.injEq] at valueEq afterEq
      subst valueEq afterEq
      rcases later with ⟨diagnostic, member, fault⟩ | ⟨result, final, given, holds⟩
      · refine .inl ⟨diagnostic, ?_, fault⟩
        simp only [Event.diagnostics_append, List.mem_append]
        exact .inr member
      · refine .inr ⟨result, final, ⟨given.1, given.2.1, fun asked => ?_⟩, holds⟩
        simp [silent trivial, given.2.2 asked]

theorem reaches_map
    {change : α → β}
    {step : Parse α}
    {goal : β → Cursor → Prop}
    (reached :
      (step start).Reaches fun value after => goal (change value) after) :
    ((change <$> step) start).Reaches goal := by
  rcases reached with tooDeep | ⟨value, after, given, holds⟩
  · exact .inl tooDeep
  · exact .inr ⟨change value, after, gives_map.mpr ⟨value, given, rfl⟩, holds⟩

theorem reaches_attempt
    {step : Parse α}
    {goal : Option α → Cursor → Prop}
    (reached :
      (step start).Reaches fun value after => goal (some value) after) :
    (attempt step start).Reaches goal := by
  rcases reached with tooDeep | ⟨value, after, given, holds⟩
  · exact .inl tooDeep
  · exact .inr ⟨some value, after, gives_attempt.mpr given, holds⟩

theorem reaches_nested
    {step : Parse α}
    {goal : α → Cursor → Prop}
    (reached :
      (step start).Reaches fun value inner =>
        goal value (inner.atDepth start.depth)) :
    (nested step start).Reaches goal := by
  rcases reached with tooDeep | ⟨value, inner, given, holds⟩
  · exact .inl tooDeep
  · exact .inr ⟨value, _, gives_nested.mpr ⟨inner, given, rfl⟩, holds⟩

theorem reaches_closing
    {step : Parse α}
    {goal : α → Cursor → Prop}
    (reached : (step start).Reaches goal) :
    (closing step start).Reaches goal := by
  rcases reached with ⟨diagnostic, member, fault⟩ | ⟨value, after, given, holds⟩
  · refine .inl ⟨diagnostic, ?_, fault⟩
    simp only [closing, Event.diagnostics_append, List.mem_append]
    exact .inl member
  · exact .inr ⟨value, after, gives_closing.mpr given, holds⟩

theorem reaches_emit_bind
    {event : Event}
    {next : Unit → Parse β}
    {goal : β → Cursor → Prop}
    (harmless : event.diagnostic? = none)
    (reached : (next () start).Reaches goal) :
    ((emit event >>= next) start).Reaches goal :=
  reaches_bind
    (.inr ⟨(), start, (gives_emit harmless).mpr rfl, reached⟩)

/-- Past the limit the fault is recorded; otherwise one level more is open. -/
theorem reaches_descend_bind
    {level : Level}
    {next : Unit → Parse β}
    {goal : β → Cursor → Prop}
    (reached :
      start.depth < nestingLimit →
        (next () (start.atDepth (start.depth + 1))).Reaches goal) :
    ((descend level >>= next) start).Reaches goal := by
  apply reaches_bind
  by_cases within : start.depth < nestingLimit
  · exact .inr ⟨(), _, gives_descend.mpr ⟨within, rfl⟩, reached within⟩
  · refine .inl
      ⟨⟨.nestingTooDeep nestingLimit, start.stream.current.start⟩, ?_, rfl⟩
    simp [descend_of_le (Nat.le_of_not_lt within), Event.diagnostics,
      Event.diagnostic?]

end Reaching

end Parse

end Scriptlet
