import Scriptlet.Proofs.Parse.Orderly
import Scriptlet.Proofs.Parse.Recovery

namespace Scriptlet

/-!
# The statements that a parse reads, and what it records of them

Statements are read one after the other, at the top of a program and in the blocks
of statements around them.  Reading one statement is a call, and the calls of a
parse are a forest: each has a list of calls nested in its blocks.  The trace
tells of every call, at its end, where it started and whether its statement is
kept.

What a call records beyond what the calls nested in it record is one diagnostic
if its statement is dropped, and none if it is kept.  The routines that read a
part of a statement account for their failures in the same way, and hand them on;
only the loops over statements end a failure.
-/

namespace Event

/-- Where the statement started that an event closes, and whether it is kept. -/
def closing? : Event → Option (Nat × Bool)
  | .closed passed kept => some (passed, kept)
  | _ => none

/-- The statements that a trace tells of, in the order they were closed. -/
def closings (trace : List Event) : List (Nat × Bool) :=
  trace.filterMap closing?

@[simp]
theorem closings_append
    (first second : List Event) :
    closings (first ++ second) = closings first ++ closings second := by
  simp [closings]

end Event

theorem Cursor.passed_le_advance (cursor : Cursor) :
    cursor.passed ≤ cursor.advance.passed := by
  unfold advance
  split
  · exact Nat.le_refl _
  · exact Nat.le_succ _

/-- The cursor stands in a token list, with so many of its tokens passed. -/
structure Cursor.StandsIn
    (tokens : List Token)
    (cursor : Cursor) :
    Prop where
  ahead : cursor.stream.ahead = tokens.drop cursor.passed
  passed_le : cursor.passed ≤ tokens.length

namespace Cursor.StandsIn

variable {tokens : List Token} {cursor : Cursor}

theorem atDepth
    (stands : cursor.StandsIn tokens)
    (depth : Nat) :
    (cursor.atDepth depth).StandsIn tokens :=
  ⟨stands.ahead, stands.passed_le⟩

theorem passed_lt
    (stands : cursor.StandsIn tokens)
    (inside : cursor.stream.ahead ≠ []) :
    cursor.passed < tokens.length := by
  rw [stands.ahead, ne_eq, List.drop_eq_nil_iff] at inside
  exact Nat.lt_of_not_le inside

/-- Only the end of input is not passed. -/
theorem passed_advance
    (inside : cursor.stream.ahead ≠ []) :
    cursor.advance.passed = cursor.passed + 1 := by
  simp [Cursor.advance, inside]

theorem advance
    (stands : cursor.StandsIn tokens) :
    cursor.advance.StandsIn tokens := by
  by_cases ended : cursor.stream.ahead = []
  · have stays : cursor.advance = cursor := by
      simp [Cursor.advance, ended]
    rw [stays]
    exact stands
  · constructor
    · rw [Cursor.ahead_advance, stands.ahead, passed_advance ended,
        List.tail_drop]
    · rw [passed_advance ended]
      exact stands.passed_lt ended

/-- At the end of input all tokens have been passed. -/
theorem passed_of_ended
    (stands : cursor.StandsIn tokens)
    (ended : cursor.stream.ahead = []) :
    cursor.passed = tokens.length := by
  rw [stands.ahead, List.drop_eq_nil_iff] at ended
  exact Nat.le_antisymm stands.passed_le ended

end Cursor.StandsIn

namespace Parse

/--
Calls that read statements, one after the other: where a call starts, how it
ends, and the calls nested in its blocks.
-/
inductive Calls where
  | none
  | call (start : Cursor) (ending : Outcome Cursor Statement) (inner rest : Calls)

namespace Calls

/-- Some calls and then others. -/
def andThen : Calls → Calls → Calls
  | .none, others => others
  | .call start ending inner rest, others =>
      .call start ending inner (rest.andThen others)

/-- Where the calls start, each before those nested in it. -/
def starts : Calls → List Cursor
  | .none => []
  | .call start _ inner rest => start :: (inner.starts ++ rest.starts)

/-- Where those of the calls start that are nested in no other. -/
def outermost : Calls → List Cursor
  | .none => []
  | .call start _ _ rest => start :: rest.outermost

/-- The start and the fate of the calls, each behind those nested in it. -/
def closings : Calls → List (Nat × Bool)
  | .none => []
  | .call start ending inner rest =>
      inner.closings ++
        (start.passed, ending.result?.isSome) :: rest.closings

/-- What the calls record, those nested in them included. -/
def diagnostics : Calls → List Diagnostic
  | .none => []
  | .call _ ending _ rest =>
      Event.diagnostics ending.events ++ rest.diagnostics

/--
Each call reads a statement that starts on a token.  Beyond what the calls nested
in it record, it records one diagnostic if it ends without a statement, and none
if it ends with one.
-/
def Accounted (strictBlocks : Bool) (tokens : List Token) : Calls → Prop
  | .none => True
  | .call start ending inner rest =>
      withRoutines strictBlocks statement start = ending ∧
        start.StandsIn tokens ∧
        start.stream.ahead ≠ [] ∧
        (∃ own,
          Event.diagnostics ending.events = inner.diagnostics ++ own ∧
            own.length = if ending.result?.isSome then 0 else 1) ∧
        inner.Accounted strictBlocks tokens ∧
        rest.Accounted strictBlocks tokens

/-- Every call starts later than those before it. -/
def Ordered (calls : Calls) : Prop :=
  calls.starts.Pairwise fun earlier later => earlier.passed < later.passed

/-- All calls start with at least so many tokens passed, and with fewer than that. -/
def Within (lower upper : Nat) (calls : Calls) : Prop :=
  ∀ start ∈ calls.starts, lower ≤ start.passed ∧ start.passed < upper

section Sequences

variable {strictBlocks : Bool} {tokens : List Token} {calls others : Calls}

theorem within_none
    (lower upper : Nat) :
    Calls.none.Within lower upper := by
  intro start member
  cases member

@[simp]
theorem starts_andThen :
    (calls.andThen others).starts = calls.starts ++ others.starts := by
  induction calls with
  | none =>
      rfl
  | call start ending inner rest _ inductionHypothesis =>
      simp [andThen, starts, inductionHypothesis]

@[simp]
theorem outermost_andThen :
    (calls.andThen others).outermost = calls.outermost ++ others.outermost := by
  induction calls with
  | none =>
      rfl
  | call start ending inner rest _ inductionHypothesis =>
      simp [andThen, outermost, inductionHypothesis]

@[simp]
theorem closings_andThen :
    (calls.andThen others).closings = calls.closings ++ others.closings := by
  induction calls with
  | none =>
      rfl
  | call start ending inner rest _ inductionHypothesis =>
      simp [andThen, closings, inductionHypothesis]

@[simp]
theorem diagnostics_andThen :
    (calls.andThen others).diagnostics =
      calls.diagnostics ++ others.diagnostics := by
  induction calls with
  | none =>
      rfl
  | call start ending inner rest _ inductionHypothesis =>
      simp [andThen, diagnostics, inductionHypothesis]

theorem Accounted.andThen
    (first : calls.Accounted strictBlocks tokens)
    (second : others.Accounted strictBlocks tokens) :
    (calls.andThen others).Accounted strictBlocks tokens := by
  induction calls with
  | none =>
      exact second
  | call start ending inner rest _ inductionHypothesis =>
      obtain ⟨ran, stands, inside, own, accountedInner, accountedRest⟩ := first
      exact ⟨ran, stands, inside, own, accountedInner,
        inductionHypothesis accountedRest⟩

/-- Every call starts on a token of the list. -/
theorem Accounted.starts_on_token
    (accounted : calls.Accounted strictBlocks tokens) :
    ∀ start ∈ calls.starts,
      start.StandsIn tokens ∧ start.stream.ahead ≠ [] := by
  induction calls with
  | none =>
      intro start member
      cases member
  | call first ending inner rest innerHypothesis restHypothesis =>
      obtain ⟨-, stands, inside, -, accountedInner, accountedRest⟩ := accounted
      intro start member
      simp only [starts, List.mem_cons, List.mem_append] at member
      rcases member with rfl | amongInner | amongRest
      · exact ⟨stands, inside⟩
      · exact innerHypothesis accountedInner start amongInner
      · exact restHypothesis accountedRest start amongRest

/-- Moving on passes the token that the last call may have started on. -/
theorem Within.advance
    {lower : Nat}
    {cursor : Cursor}
    (within : calls.Within lower (cursor.passed + 1))
    (accounted : calls.Accounted strictBlocks tokens)
    (stands : cursor.StandsIn tokens) :
    calls.Within lower cursor.advance.passed := by
  intro start member
  refine ⟨(within start member).1, ?_⟩
  by_cases ended : cursor.stream.ahead = []
  · obtain ⟨standsStart, inside⟩ := accounted.starts_on_token start member
    have stays : cursor.advance = cursor := by
      simp [Cursor.advance, ended]
    rw [stays, stands.passed_of_ended ended]
    exact standsStart.passed_lt inside
  · rw [Cursor.StandsIn.passed_advance ended]
    exact (within start member).2

theorem Within.mono
    {lower upper lower' upper' : Nat}
    (within : calls.Within lower upper)
    (lower_le : lower' ≤ lower)
    (le_upper : upper ≤ upper') :
    calls.Within lower' upper' := by
  intro start member
  obtain ⟨above, below⟩ := within start member
  exact ⟨Nat.le_trans lower_le above, Nat.lt_of_lt_of_le below le_upper⟩

theorem Within.andThen
    {lower upper : Nat}
    (first : calls.Within lower upper)
    (second : others.Within lower upper) :
    (calls.andThen others).Within lower upper := by
  intro start member
  rw [starts_andThen, List.mem_append] at member
  rcases member with among | among
  · exact first start among
  · exact second start among

/-- Calls that start before others do are in order with them. -/
theorem Ordered.andThen
    {lower between upper : Nat}
    (first : calls.Ordered)
    (second : others.Ordered)
    (before : calls.Within lower between)
    (after : others.Within between upper) :
    (calls.andThen others).Ordered := by
  rw [Ordered, starts_andThen, List.pairwise_append]
  refine ⟨first, second, fun earlier among later amongOthers => ?_⟩
  exact Nat.lt_of_lt_of_le (before earlier among).2 (after later amongOthers).1

end Sequences

end Calls

/-- The calls that a step makes account for what it records. -/
structure Outcome.Accounts
    (strictBlocks : Bool)
    (tokens : List Token)
    (start : Cursor)
    (outcome : Outcome Cursor α)
    (calls : Calls) :
    Prop where
  closings : Event.closings outcome.events = calls.closings
  diagnostics :
    ∃ own,
      Event.diagnostics outcome.events = calls.diagnostics ++ own ∧
        own.length = if outcome.result?.isSome then 0 else 1
  accounted : calls.Accounted strictBlocks tokens
  ordered : calls.Ordered
  stands : outcome.cursor.StandsIn tokens
  onward : start.passed ≤ outcome.cursor.passed

/--
Where its levels and those already open make up the limit, the step accounts for
what it records by calls that start behind its first token.
-/
class Accountable
    (strictBlocks : Bool)
    (tokens : List Token)
    (levels : Nat)
    (step : Parse α) :
    Prop where
  accounts :
    ∀ start, levels + start.depth = nestingLimit →
      start.StandsIn tokens →
        ∃ calls,
          (step start).Accounts strictBlocks tokens start calls ∧
            calls.Within (start.passed + 1) ((step start).cursor.passed + 1)

section Steps

variable {strictBlocks : Bool} {tokens : List Token} {levels : Nat}

/-- What happens without a call or a diagnostic needs no account. -/
theorem accounts_of_silent
    {start after : Cursor}
    {value : α}
    {events : List Event}
    (unclosed : Event.closings events = [])
    (silent : Event.diagnostics events = [])
    (stands : after.StandsIn tokens)
    (onward : start.passed ≤ after.passed) :
    (⟨some value, after, events⟩ : Outcome Cursor α).Accounts strictBlocks tokens start
      .none :=
  ⟨unclosed, ⟨[], silent, rfl⟩, trivial, .nil, stands, onward⟩

/-- A step that gives a value, and the step that follows it. -/
theorem Outcome.Accounts.andThen
    {start middle : Cursor}
    {value : α}
    {events : List Event}
    {next : Outcome Cursor β}
    {calls others : Calls}
    {lower between upper : Nat}
    (first :
      (⟨some value, middle, events⟩ : Outcome Cursor α).Accounts strictBlocks tokens
        start calls)
    (second : next.Accounts strictBlocks tokens middle others)
    (before : calls.Within lower between)
    (after : others.Within between upper) :
    (⟨next.result?, next.cursor, events ++ next.events⟩ : Outcome Cursor β).Accounts
      strictBlocks tokens start (calls.andThen others) where
  closings := by
    rw [Event.closings_append, first.closings, second.closings,
      Calls.closings_andThen]
  diagnostics := by
    obtain ⟨own, recorded, length⟩ := first.diagnostics
    obtain ⟨ownNext, recordedNext, lengthNext⟩ := second.diagnostics
    have silent : own = [] := List.length_eq_zero_iff.mp length
    refine ⟨ownNext, ?_, lengthNext⟩
    rw [Event.diagnostics_append, recorded, recordedNext, silent,
      List.append_nil, Calls.diagnostics_andThen, List.append_assoc]
  accounted := first.accounted.andThen second.accounted
  ordered := first.ordered.andThen second.ordered before after
  stands := second.stands
  onward := Nat.le_trans first.onward second.onward

instance accountable_pure
    {value : α} :
    Accountable strictBlocks tokens levels (pure value : Parse α) where
  accounts _ _ stands :=
    ⟨.none, accounts_of_silent rfl rfl stands (Nat.le_refl _), Calls.within_none _ _⟩

/-- A step that is accounted for, from some place on, and one that follows it. -/
theorem Outcome.Accounts.bind
    {step : Parse α}
    {next : α → Parse β}
    [second : ∀ value, Accountable strictBlocks tokens levels (next value)]
    {origin start : Cursor}
    {calls : Calls}
    {lower : Nat}
    (account : (step start).Accounts strictBlocks tokens origin calls)
    (within : calls.Within lower ((step start).cursor.passed + 1))
    (lower_le : lower ≤ (step start).cursor.passed + 1)
    (levelsOpen : levels + (step start).cursor.depth = nestingLimit) :
    ∃ all,
      ((step >>= next) start).Accounts strictBlocks tokens origin all ∧
        all.Within lower (((step >>= next) start).cursor.passed + 1) := by
  rcases ran : step start with ⟨_ | value, middle, events⟩
  · rw [bind_apply_of_none ran]
    rw [ran] at account within
    exact ⟨calls,
      ⟨account.closings, account.diagnostics, account.accounted,
        account.ordered, account.stands, account.onward⟩, within⟩
  · rw [ran] at account within lower_le levelsOpen
    obtain ⟨others, accountNext, withinNext⟩ :=
      (second value).accounts middle levelsOpen account.stands
    rw [bind_apply_of_some ran]
    refine ⟨calls.andThen others,
      account.andThen accountNext within withinNext, ?_⟩
    exact (within.mono (Nat.le_refl _)
        (Nat.succ_le_succ accountNext.onward)).andThen
      (withinNext.mono lower_le (Nat.le_refl _))

instance accountable_bind
    {step : Parse α}
    {next : α → Parse β}
    [orderly : Orderly levels step]
    [first : Accountable strictBlocks tokens levels step]
    [second : ∀ value, Accountable strictBlocks tokens levels (next value)] :
    Accountable strictBlocks tokens levels (step >>= next) where
  accounts := by
    intro start levelsOpen stands
    obtain ⟨calls, account, within⟩ := first.accounts start levelsOpen stands
    have levelsOpenNext : levels + (step start).cursor.depth = nestingLimit := by
      rw [orderly.depth start (Nat.le_of_eq levelsOpen.symm)]
      exact levelsOpen
    exact account.bind within (Nat.succ_le_succ account.onward) levelsOpenNext

/-- Which value is given makes no difference to the account. -/
theorem Outcome.Accounts.map
    {start : Cursor}
    {outcome : Outcome Cursor α}
    {calls : Calls}
    (change : α → β)
    (account : outcome.Accounts strictBlocks tokens start calls) :
    (⟨outcome.result?.map change, outcome.cursor, outcome.events⟩ :
      Outcome Cursor β).Accounts strictBlocks tokens start calls where
  closings := account.closings
  diagnostics := by
    obtain ⟨own, recorded, length⟩ := account.diagnostics
    refine ⟨own, recorded, ?_⟩
    rw [length, Option.isSome_map]
  accounted := account.accounted
  ordered := account.ordered
  stands := account.stands
  onward := account.onward

instance accountable_map
    {change : α → β}
    {step : Parse α}
    [inner : Accountable strictBlocks tokens levels step] :
    Accountable strictBlocks tokens levels (change <$> step) where
  accounts := by
    intro start levelsOpen stands
    obtain ⟨calls, account, within⟩ := inner.accounts start levelsOpen stands
    exact ⟨calls, account.map change, within⟩

instance accountable_ite
    {condition : Prop}
    [Decidable condition]
    {first second : Parse α}
    [positive : Accountable strictBlocks tokens levels first]
    [negative : Accountable strictBlocks tokens levels second] :
    Accountable strictBlocks tokens levels
      (if condition then first else second) := by
  split
  · exact positive
  · exact negative

instance accountable_cursor : Accountable strictBlocks tokens levels cursor where
  accounts _ _ stands :=
    ⟨.none, accounts_of_silent rfl rfl stands (Nat.le_refl _), Calls.within_none _ _⟩

instance accountable_recognised
    {kind : TokenKind} :
    Accountable strictBlocks tokens levels (emit (.recognised kind)) where
  accounts _ _ stands :=
    ⟨.none, accounts_of_silent rfl rfl stands (Nat.le_refl _), Calls.within_none _ _⟩

instance accountable_advance : Accountable strictBlocks tokens levels advance where
  accounts start _ stands :=
    ⟨.none, accounts_of_silent rfl rfl stands.advance start.passed_le_advance,
      Calls.within_none _ _⟩

/-- A failure accounts for itself. -/
instance accountable_reject
    {fault : Fault}
    {position : Position} :
    Accountable strictBlocks tokens levels
      (reject fault position : Parse α) where
  accounts _ _ stands :=
    ⟨.none,
      ⟨rfl, ⟨[⟨fault, position⟩], rfl, rfl⟩, trivial, .nil, stands,
        Nat.le_refl _⟩,
      Calls.within_none _ _⟩

instance accountable_nested
    {step : Parse α}
    [inner : Accountable strictBlocks tokens levels step] :
    Accountable strictBlocks tokens levels (nested step) where
  accounts := by
    intro start levelsOpen stands
    obtain ⟨calls, account, within⟩ := inner.accounts start levelsOpen stands
    exact ⟨calls,
      ⟨account.closings, account.diagnostics, account.accounted,
        account.ordered, account.stands.atDepth _, account.onward⟩, within⟩

/-- Without levels the limit is met, which is recorded once. -/
theorem accountable_descend_zero
    {level : Level}
    {next : Unit → Parse α} :
    Accountable strictBlocks tokens 0 (descend level >>= next) where
  accounts := by
    intro start levelsOpen stands
    rw [bind_apply_of_none (descend_of_le (by omega))]
    exact ⟨.none,
      ⟨rfl, ⟨[_], rfl, rfl⟩, trivial, .nil, stands.atDepth _, Nat.le_refl _⟩,
      Calls.within_none _ _⟩

theorem accountable_descend_succ
    {level : Level}
    {next : Unit → Parse α}
    [inner : Accountable strictBlocks tokens levels (next ())] :
    Accountable strictBlocks tokens (levels + 1) (descend level >>= next) where
  accounts := by
    intro start levelsOpen stands
    have deeper :
        levels + (start.atDepth (start.depth + 1)).depth = nestingLimit := by
      rw [Cursor.depth_atDepth]
      omega
    obtain ⟨calls, account, within⟩ :=
      inner.accounts _ deeper (stands.atDepth _)
    rw [bind_apply_of_some (descend_of_lt (by omega))]
    exact ⟨calls,
      ⟨account.closings, account.diagnostics, account.accounted,
        account.ordered, account.stands, account.onward⟩, within⟩

end Steps

section Routines

variable
  {strictBlocks : Bool}
  {tokens : List Token}
  {levels : Nat}
  {routines : Routines Cursor}

/-- The routines for what is nested account for what they record. -/
class AccountableRoutines
    (strictBlocks : Bool)
    (tokens : List Token)
    (levels : Nat)
    (routines : Routines Cursor) :
    Prop where
  expression :
    ∀ bound, Accountable strictBlocks tokens levels (routines.expression bound)
  block : Accountable strictBlocks tokens levels routines.block

attribute [instance] AccountableRoutines.expression AccountableRoutines.block

instance accountable_current : Accountable strictBlocks tokens levels current := by
  unfold current
  infer_instance

instance accountable_currentKind :
    Accountable strictBlocks tokens levels currentKind := by
  unfold currentKind
  infer_instance

instance accountable_peekKind :
    Accountable strictBlocks tokens levels peekKind := by
  unfold peekKind
  infer_instance

instance accountable_rounds :
    Accountable strictBlocks tokens levels rounds := by
  unfold rounds
  infer_instance

instance accountable_expect
    {kind : TokenKind} :
    Accountable strictBlocks tokens levels (expect kind) := by
  unfold expect
  infer_instance

instance accountable_skipSemicolon :
    Accountable strictBlocks tokens levels skipSemicolon := by
  unfold skipSemicolon
  infer_instance

instance accountable_andSoOn
    {rounds : Nat}
    {step : Parse α}
    [inner : Accountable strictBlocks tokens levels step] :
    Accountable strictBlocks tokens levels (andSoOn rounds step) := by
  rw [andSoOn_eq]
  exact inner

instance accountable_integer :
    Accountable strictBlocks tokens levels integer := by
  have read
      (token : Token) :
      Accountable strictBlocks tokens levels
        (match Text.readInteger? token.value with
        | some value => pure (Expression.integer token value)
        | none => reject (.integerLiteral token.value) token.start) := by
    split
    · infer_instance
    · infer_instance
  unfold integer
  infer_instance

instance accountable_moreParameters
    {count : Nat} :
    Accountable strictBlocks tokens levels (moreParameters count) := by
  induction count with
  | zero =>
      unfold moreParameters
      infer_instance
  | succ count inductionHypothesis =>
      unfold moreParameters
      infer_instance

instance accountable_parameters :
    Accountable strictBlocks tokens levels parameters := by
  unfold parameters
  infer_instance

variable
  [OrderlyRoutines levels routines]
  [AccountableRoutines strictBlocks tokens levels routines]

instance accountable_alternative :
    Accountable strictBlocks tokens levels (alternative routines) := by
  unfold alternative
  infer_instance

instance accountable_moreArguments
    {count : Nat} :
    Accountable strictBlocks tokens levels (moreArguments routines count) := by
  induction count with
  | zero =>
      unfold moreArguments
      infer_instance
  | succ count inductionHypothesis =>
      unfold moreArguments
      infer_instance

set_option synthInstance.maxSize 1024 in
instance accountable_arguments :
    Accountable strictBlocks tokens levels (arguments routines) := by
  unfold arguments
  infer_instance

-- The longest sequence of all needs a little more room for the search.
set_option synthInstance.maxSize 1024 in
instance accountable_conditional :
    Accountable strictBlocks tokens levels (conditional routines) := by
  unfold conditional
  infer_instance

instance accountable_operandOf
    {form : OperandForm} :
    Accountable strictBlocks tokens levels (operandOf routines form) := by
  cases form with
  | identifier =>
      unfold operandOf identifier
      infer_instance
  | integer =>
      unfold operandOf
      infer_instance
  | string =>
      unfold operandOf string
      infer_instance
  | boolean =>
      unfold operandOf boolean
      infer_instance
  | prefixed =>
      unfold operandOf prefixed
      infer_instance
  | grouping =>
      unfold operandOf grouping
      infer_instance
  | conditional =>
      unfold operandOf
      infer_instance
  | function =>
      unfold operandOf function
      infer_instance

instance accountable_operand :
    Accountable strictBlocks tokens levels (operand routines) := by
  have read
      (token : Token) :
      Accountable strictBlocks tokens levels
        (match token.kind.operandForm? with
        | some form => operandOf routines form
        | none => reject (.noExpression token.kind) token.start) := by
    split
    · infer_instance
    · infer_instance
  unfold operand
  infer_instance

instance accountable_operatorOf
    {left : Expression}
    {precedence : Precedence}
    {form : OperatorForm} :
    Accountable strictBlocks tokens levels
      (operatorOf routines left precedence form) := by
  cases form with
  | binary =>
      unfold operatorOf binary
      infer_instance
  | call =>
      unfold operatorOf call
      infer_instance

instance accountable_statementOf
    {form? : Option StatementForm} :
    Accountable strictBlocks tokens levels (statementOf routines form?) := by
  rcases form? with _ | _ | _
  · unfold statementOf expressionStatement
    infer_instance
  · unfold statementOf binding
    infer_instance
  · unfold statementOf returning
    infer_instance

end Routines

section Statements

variable
  {strictBlocks : Bool}
  {tokens : List Token}
  {levels : Nat}
  {start : Cursor}

/-- A call accounts for its failure, which goes no further. -/
theorem accounts_attempt_closing
    {step : Parse Statement}
    [inner : Accountable strictBlocks tokens levels step]
    (levelsOpen : levels + start.depth = nestingLimit)
    (stands : start.StandsIn tokens)
    (inside : start.stream.ahead ≠ [])
    (isCall : withRoutines strictBlocks statement start = closing step start) :
    ∃ calls,
      (attempt (closing step) start).Accounts strictBlocks tokens start calls ∧
        calls.Within start.passed ((closing step start).cursor.passed + 1) ∧
        calls.outermost = [start] := by
  obtain ⟨calls, account, within⟩ := inner.accounts start levelsOpen stands
  have sameDiagnostics :
      Event.diagnostics (closing step start).events =
        Event.diagnostics (step start).events := by
    simp [closing, Event.diagnostics, Event.diagnostic?]
  refine ⟨.call start (closing step start) calls .none,
    ⟨?_, ⟨[], ?_, rfl⟩, ?_, ?_, account.stands, account.onward⟩, ?_, rfl⟩
  · simp only [attempt, closing, Event.closings_append, account.closings]
    rfl
  · simp [attempt, Calls.diagnostics]
  · refine ⟨isCall, stands, inside, ?_, account.accounted, trivial⟩
    rw [sameDiagnostics]
    exact account.diagnostics
  · rw [Calls.Ordered, Calls.starts, Calls.starts, List.append_nil,
      List.pairwise_cons]
    exact ⟨fun later member => (within later member).1, account.ordered⟩
  · intro first member
    simp only [Calls.starts, List.append_nil, List.mem_cons] at member
    rcases member with rfl | among
    · exact ⟨Nat.le_refl _, Nat.lt_succ_of_le account.onward⟩
    · obtain ⟨above, below⟩ := within first among
      exact ⟨Nat.le_of_lt above, below⟩

section Rounds

variable
  {routines : Routines Cursor}
  [OrderlyRoutines levels routines]
  [AccountableRoutines strictBlocks tokens levels routines]

/--
One round of reading statements: a call, and the calls that follow it.  Whatever
is known of where these start, the one before them starts where the cursor stands.
-/
theorem accounts_round
    {rest : Outcome Cursor (List Statement)}
    (known : List Cursor → Prop)
    (levelsOpen : levels + start.depth = nestingLimit)
    (stands : start.StandsIn tokens)
    (inside : start.stream.ahead ≠ [])
    (isCall :
      withRoutines strictBlocks statement start = statement routines start)
    (account :
      levels + (statement routines start).cursor.advance.depth = nestingLimit →
        (statement routines start).cursor.advance.StandsIn tokens →
          ∃ others,
            rest.Accounts strictBlocks tokens
                (statement routines start).cursor.advance others ∧
              others.Within (statement routines start).cursor.advance.passed
                rest.cursor.passed ∧
              known others.outermost) :
    ∃ calls,
      (⟨rest.result?.map ((statement routines start).result?.toList ++ ·),
          rest.cursor, (statement routines start).events ++ rest.events⟩ :
        Outcome Cursor (List Statement)).Accounts strictBlocks tokens start calls ∧
        calls.Within start.passed rest.cursor.passed ∧
        ∃ later, known later ∧ calls.outermost = start :: later := by
  obtain ⟨calls, call, within, alone⟩ :
      ∃ calls,
        (attempt (statement routines) start).Accounts strictBlocks tokens start
            calls ∧
          calls.Within start.passed
            ((statement routines start).cursor.passed + 1) ∧
          calls.outermost = [start] :=
    accounts_attempt_closing levelsOpen stands inside isCall
  have orderly : Orderly levels (statement routines) := inferInstance
  have levelsOpenNext :
      levels + (statement routines start).cursor.advance.depth =
        nestingLimit := by
    rw [Cursor.depth_advance,
      orderly.depth start (Nat.le_of_eq levelsOpen.symm)]
    exact levelsOpen
  obtain ⟨others, accountRest, withinRest, knownRest⟩ :=
    account levelsOpenNext call.stands.advance
  have withinCalls := within.advance call.accounted call.stands
  have moved :
      (⟨some (statement routines start).result?,
          (statement routines start).cursor.advance,
          (statement routines start).events⟩ :
        Outcome Cursor (Option Statement)).Accounts strictBlocks tokens start calls :=
    ⟨call.closings, call.diagnostics, call.accounted, call.ordered,
      call.stands.advance,
      Nat.le_trans call.onward (Cursor.passed_le_advance _)⟩
  refine ⟨calls.andThen others,
    (moved.andThen accountRest withinCalls withinRest).map _, ?_,
    others.outermost, knownRest, ?_⟩
  · exact (withinCalls.mono (Nat.le_refl _) accountRest.onward).andThen
      (withinRest.mono moved.onward (Nat.le_refl _))
  · rw [Calls.outermost_andThen, alone, List.singleton_append]

/-- Where nothing is read no call is made. -/
theorem accounts_nothing
    (stands : start.StandsIn tokens) :
    ∃ calls,
      (⟨some [], start, []⟩ : Outcome Cursor (List Statement)).Accounts strictBlocks
          tokens start calls ∧
        calls.Within start.passed start.passed ∧
        calls.outermost = [] :=
  ⟨.none, accounts_of_silent rfl rfl stands (Nat.le_refl _),
    Calls.within_none _ _, rfl⟩

variable
  (isCall :
    ∀ cursor, levels + cursor.depth = nestingLimit →
      withRoutines strictBlocks statement cursor = statement routines cursor)

include isCall

/-- The statements of a block, of which the first starts where the cursor stands. -/
theorem accounts_statements
    (count : Nat)
    (levelsOpen : levels + start.depth = nestingLimit)
    (stands : start.StandsIn tokens) :
    ∃ calls,
      (statements routines count start).Accounts strictBlocks tokens start
          calls ∧
        calls.Within start.passed
          (statements routines count start).cursor.passed := by
  induction count generalizing start with
  | zero =>
      obtain ⟨calls, account, within, -⟩ := accounts_nothing stands
      exact ⟨calls, account, within⟩
  | succ count inductionHypothesis =>
      by_cases stops :
          start.stream.current.kind = .closeCurly ∨
            start.stream.current.kind = .endOfInput
      · have stopped :
            statements routines (count + 1) start = ⟨some [], start, []⟩ := by
          simp [statements, stops]
        rw [stopped]
        obtain ⟨calls, account, within, -⟩ := accounts_nothing stands
        exact ⟨calls, account, within⟩
      · have inside : start.stream.ahead ≠ [] := fun ended =>
          stops (.inr (start.stream.current_kind_eq_endOfInput_iff.mpr ended))
        rw [statements_succ stops rfl rfl]
        obtain ⟨calls, account, within, -⟩ :=
          accounts_round (fun _ => True) levelsOpen stands inside
            (isCall start levelsOpen) fun levelsOpenNext standsNext => by
              obtain ⟨others, accountNext, withinNext⟩ :=
                inductionHypothesis levelsOpenNext standsNext
              exact ⟨others, accountNext, withinNext, trivial⟩
        exact ⟨calls, account, within⟩

/-- The statements of a block start behind its bracket. -/
theorem accountable_blockBody :
    Accountable strictBlocks tokens levels (blockBody strictBlocks routines) where
  accounts := by
    intro start levelsOpen stands
    have levelsOpenInside : levels + start.advance.depth = nestingLimit := by
      rw [Cursor.depth_advance]
      exact levelsOpen
    obtain ⟨calls, account, within⟩ :=
      accounts_statements isCall start.advance.stream.ahead.length
        levelsOpenInside stands.advance
    have behind :
        calls.Within (start.passed + 1)
          (statements routines start.advance.stream.ahead.length
            start.advance).cursor.passed := by
      intro first member
      obtain ⟨above, below⟩ := within first member
      refine ⟨?_, below⟩
      by_cases ended : start.stream.ahead = []
      · have atEnd := stands.passed_of_ended ended
        have passed_le := account.stands.passed_le
        have onward := start.passed_le_advance
        omega
      · rw [Cursor.StandsIn.passed_advance ended] at above
        exact above
    have orderly :
        Orderly levels
          (statements routines start.advance.stream.ahead.length) :=
      inferInstance
    have last
        (trees : List Statement) :
        Accountable strictBlocks tokens levels do
          let final ← current
          if strictBlocks = true ∧ final.kind = .endOfInput then
            reject (.expectedToken .closeCurly .endOfInput) final.start
          else
            return (⟨start.stream.current, trees⟩ : Block) :=
      inferInstance
    have fromBracket :
        (statements routines start.advance.stream.ahead.length
          start.advance).Accounts strictBlocks tokens start calls :=
      ⟨account.closings, account.diagnostics, account.accounted,
        account.ordered, account.stands,
        Nat.le_trans start.passed_le_advance account.onward⟩
    have levelsOpenLast :
        levels +
            (statements routines start.advance.stream.ahead.length
              start.advance).cursor.depth =
          nestingLimit := by
      rw [orderly.depth _ (Nat.le_of_eq levelsOpenInside.symm)]
      exact levelsOpenInside
    unfold blockBody
    rw [advance_bind_apply, rounds_bind_apply]
    exact fromBracket.bind (behind.mono (Nat.le_refl _) (Nat.le_succ _))
      (Nat.succ_le_succ fromBracket.onward) levelsOpenLast

end Rounds

end Statements

section Nesting

variable {strictBlocks : Bool} {tokens : List Token}

theorem accountable_operatorOr
    {levels : Nat}
    {bound : Precedence}
    {left : Expression}
    {apply : OperatorForm → Precedence → Parse Expression}
    (applied :
      ∀ form precedence,
        Accountable strictBlocks tokens levels
          (descend .operator >>= fun _ => apply form precedence)) :
    Accountable strictBlocks tokens levels (operatorOr bound left apply) := by
  unfold operatorOr
  refine @accountable_bind _ _ _ _ _ _ _ inferInstance inferInstance fun next => ?_
  cases next.operatorForm? with
  | none =>
      infer_instance
  | some form =>
      exact @accountable_ite _ _ _ _ _ _ _ _ (applied _ _) inferInstance

/-- Within their levels, all routines account for what they record. -/
theorem accountable_within (levels : Nat) :
    AccountableRoutines strictBlocks tokens levels
        (routinesWithin strictBlocks levels) ∧
      ∀ bound left,
        Accountable strictBlocks tokens levels
          (operatorsWithin strictBlocks levels bound left) := by
  induction levels with
  | zero =>
      have stops
          {α : Type}
          (level : Level) :
          Accountable strictBlocks tokens 0
            (nested (descend level >>= fun _ => (fail : Parse α))) :=
        @accountable_nested _ _ _ _ _ accountable_descend_zero
      refine ⟨⟨fun bound => ?_, ?_⟩, fun bound left => ?_⟩
      · simpa only [routinesWithin, expressionWithin] using stops .operand
      · simpa only [routinesWithin, blockWithin] using stops .block
      · unfold operatorsWithin
        exact accountable_operatorOr fun _ _ => accountable_descend_zero
  | succ levels inductionHypothesis =>
      obtain ⟨routines, operators⟩ := inductionHypothesis
      have orderly :
          OrderlyRoutines levels (routinesWithin strictBlocks levels) :=
        orderly_within.1
      have enters
          {α : Type}
          (level : Level)
          {step : Parse α}
          (inner : Accountable strictBlocks tokens levels step) :
          Accountable strictBlocks tokens (levels + 1)
            (nested (descend level >>= fun _ => step)) :=
        @accountable_nested _ _ _ _ _ accountable_descend_succ
      have isCall
          (cursor : Cursor)
          (levelsOpen : levels + cursor.depth = nestingLimit) :
          withRoutines strictBlocks statement cursor =
            statement (routinesWithin strictBlocks levels) cursor := by
        rw [withRoutines, Cursor.place_depth, ← levelsOpen, Nat.add_sub_cancel]
      refine ⟨⟨fun bound => ?_, ?_⟩, fun bound left => ?_⟩
      · have first :
            Orderly levels (operand (routinesWithin strictBlocks levels)) :=
          inferInstance
        have accountableFirst :
            Accountable strictBlocks tokens levels
              (operand (routinesWithin strictBlocks levels)) :=
          inferInstance
        simp only [routinesWithin, expressionWithin]
        exact enters .operand
          (@accountable_bind _ _ _ _ _ _ _ first accountableFirst
            (operators bound))
      · have body :
            Accountable strictBlocks tokens levels
              (blockBody strictBlocks (routinesWithin strictBlocks levels)) :=
          accountable_blockBody isCall
        simp only [routinesWithin, blockWithin]
        exact enters .block body
      · have applied
            (precedence : Precedence)
            (form : OperatorForm) :
            Orderly levels
              (operatorOf (routinesWithin strictBlocks levels)
                left precedence form) :=
          inferInstance
        have accountableApplied
            (precedence : Precedence)
            (form : OperatorForm) :
            Accountable strictBlocks tokens levels
              (operatorOf (routinesWithin strictBlocks levels)
                left precedence form) :=
          inferInstance
        unfold operatorsWithin
        apply accountable_operatorOr
        intro form precedence
        refine @accountable_descend_succ _ _ _ _ _ _ ?_
        refine @accountable_bind _ _ _ _ _ _ _ orderly_advance
          accountable_advance fun _ => ?_
        exact @accountable_bind _ _ _ _ _ _ _ (applied precedence form)
          (accountableApplied precedence form) (operators bound)

end Nesting

/--
The statements of a program are read with all levels open to each, and nothing else
is called.
-/
theorem accounts_programStatements
    {strictBlocks : Bool}
    {tokens : List Token}
    {start : Cursor}
    (count : Nat)
    (stands : start.StandsIn tokens) :
    ∃ calls,
      (programStatements strictBlocks count start).Accounts strictBlocks tokens
          start calls ∧
        calls.Within start.passed
          (programStatements strictBlocks count start).cursor.passed ∧
        calls.outermost = statementStarts strictBlocks count start := by
  induction count generalizing start with
  | zero =>
      exact accounts_nothing stands
  | succ count inductionHypothesis =>
      by_cases ended : start.stream.ahead = []
      · have final := start.stream.current_kind_eq_endOfInput_iff.mpr ended
        rw [programStatements_of_ended ended, statementStarts, if_pos final]
        exact accounts_nothing stands
      · have goesOn : start.stream.current.kind ≠ .endOfInput :=
          mt start.stream.current_kind_eq_endOfInput_iff.mp ended
        have orderly :
            OrderlyRoutines nestingLimit
              (routinesWithin strictBlocks nestingLimit) :=
          orderly_within.1
        have accountable :
            AccountableRoutines strictBlocks tokens nestingLimit
              (routinesWithin strictBlocks nestingLimit) :=
          (accountable_within nestingLimit).1
        have levelsOpen :
            nestingLimit + (start.atDepth 0).depth = nestingLimit :=
          rfl
        have isCall :
            withRoutines strictBlocks statement (start.atDepth 0) =
              statement (routinesWithin strictBlocks nestingLimit)
                (start.atDepth 0) :=
          rfl
        obtain ⟨calls, account, within, later, sameLater, starts⟩ :=
          accounts_round (· = statementStarts strictBlocks count _) levelsOpen
            (stands.atDepth 0) ended isCall
            fun _ standsNext => inductionHypothesis standsNext
        rw [programStatements_succ ended rfl rfl, statementStarts, if_neg goesOn,
          isCall, ← sameLater]
        exact ⟨calls,
          ⟨account.closings, account.diagnostics, account.accounted,
            account.ordered, account.stands, account.onward⟩, within, starts⟩

end Parse

end Scriptlet
