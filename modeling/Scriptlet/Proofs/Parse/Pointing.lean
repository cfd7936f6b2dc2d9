import Scriptlet.Proofs.Parse.Calls

namespace Scriptlet

/-!
# Diagnostics point at tokens, in order

A diagnostic of a parse is recorded at the token being looked at or at the one
after it, and it names that token: the kind that was found, or the number that
could not be read.  A step records nothing before the token it starts on.  A step
with a result records nothing behind the token it stops on; a step without one
may have recorded a diagnostic at the token after that, and then the loop over
statements goes on from there.  So a parse records from front to back.
-/

/--
The token is the one that the fault tells of.  Any token can be nested too deep;
the faults of evaluation tell of none.
-/
def Fault.Names (token : Token) : Fault → Prop
  | .expectedToken _ found => token.kind = found
  | .noExpression kind => token.kind = kind
  | .integerLiteral literal => token.kind = .number ∧ token.value = literal
  | .nestingTooDeep _ => True
  | _ => False

/-- The diagnostic is reported at the token, and names it. -/
structure Diagnostic.PointsAt
    (token : Token)
    (diagnostic : Diagnostic) :
    Prop where
  position : diagnostic.position = token.start
  names : diagnostic.fault.Names token

/-- The token with so many others before it; the end of input is behind all. -/
def TokenStream.tokenAt (stream : TokenStream) (index : Nat) : Token :=
  stream.ahead.getD index stream.last

/-- The cursor stands in a stream, with so many of its tokens passed. -/
structure Cursor.MovesIn
    (stream : TokenStream)
    (cursor : Cursor) :
    Prop where
  stands : cursor.StandsIn stream.ahead
  last : cursor.stream.last = stream.last

theorem Cursor.passed_advance_atDepth (cursor : Cursor) (depth : Nat) :
    (cursor.atDepth depth).advance.passed = cursor.advance.passed := by
  by_cases ended : cursor.stream.ahead = []
  · simp [advance, atDepth, ended]
  · simp [advance, atDepth, ended]

namespace Cursor.MovesIn

variable {stream : TokenStream} {cursor : Cursor}

theorem atDepth
    (moves : cursor.MovesIn stream)
    (depth : Nat) :
    (cursor.atDepth depth).MovesIn stream :=
  ⟨moves.stands.atDepth depth, moves.last⟩

theorem advance
    (moves : cursor.MovesIn stream) :
    cursor.advance.MovesIn stream :=
  ⟨moves.stands.advance, by rw [cursor.last_advance, moves.last]⟩

theorem current
    (moves : cursor.MovesIn stream) :
    cursor.stream.current = stream.tokenAt cursor.passed := by
  simp [TokenStream.current, TokenStream.tokenAt, moves.stands.ahead,
    moves.last, List.headD_eq_head?_getD, List.head?_drop]

end Cursor.MovesIn

/--
The diagnostics point at tokens of the stream, each at the token of the one
before it or further on, from one place in the stream up to another.
-/
inductive Marked (stream : TokenStream) : Nat → List Diagnostic → Nat → Prop where
  | none
      {lower upper : Nat}
      (le : lower ≤ upper) :
      Marked stream lower [] upper
  | next
      {lower index upper : Nat}
      {diagnostic : Diagnostic}
      {rest : List Diagnostic}
      (le : lower ≤ index)
      (points : diagnostic.PointsAt (stream.tokenAt index))
      (later : Marked stream index rest upper) :
      Marked stream lower (diagnostic :: rest) upper

namespace Marked

variable
  {stream : TokenStream}
  {diagnostics others : List Diagnostic}
  {lower between upper : Nat}

theorem widen
    {wider : Nat}
    (marked : Marked stream lower diagnostics upper)
    (upper_le : upper ≤ wider) :
    Marked stream lower diagnostics wider := by
  induction marked with
  | none le =>
      exact .none (Nat.le_trans le upper_le)
  | next le points later inductionHypothesis =>
      exact .next le points (inductionHypothesis upper_le)

theorem lift
    {lowest : Nat}
    (marked : Marked stream lower diagnostics upper)
    (lowest_le : lowest ≤ lower) :
    Marked stream lowest diagnostics upper := by
  cases marked with
  | none le =>
      exact .none (Nat.le_trans lowest_le le)
  | next le points later =>
      exact .next (Nat.le_trans lowest_le le) points later

theorem append
    (first : Marked stream lower diagnostics between)
    (second : Marked stream between others upper) :
    Marked stream lower (diagnostics ++ others) upper := by
  induction first with
  | none le =>
      exact second.lift le
  | next le points later inductionHypothesis =>
      exact .next le points (inductionHypothesis second)

/-- One diagnostic at one token. -/
theorem single
    {index : Nat}
    {diagnostic : Diagnostic}
    (points : diagnostic.PointsAt (stream.tokenAt index))
    (le : lower ≤ index)
    (le_upper : index ≤ upper) :
    Marked stream lower [diagnostic] upper :=
  .next le points (.none le_upper)

/-- Every diagnostic points at a token of the stream, from the place given on. -/
theorem points_from
    (marked : Marked stream lower diagnostics upper) :
    ∀ diagnostic ∈ diagnostics,
      ∃ index, lower ≤ index ∧ diagnostic.PointsAt (stream.tokenAt index) := by
  induction marked with
  | none le =>
      intro diagnostic member
      cases member
  | next le points later inductionHypothesis =>
      intro diagnostic member
      rcases List.mem_cons.mp member with rfl | among
      · exact ⟨_, le, points⟩
      · obtain ⟨index, behind, pointsLater⟩ :=
          inductionHypothesis diagnostic among
        exact ⟨index, Nat.le_trans le behind, pointsLater⟩

end Marked

/-- Only numbers introduce an integer. -/
theorem TokenKind.eq_number_of_operandForm
    {kind : TokenKind}
    (isForm : kind.operandForm? = some .integer) :
    kind = .number := by
  cases kind <;> simp_all [operandForm?]

namespace Parse

/-- How far a step may have recorded: up to its end, or just past it. -/
def Outcome.reach (outcome : Outcome Cursor α) : Nat :=
  if outcome.result?.isSome then
    outcome.cursor.passed
  else
    outcome.cursor.advance.passed

/-- What a step records points at tokens from its start on. -/
structure Outcome.Points
    (stream : TokenStream)
    (start : Cursor)
    (outcome : Outcome Cursor α) :
    Prop where
  moves : outcome.cursor.MovesIn stream
  marked :
    Marked stream start.passed (Event.diagnostics outcome.events) outcome.reach

/-- Wherever it starts in the stream, what the step records points at tokens. -/
class Pointing
    (stream : TokenStream)
    (step : Parse α) :
    Prop where
  points :
    ∀ start, start.MovesIn stream → (step start).Points stream start

section Steps

variable {stream : TokenStream}

/-- A step that records nothing and gives a value. -/
theorem points_of_silent
    {start after : Cursor}
    {value : α}
    {events : List Event}
    (silent : Event.diagnostics events = [])
    (moves : after.MovesIn stream)
    (onward : start.passed ≤ after.passed) :
    (⟨some value, after, events⟩ : Outcome Cursor α).Points stream start := by
  refine ⟨moves, ?_⟩
  rw [silent]
  exact .none onward

/-- A step that fails with one diagnostic at the token being looked at. -/
theorem points_of_current
    {start : Cursor}
    {diagnostic : Diagnostic}
    {events : List Event}
    (recorded : Event.diagnostics events = [diagnostic])
    (points : diagnostic.PointsAt start.stream.current)
    (moves : start.MovesIn stream)
    (depth : Nat) :
    (⟨none, start.atDepth depth, events⟩ : Outcome Cursor α).Points stream start := by
  refine ⟨moves.atDepth depth, ?_⟩
  rw [recorded]
  rw [moves.current] at points
  exact .single points (Nat.le_refl _) (start.atDepth depth).passed_le_advance

instance pointing_pure
    {value : α} :
    Pointing stream (pure value : Parse α) where
  points _ moves := points_of_silent rfl moves (Nat.le_refl _)

instance pointing_fail : Pointing stream (fail : Parse α) where
  points start moves := ⟨moves, .none start.passed_le_advance⟩

instance pointing_bind
    {step : Parse α}
    {next : α → Parse β}
    [first : Pointing stream step]
    [second : ∀ value, Pointing stream (next value)] :
    Pointing stream (step >>= next) where
  points := by
    intro start moves
    have points := first.points start moves
    rcases ran : step start with ⟨_ | value, middle, events⟩
    · rw [bind_apply_of_none ran]
      rw [ran] at points
      exact ⟨points.moves, points.marked⟩
    · rw [bind_apply_of_some ran]
      rw [ran] at points
      have pointsNext := (second value).points middle points.moves
      refine ⟨pointsNext.moves, ?_⟩
      rw [Event.diagnostics_append]
      exact points.marked.append pointsNext.marked

instance pointing_map
    {change : α → β}
    {step : Parse α}
    [inner : Pointing stream step] :
    Pointing stream (change <$> step) where
  points := by
    intro start moves
    have points := inner.points start moves
    refine ⟨points.moves, ?_⟩
    have marked := points.marked
    simp only [Outcome.reach] at marked
    simpa [Outcome.reach, Functor.map, mapResult] using marked

instance pointing_ite
    {condition : Prop}
    [Decidable condition]
    {first second : Parse α}
    [positive : Pointing stream first]
    [negative : Pointing stream second] :
    Pointing stream (if condition then first else second) := by
  split
  · exact positive
  · exact negative

instance pointing_cursor : Pointing stream cursor where
  points _ moves := points_of_silent rfl moves (Nat.le_refl _)

instance pointing_recognised
    {kind : TokenKind} :
    Pointing stream (emit (.recognised kind)) where
  points _ moves := points_of_silent rfl moves (Nat.le_refl _)

instance pointing_advance : Pointing stream advance where
  points start moves := points_of_silent rfl moves.advance start.passed_le_advance

theorem reach_nested (step : Parse α) (start : Cursor) :
    (nested step start).reach = (step start).reach := by
  have sameNext := (step start).cursor.passed_advance_atDepth start.depth
  simp only [Outcome.reach, ← sameNext]
  rfl

instance pointing_nested
    {step : Parse α}
    [inner : Pointing stream step] :
    Pointing stream (nested step) where
  points := by
    intro start moves
    have points := inner.points start moves
    refine ⟨points.moves.atDepth _, ?_⟩
    rw [reach_nested]
    exact points.marked

instance pointing_closing
    {step : Parse α}
    [inner : Pointing stream step] :
    Pointing stream (closing step) where
  points := by
    intro start moves
    have points := inner.points start moves
    refine ⟨points.moves, ?_⟩
    have silent
        (passed : Nat)
        (kept : Bool) :
        Event.diagnostics [.closed passed kept] = [] :=
      rfl
    simp only [closing, Event.diagnostics_append, silent, List.append_nil]
    exact points.marked

/-- A missing token is reported at the token found in its place. -/
instance pointing_expect
    {kind : TokenKind} :
    Pointing stream (expect kind) where
  points := by
    intro start moves
    by_cases expected : start.stream.peek.kind = kind
    · have ran :
          expect kind start =
            ⟨some start.stream.peek, start.advance, []⟩ := by
        unfold expect
        simp only [cursor_bind_apply, Cursor.place_peek, expected, ↓reduceIte,
          advance_bind_apply, current_apply]
        rw [start.peek_eq_current_advance]
      rw [ran]
      exact points_of_silent rfl moves.advance start.passed_le_advance
    · have ran :
          expect kind start =
            ⟨none, start,
              [.recorded
                ⟨.expectedToken kind start.stream.peek.kind,
                  start.stream.peek.start⟩]⟩ := by
        simp [expect, expected, reject, record, emit, fail, bind, andThen, cursor]
      rw [ran]
      have points :
          Diagnostic.PointsAt start.advance.stream.current
            ⟨.expectedToken kind start.stream.peek.kind,
              start.stream.peek.start⟩ := by
        rw [← start.peek_eq_current_advance]
        exact ⟨rfl, rfl⟩
      rw [moves.advance.current] at points
      exact ⟨moves, .single points start.passed_le_advance (Nat.le_refl _)⟩

/-- Too deep nesting is reported at the token being looked at. -/
instance pointing_descend
    {level : Level} :
    Pointing stream (descend level) where
  points := by
    intro start moves
    by_cases within : start.depth < nestingLimit
    · rw [descend_of_lt within]
      exact points_of_silent rfl (moves.atDepth _) (Nat.le_refl _)
    · have points :
          Diagnostic.PointsAt start.stream.current
            ⟨.nestingTooDeep nestingLimit, start.stream.current.start⟩ :=
        ⟨rfl, trivial⟩
      rw [descend_of_le (Nat.le_of_not_lt within)]
      exact points_of_current rfl points moves _

end Steps

section Routines

variable {stream : TokenStream} {routines : Routines Cursor}

/-- What the routines for what is nested record points at tokens. -/
class PointingRoutines
    (stream : TokenStream)
    (routines : Routines Cursor) :
    Prop where
  expression : ∀ bound, Pointing stream (routines.expression bound)
  block : Pointing stream routines.block

attribute [instance] PointingRoutines.expression PointingRoutines.block

instance pointing_current : Pointing stream current := by
  unfold current
  infer_instance

instance pointing_currentKind : Pointing stream currentKind := by
  unfold currentKind
  infer_instance

instance pointing_peekKind : Pointing stream peekKind := by
  unfold peekKind
  infer_instance

instance pointing_rounds : Pointing stream rounds := by
  unfold rounds
  infer_instance

instance pointing_skipSemicolon : Pointing stream skipSemicolon := by
  unfold skipSemicolon
  infer_instance

instance pointing_andSoOn
    {rounds : Nat}
    {step : Parse α}
    [inner : Pointing stream step] :
    Pointing stream (andSoOn rounds step) := by
  rw [andSoOn_eq]
  exact inner

instance pointing_moreParameters
    {count : Nat} :
    Pointing stream (moreParameters count) := by
  induction count with
  | zero =>
      unfold moreParameters
      infer_instance
  | succ count inductionHypothesis =>
      unfold moreParameters
      infer_instance

instance pointing_parameters : Pointing stream parameters := by
  unfold parameters
  infer_instance

/-- A number that cannot be read is reported where it stands. -/
theorem points_integer
    {start : Cursor}
    (number : start.stream.current.kind = .number)
    (moves : start.MovesIn stream) :
    (integer start).Points stream start := by
  unfold integer
  rw [current_bind_apply]
  cases Text.readInteger? start.stream.current.value with
  | some value =>
      exact points_of_silent rfl moves (Nat.le_refl _)
  | none =>
      have points :
          Diagnostic.PointsAt start.stream.current
            ⟨.integerLiteral start.stream.current.value,
              start.stream.current.start⟩ :=
        ⟨rfl, number, rfl⟩
      exact points_of_current rfl points moves start.depth

variable [PointingRoutines stream routines]

instance pointing_alternative : Pointing stream (alternative routines) := by
  unfold alternative
  infer_instance

set_option synthInstance.maxSize 1024 in
instance pointing_conditional : Pointing stream (conditional routines) := by
  unfold conditional
  infer_instance

instance pointing_moreArguments
    {count : Nat} :
    Pointing stream (moreArguments routines count) := by
  induction count with
  | zero =>
      unfold moreArguments
      infer_instance
  | succ count inductionHypothesis =>
      unfold moreArguments
      infer_instance

instance pointing_arguments : Pointing stream (arguments routines) := by
  unfold arguments
  infer_instance

/-- All forms of operand but numbers, which are reported only as such. -/
theorem pointing_operandOf
    {form : OperandForm}
    (other : form ≠ .integer) :
    Pointing stream (operandOf routines form) := by
  cases form with
  | identifier =>
      unfold operandOf identifier
      infer_instance
  | integer =>
      contradiction
  | string =>
      unfold operandOf string
      infer_instance
  | boolean =>
      unfold operandOf boolean
      infer_instance
  | prefixed =>
      unfold operandOf prefixed
      infer_instance
  | grouping =>
      unfold operandOf grouping
      infer_instance
  | conditional =>
      unfold operandOf
      infer_instance
  | function =>
      unfold operandOf function
      infer_instance

instance pointing_operand : Pointing stream (operand routines) where
  points := by
    intro start moves
    unfold operand
    rw [current_bind_apply]
    cases isForm : start.stream.current.kind.operandForm? with
    | some form =>
        by_cases number : form = .integer
        · subst number
          exact points_integer (TokenKind.eq_number_of_operandForm isForm) moves
        · exact (pointing_operandOf number).points start moves
    | none =>
        have points :
            Diagnostic.PointsAt start.stream.current
              ⟨.noExpression start.stream.current.kind,
                start.stream.current.start⟩ :=
          ⟨rfl, rfl⟩
        exact points_of_current rfl points moves start.depth

instance pointing_operatorOf
    {left : Expression}
    {precedence : Precedence}
    {form : OperatorForm} :
    Pointing stream (operatorOf routines left precedence form) := by
  cases form with
  | binary =>
      unfold operatorOf binary
      infer_instance
  | call =>
      unfold operatorOf call
      infer_instance

instance pointing_statementOf
    {form? : Option StatementForm} :
    Pointing stream (statementOf routines form?) := by
  rcases form? with _ | _ | _
  · unfold statementOf expressionStatement
    infer_instance
  · unfold statementOf binding
    infer_instance
  · unfold statementOf returning
    infer_instance

instance pointing_statement : Pointing stream (statement routines) := by
  unfold statement
  infer_instance

/-- A statement and what follows it, which starts where it may have failed. -/
theorem points_round
    (routines : Routines Cursor)
    [PointingRoutines stream routines]
    {start : Cursor}
    {rest : Outcome Cursor (List Statement)}
    (moves : start.MovesIn stream)
    (pointsRest :
      (statement routines start).cursor.advance.MovesIn stream →
        rest.Points stream (statement routines start).cursor.advance) :
    (⟨rest.result?.map ((statement routines start).result?.toList ++ ·),
        rest.cursor, (statement routines start).events ++ rest.events⟩ :
      Outcome Cursor (List Statement)).Points stream start := by
  have first : Pointing stream (statement routines) := inferInstance
  have points := first.points start moves
  have pointsNext := pointsRest points.moves.advance
  have reached :
      (statement routines start).reach ≤
        (statement routines start).cursor.advance.passed := by
    unfold Outcome.reach
    split
    · exact Cursor.passed_le_advance _
    · exact Nat.le_refl _
  refine ⟨pointsNext.moves, ?_⟩
  rw [Event.diagnostics_append]
  have marked := (points.marked.widen reached).append pointsNext.marked
  simpa only [Outcome.reach, Option.isSome_map] using marked

theorem pointing_statements
    (count : Nat) :
    Pointing stream (statements routines count) where
  points := by
    intro start moves
    induction count generalizing start with
    | zero =>
        exact points_of_silent rfl moves (Nat.le_refl _)
    | succ count inductionHypothesis =>
        by_cases stops :
            start.stream.current.kind = .closeCurly ∨
              start.stream.current.kind = .endOfInput
        · have stopped :
              statements routines (count + 1) start = ⟨some [], start, []⟩ := by
            simp [statements, stops]
          rw [stopped]
          exact points_of_silent rfl moves (Nat.le_refl _)
        · rw [statements_succ stops rfl rfl]
          exact points_round routines moves fun movesNext =>
            inductionHypothesis _ movesNext

/-- A missing bracket is reported at the end of input. -/
theorem pointing_blockEnd
    (stream : TokenStream)
    (strictBlocks : Bool)
    (block : Block) :
    Pointing stream do
      let final ← current
      if strictBlocks = true ∧ final.kind = .endOfInput then
        reject (.expectedToken .closeCurly .endOfInput) final.start
      else
        return block where
  points := by
    intro start moves
    rw [current_bind_apply]
    by_cases missing :
        strictBlocks = true ∧ start.stream.current.kind = .endOfInput
    · have points :
          Diagnostic.PointsAt start.stream.current
            ⟨.expectedToken .closeCurly .endOfInput,
              start.stream.current.start⟩ :=
        ⟨rfl, missing.2⟩
      rw [if_pos missing]
      exact points_of_current rfl points moves start.depth
    · rw [if_neg missing]
      exact points_of_silent rfl moves (Nat.le_refl _)

theorem pointing_blockBody
    (strictBlocks : Bool) :
    Pointing stream (blockBody strictBlocks routines) := by
  have inner (count : Nat) : Pointing stream (statements routines count) :=
    pointing_statements count
  have final (block : Block) := pointing_blockEnd stream strictBlocks block
  unfold blockBody
  infer_instance

end Routines

section Nesting

variable {stream : TokenStream} {strictBlocks : Bool}

theorem pointing_operatorOr
    {bound : Precedence}
    {left : Expression}
    {apply : OperatorForm → Precedence → Parse Expression}
    [applied : ∀ form precedence, Pointing stream (apply form precedence)] :
    Pointing stream (operatorOr bound left apply) := by
  unfold operatorOr
  refine @pointing_bind _ _ _ _ _ inferInstance fun next => ?_
  cases next.operatorForm? with
  | none =>
      infer_instance
  | some form =>
      infer_instance

/-- Within any number of levels, what is recorded points at tokens. -/
theorem pointing_within (levels : Nat) :
    PointingRoutines stream (routinesWithin strictBlocks levels) ∧
      ∀ bound left,
        Pointing stream (operatorsWithin strictBlocks levels bound left) := by
  induction levels with
  | zero =>
      refine ⟨⟨fun bound => ?_, ?_⟩, fun bound left => ?_⟩
      · simp only [routinesWithin, expressionWithin]
        infer_instance
      · simp only [routinesWithin, blockWithin]
        infer_instance
      · unfold operatorsWithin
        exact pointing_operatorOr
  | succ levels inductionHypothesis =>
      obtain ⟨routines, operators⟩ := inductionHypothesis
      refine ⟨⟨fun bound => ?_, ?_⟩, fun bound left => ?_⟩
      · have first :
            Pointing stream (operand (routinesWithin strictBlocks levels)) :=
          inferInstance
        simp only [routinesWithin, expressionWithin] at first ⊢
        infer_instance
      · have body :
            Pointing stream
              (blockBody strictBlocks (routinesWithin strictBlocks levels)) :=
          pointing_blockBody strictBlocks
        simp only [routinesWithin, blockWithin] at body ⊢
        infer_instance
      · have applied
            (precedence : Precedence)
            (form : OperatorForm) :
            Pointing stream
              (operatorOf (routinesWithin strictBlocks levels)
                left precedence form) :=
          inferInstance
        simp only [routinesWithin] at applied
        unfold operatorsWithin
        exact pointing_operatorOr

end Nesting

/-- What the loop over the statements of a program records, round by round. -/
theorem pointing_programStatements
    (stream : TokenStream)
    (strictBlocks : Bool)
    (count : Nat) :
    Pointing stream (programStatements strictBlocks count) where
  points := by
    intro start moves
    induction count generalizing start with
    | zero =>
        exact points_of_silent rfl moves (Nat.le_refl _)
    | succ count inductionHypothesis =>
        by_cases ended : start.stream.ahead = []
        · rw [programStatements_of_ended ended]
          exact points_of_silent rfl moves (Nat.le_refl _)
        · have routines :
              PointingRoutines stream
                (routinesWithin strictBlocks nestingLimit) :=
            (pointing_within nestingLimit).1
          have round :=
            points_round (routinesWithin strictBlocks nestingLimit)
              (moves.atDepth 0) fun movesNext => inductionHypothesis _ movesNext
          rw [programStatements_succ ended rfl rfl]
          exact ⟨round.moves, round.marked⟩

end Parse

namespace Parsed

/-- What is recorded of a program points at its tokens, from front to back. -/
theorem marked_ofTokens (strictBlocks : Bool) (tokens : List Token) :
    Marked (TokenStream.ofTokens tokens) 0
      (ofTokens strictBlocks tokens).diagnostics
      (TokenStream.beforeEnd tokens).length := by
  have starts :
      (Cursor.ofStream (TokenStream.ofTokens tokens)).MovesIn
        (TokenStream.ofTokens tokens) :=
    ⟨⟨rfl, Nat.zero_le _⟩, rfl⟩
  have points :=
    (Parse.pointing_programStatements (TokenStream.ofTokens tokens) strictBlocks
      (TokenStream.beforeEnd tokens).length).points _ starts
  rw [diagnostics_ofTokens]
  apply points.marked.widen
  unfold Parse.Outcome.reach
  split
  · exact points.moves.stands.passed_le
  · exact points.moves.advance.stands.passed_le

end Parsed

end Scriptlet
