import Scriptlet.Proofs.Parse.Unrolling

namespace Scriptlet

/-!
# Steps that follow a cursor

A step does the same from every kind of place, as long as the place shows what a
cursor shows.  The relation between the two has to be kept by moving on and by
opening and closing levels; `Showing` says so, with one field for each use that
steps make of a place.

A step *follows* when, from related places, it ends with the same result and the
same trace, at related places.  Every routine follows: those of the grammar where
the routines for what is nested do, and all of them by induction over the levels.
Only in the number of their rounds the loops differ.  A cursor gives its loops one
round for each token ahead, and whatever is given beyond that is never used.
-/

/-- A relation under which places show what cursors show, and go on doing so. -/
structure Place.Showing
    {σ : Type}
    [Place σ]
    (shows : σ → Cursor → Prop) :
    Prop where
  current :
    ∀ {place cursor}, shows place cursor →
      Place.current place = cursor.stream.current
  peek :
    ∀ {place cursor}, shows place cursor → Place.peek place = cursor.stream.peek
  passed : ∀ {place cursor}, shows place cursor → Place.passed place = cursor.passed
  depth : ∀ {place cursor}, shows place cursor → Place.depth place = cursor.depth
  rounds :
    ∀ {place cursor}, shows place cursor →
      cursor.stream.ahead.length ≤ Place.rounds place
  advance :
    ∀ {place cursor}, shows place cursor →
      shows (Place.advance place) cursor.advance
  atDepth :
    ∀ {place cursor} depth, shows place cursor →
      shows (Place.atDepth place depth) (cursor.atDepth depth)

namespace Parse

section Rounds

variable (strictBlocks : Bool) (levels : Nat)

/-- Rounds beyond one for each token ahead make no difference. -/
theorem looped_same
    {rounds more : Nat}
    (le : rounds ≤ more) :
    (Callees.looped strictBlocks levels more).SameWhere
      (fun cursor => cursor.stream.ahead.length ≤ rounds)
      (.looped strictBlocks levels rounds) := by
  induction rounds generalizing more with
  | zero =>
      have ended
          {start : Cursor}
          (few : start.stream.ahead.length ≤ 0) :
          start.stream.ahead = [] :=
        List.eq_nil_of_length_eq_zero (Nat.le_zero.mp few)
      refine ⟨fun _ _ _ => rfl, fun _ _ => rfl, fun start few => ?_,
        fun start few => ?_, fun start few => ?_⟩
      · exact moreParameters_of_ended (ended few)
      · exact moreArguments_of_ended (ended few)
      · exact statements_of_ended (ended few)
  | succ rounds inductionHypothesis =>
      obtain ⟨more, rfl⟩ : ∃ fewer, more = fewer + 1 :=
        ⟨more - 1, by omega⟩
      have same := inductionHypothesis (Nat.le_of_succ_le_succ le)
      have moved
          {count : Nat}
          {cursor : Cursor}
          (few : cursor.stream.ahead.length ≤ count + 1) :
          cursor.advance.stream.ahead.length ≤ count := by
        rw [Cursor.ahead_advance, List.length_tail]
        omega
      have moving (cursor : Cursor) (few : cursor.stream.ahead.length ≤ rounds) :
          cursor.advance.stream.ahead.length ≤ rounds :=
        moved (Nat.le_succ_of_le few)
      refine ⟨fun _ _ _ => rfl, fun _ _ => rfl, fun start few => ?_,
        fun start few => ?_, fun start few => ?_⟩
      · calc
          moreParameters (more + 1) start
          _ = (Callees.looped strictBlocks levels more).parameterRound start :=
            congrFun (moreParameters_eq_round (.looped _ _ more) more) start
          _ = (Callees.looped strictBlocks levels rounds).parameterRound start :=
            parameterRound_same moving (steady_looped rounds) same (moved few)
          _ = moreParameters (rounds + 1) start :=
            (congrFun
              (moreParameters_eq_round (.looped _ _ rounds) rounds) start).symm
      · calc
          moreArguments (routinesWithin strictBlocks levels) (more + 1) start
          _ = (Callees.looped strictBlocks levels more).argumentRound start :=
            congrFun (moreArguments_eq_round (.looped _ _ more) more) start
          _ = (Callees.looped strictBlocks levels rounds).argumentRound start :=
            argumentRound_same moving (steady_looped rounds) same (moved few)
          _ = moreArguments (routinesWithin strictBlocks levels) (rounds + 1) start :=
            (congrFun
              (moreArguments_eq_round (.looped _ _ rounds) rounds) start).symm
      · calc
          statements (routinesWithin strictBlocks levels) (more + 1) start
          _ = (Callees.looped strictBlocks levels more).statementRound start :=
            congrFun (statements_eq_round (.looped _ _ more) more) start
          _ = (Callees.looped strictBlocks levels rounds).statementRound start :=
            statementRound_same moving (steady_looped rounds) same (moved few) rfl
          _ = statements (routinesWithin strictBlocks levels) (rounds + 1) start :=
            (congrFun (statements_eq_round (.looped _ _ rounds) rounds) start).symm

/-- The loops of the parser do the same with more rounds than tokens ahead. -/
theorem within_same
    {rounds : Nat}
    {start : Cursor}
    (enough : start.stream.ahead.length ≤ rounds) :
    moreParameters rounds start =
        moreParameters start.stream.ahead.length start ∧
      moreArguments (routinesWithin strictBlocks levels) rounds start =
        moreArguments (routinesWithin strictBlocks levels)
          start.stream.ahead.length start ∧
      statements (routinesWithin strictBlocks levels) rounds start =
        statements (routinesWithin strictBlocks levels)
          start.stream.ahead.length start := by
  have same :
      (Callees.looped strictBlocks levels rounds).SameWhere
        (fun cursor => cursor.stream.ahead.length ≤ start.stream.ahead.length)
        (.looped strictBlocks levels start.stream.ahead.length) :=
    looped_same strictBlocks levels enough
  have alone : start.stream.ahead.length ≤ start.stream.ahead.length :=
    Nat.le_refl _
  exact ⟨same.moreParameters start alone, same.moreArguments start alone,
    same.blockStatements start alone⟩

/-- So does the loop over the statements of a program. -/
theorem programStatements_same
    {rounds : Nat}
    {start : Cursor}
    (enough : start.stream.ahead.length ≤ rounds) :
    programStatements strictBlocks rounds start =
      programStatements strictBlocks start.stream.ahead.length start := by
  have ends
      {given : Nat}
      (covered : start.stream.ahead.length ≤ given) :
      (Callees.unrolled strictBlocks (.within strictBlocks 0)
          ((nestingLimit + 1) * (start.stream.ahead.length + 1 + 2) +
            (start.stream.ahead.length + 1))).programStatements start =
        programStatements strictBlocks given start :=
    programStatements_unrolled (Nat.le_refl _) (Nat.le_refl _)
      (Nat.succ_le_succ covered) (Nat.lt_succ_self _)
  exact (ends enough).symm.trans (ends (Nat.le_refl _))

end Rounds

/-- The outcomes have the same result and trace, at related places. -/
structure Outcome.Matches
    {σ α : Type}
    (shows : σ → Cursor → Prop)
    (outcome : Outcome σ α)
    (lead : Outcome Cursor α) :
    Prop where
  result? : outcome.result? = lead.result?
  cursor : shows outcome.cursor lead.cursor
  events : outcome.events = lead.events

/-- From related places, the step does what its lead does. -/
def Follows
    {σ α : Type}
    (shows : σ → Cursor → Prop)
    (step : Step σ α)
    (lead : Parse α) :
    Prop :=
  ∀ place cursor, shows place cursor →
    (step place).Matches shows (lead cursor)

section Combinators

variable
  {σ α β : Type}
  {shows : σ → Cursor → Prop}
  {step : Step σ α}
  {lead : Parse α}

theorem follows_pure (value : α) :
    Follows shows (pure value) (pure value) :=
  fun _ _ shown => ⟨rfl, shown, rfl⟩

theorem follows_fail : Follows shows (fail : Step σ α) fail :=
  fun _ _ shown => ⟨rfl, shown, rfl⟩

theorem follows_emit (event : Event) :
    Follows shows (emit event) (emit event) :=
  fun _ _ shown => ⟨rfl, shown, rfl⟩

theorem follows_reject (fault : Fault) (position : Position) :
    Follows shows (reject fault position : Step σ α) (reject fault position) :=
  fun _ _ shown => ⟨rfl, shown, rfl⟩

/-- What is done with the place that is looked at may depend on what is shown. -/
theorem follows_look
    {next : σ → Step σ β}
    {leadNext : Cursor → Parse β}
    (follows :
      ∀ {place cursor}, shows place cursor →
        Follows shows (next place) (leadNext cursor)) :
    Follows shows (cursor >>= next) (cursor >>= leadNext) :=
  fun place cursor shown => follows shown place cursor shown

theorem follows_bind
    {next : α → Step σ β}
    {leadNext : α → Parse β}
    (first : Follows shows step lead)
    (second : ∀ value, Follows shows (next value) (leadNext value)) :
    Follows shows (step >>= next) (lead >>= leadNext) := by
  intro place cursor shown
  obtain ⟨sameResult, shownMiddle, sameEvents⟩ := first place cursor shown
  simp only [bind, andThen]
  rcases ran : step place with ⟨result?, middle, events⟩
  rcases leadRan : lead cursor with ⟨leadResult?, leadMiddle, leadEvents⟩
  rw [ran, leadRan] at sameResult shownMiddle sameEvents
  cases sameResult
  cases sameEvents
  cases result? with
  | none =>
      exact ⟨rfl, shownMiddle, rfl⟩
  | some value =>
      have later := second value middle leadMiddle shownMiddle
      exact ⟨later.result?, later.cursor, congrArg (events ++ ·) later.events⟩

theorem follows_map
    {change : α → β}
    (follows : Follows shows step lead) :
    Follows shows (change <$> step) (change <$> lead) := by
  intro place cursor shown
  have ends := follows place cursor shown
  exact ⟨congrArg (Option.map change) ends.result?, ends.cursor, ends.events⟩

theorem follows_ite
    {condition : Prop}
    [Decidable condition]
    {other : Step σ α}
    {leadOther : Parse α}
    (positive : Follows shows step lead)
    (negative : Follows shows other leadOther) :
    Follows shows
      (if condition then step else other)
      (if condition then lead else leadOther) := by
  split
  · exact positive
  · exact negative

theorem follows_attempt
    (follows : Follows shows step lead) :
    Follows shows (attempt step) (attempt lead) := by
  intro place cursor shown
  have ends := follows place cursor shown
  exact ⟨congrArg some ends.result?, ends.cursor, ends.events⟩

theorem follows_finishing
    {step : Step σ (List Statement)}
    {lead : Parse (List Statement)}
    (follows : Follows shows step lead) :
    Follows shows (finishing step) (finishing lead) := by
  intro place cursor shown
  have ends := follows place cursor shown
  refine ⟨congrArg (Option.map Program.mk) ends.result?, ends.cursor, ?_⟩
  simp only [finishing, ends.events, ends.result?]

end Combinators

section Moves

variable
  {σ α β : Type}
  [Place σ]
  {shows : σ → Cursor → Prop}
  (showing : Place.Showing shows)

include showing

theorem follows_current : Follows shows current current := by
  refine follows_look fun shown => ?_
  rw [showing.current shown]
  exact follows_pure _

theorem follows_currentKind : Follows shows currentKind currentKind :=
  follows_bind (follows_current showing) fun _ => follows_pure _

theorem follows_peekKind : Follows shows peekKind peekKind := by
  refine follows_look fun shown => ?_
  rw [showing.peek shown]
  exact follows_pure _

theorem follows_advance : Follows shows advance advance :=
  fun _ _ shown =>
    ⟨congrArg some (showing.current shown), showing.advance shown, rfl⟩

theorem follows_setDepth (depth : Nat) :
    Follows shows (setDepth depth) (setDepth depth) :=
  fun _ _ shown => ⟨rfl, showing.atDepth depth shown, rfl⟩

theorem follows_nested
    {step : Step σ α}
    {lead : Parse α}
    (follows : Follows shows step lead) :
    Follows shows (nested step) (nested lead) := by
  intro place cursor shown
  have ends := follows place cursor shown
  refine ⟨ends.result?, ?_, ends.events⟩
  simp only [nested, showing.depth shown]
  exact showing.atDepth cursor.depth ends.cursor

theorem follows_closing
    {step : Step σ α}
    {lead : Parse α}
    (follows : Follows shows step lead) :
    Follows shows (closing step) (closing lead) := by
  intro place cursor shown
  have ends := follows place cursor shown
  refine ⟨ends.result?, ends.cursor, ?_⟩
  simp only [closing, ends.events, ends.result?, showing.passed shown,
    Cursor.place_passed]

theorem follows_expect (kind : TokenKind) :
    Follows shows (expect kind) (expect kind) := by
  refine follows_look fun shown => ?_
  simp only [showing.peek shown, Cursor.place_peek]
  refine follows_ite ?_ (follows_reject _ _)
  exact follows_bind (follows_advance showing) fun _ => follows_current showing

theorem follows_skipSemicolon : Follows shows skipSemicolon skipSemicolon := by
  refine follows_bind (follows_peekKind showing) fun _ => ?_
  refine follows_ite ?_ (follows_pure _)
  exact follows_bind (follows_advance showing) fun _ => follows_pure _

theorem follows_descend (level : Level) :
    Follows shows (descend level) (descend level) := by
  refine follows_look fun shown => ?_
  simp only [showing.depth shown, showing.passed shown, showing.current shown,
    Cursor.place_depth, Cursor.place_passed, Cursor.place_current]
  refine follows_bind (follows_setDepth showing _) fun _ => ?_
  refine follows_bind (follows_emit _) fun _ => ?_
  exact follows_ite (follows_reject _ _) (follows_pure _)

/-- A loop follows where it does so with every number of rounds. -/
theorem follows_loop
    {loop : Nat → Step σ α}
    {leadLoop : Nat → Parse α}
    {next : α → Step σ β}
    {leadNext : α → Parse β}
    (each : ∀ count, Follows shows (loop count) (leadLoop count))
    (enough :
      ∀ {count : Nat} {start : Cursor}, start.stream.ahead.length ≤ count →
        leadLoop count start = leadLoop start.stream.ahead.length start)
    (later : ∀ value, Follows shows (next value) (leadNext value)) :
    Follows shows
      (rounds >>= fun count => loop count >>= next)
      (rounds >>= fun count => leadLoop count >>= leadNext) := by
  intro place cursor shown
  have given := follows_bind (each (Place.rounds place)) later place cursor shown
  have same :
      (leadLoop (Place.rounds place) >>= leadNext) cursor =
        (leadLoop cursor.stream.ahead.length >>= leadNext) cursor :=
    bind_same (enough (showing.rounds shown)) fun _ => rfl
  rw [same] at given
  exact given

end Moves

/-- The routines for what is nested follow, within some levels. -/
structure FollowsWithin
    {σ : Type}
    [Place σ]
    (shows : σ → Cursor → Prop)
    (strictBlocks : Bool)
    (levels : Nat) :
    Prop where
  expression :
    ∀ bound,
      Follows shows
        (expressionWithin strictBlocks levels bound)
        (expressionWithin strictBlocks levels bound)
  block :
    Follows shows (blockWithin strictBlocks levels) (blockWithin strictBlocks levels)

section Forms

variable
  {σ α : Type}
  [Place σ]
  {shows : σ → Cursor → Prop}
  {strictBlocks : Bool}
  {levels : Nat}
  (showing : Place.Showing shows)

include showing

theorem follows_integer : Follows shows integer integer := by
  refine follows_bind (follows_current showing) fun token => ?_
  cases Text.readInteger? token.value with
  | none =>
      exact follows_reject _ _
  | some value =>
      exact follows_pure _

theorem follows_moreParameters (count : Nat) :
    Follows shows (moreParameters count) (moreParameters count) := by
  induction count with
  | zero =>
      exact follows_pure _
  | succ count inductionHypothesis =>
      simp only [moreParameters, andSoOn_eq]
      refine follows_bind (follows_peekKind showing) fun _ => ?_
      refine follows_ite ?_ (follows_pure _)
      refine follows_bind (follows_advance showing) fun _ => ?_
      refine follows_bind (follows_expect showing _) fun _ => ?_
      exact follows_map inductionHypothesis

theorem follows_parameters : Follows shows parameters parameters := by
  refine follows_bind (follows_peekKind showing) fun _ => ?_
  refine follows_ite ?_ ?_
  · exact follows_bind (follows_advance showing) fun _ => follows_pure _
  · refine follows_bind (follows_expect showing _) fun token => ?_
    refine follows_loop showing (follows_moreParameters showing) ?_ fun rest => ?_
    · exact fun enough => (within_same false 0 enough).1
    · exact follows_bind (follows_expect showing _) fun _ => follows_pure _

variable (within : FollowsWithin shows strictBlocks levels)

include within

theorem follows_prefixed :
    Follows shows
      (prefixed (routinesWithin strictBlocks levels))
      (prefixed (routinesWithin strictBlocks levels)) := by
  refine follows_bind (follows_advance showing) fun _ => ?_
  exact follows_bind (within.expression _) fun _ => follows_pure _

theorem follows_grouping :
    Follows shows
      (grouping (routinesWithin strictBlocks levels))
      (grouping (routinesWithin strictBlocks levels)) := by
  refine follows_bind (follows_advance showing) fun _ => ?_
  refine follows_bind (within.expression _) fun _ => ?_
  exact follows_bind (follows_expect showing _) fun _ => follows_pure _

theorem follows_alternative :
    Follows shows
      (alternative (routinesWithin strictBlocks levels))
      (alternative (routinesWithin strictBlocks levels)) := by
  refine follows_bind (follows_peekKind showing) fun _ => ?_
  refine follows_ite ?_ (follows_pure _)
  refine follows_bind (follows_advance showing) fun _ => ?_
  refine follows_bind (follows_expect showing _) fun _ => ?_
  exact follows_bind within.block fun _ => follows_pure _

theorem follows_conditional :
    Follows shows
      (conditional (routinesWithin strictBlocks levels))
      (conditional (routinesWithin strictBlocks levels)) := by
  refine follows_bind (follows_current showing) fun _ => ?_
  refine follows_bind (follows_expect showing _) fun _ => ?_
  refine follows_bind (follows_advance showing) fun _ => ?_
  refine follows_bind (within.expression _) fun _ => ?_
  refine follows_bind (follows_expect showing _) fun _ => ?_
  refine follows_bind (follows_expect showing _) fun _ => ?_
  refine follows_bind within.block fun _ => ?_
  exact follows_bind (follows_alternative showing within) fun _ => follows_pure _

theorem follows_function :
    Follows shows
      (function (routinesWithin strictBlocks levels))
      (function (routinesWithin strictBlocks levels)) := by
  refine follows_bind (follows_current showing) fun _ => ?_
  refine follows_bind (follows_expect showing _) fun _ => ?_
  refine follows_bind (follows_parameters showing) fun _ => ?_
  refine follows_bind (follows_expect showing _) fun _ => ?_
  exact follows_bind within.block fun _ => follows_pure _

theorem follows_operandOf (form : OperandForm) :
    Follows shows
      (operandOf (routinesWithin strictBlocks levels) form)
      (operandOf (routinesWithin strictBlocks levels) form) := by
  cases form with
  | identifier | string | boolean =>
      exact follows_bind (follows_current showing) fun _ => follows_pure _
  | integer =>
      exact follows_integer showing
  | prefixed =>
      exact follows_prefixed showing within
  | grouping =>
      exact follows_grouping showing within
  | conditional =>
      exact follows_conditional showing within
  | function =>
      exact follows_function showing within

theorem follows_operand :
    Follows shows
      (operand (routinesWithin strictBlocks levels))
      (operand (routinesWithin strictBlocks levels)) := by
  refine follows_bind (follows_current showing) fun token => ?_
  cases token.kind.operandForm? with
  | none =>
      exact follows_reject _ _
  | some form =>
      exact follows_operandOf showing within form

theorem follows_moreArguments (count : Nat) :
    Follows shows
      (moreArguments (routinesWithin strictBlocks levels) count)
      (moreArguments (routinesWithin strictBlocks levels) count) := by
  induction count with
  | zero =>
      exact follows_pure _
  | succ count inductionHypothesis =>
      simp only [moreArguments, andSoOn_eq]
      refine follows_bind (follows_peekKind showing) fun _ => ?_
      refine follows_ite ?_ (follows_pure _)
      refine follows_bind (follows_advance showing) fun _ => ?_
      refine follows_bind (follows_advance showing) fun _ => ?_
      refine follows_bind (within.expression _) fun _ => ?_
      exact follows_map inductionHypothesis

theorem follows_arguments :
    Follows shows
      (arguments (routinesWithin strictBlocks levels))
      (arguments (routinesWithin strictBlocks levels)) := by
  refine follows_bind (follows_peekKind showing) fun _ => ?_
  refine follows_ite ?_ ?_
  · exact follows_bind (follows_advance showing) fun _ => follows_pure _
  · refine follows_bind (follows_advance showing) fun _ => ?_
    refine follows_bind (within.expression _) fun _ => ?_
    refine follows_loop showing (follows_moreArguments showing within) ?_ fun _ => ?_
    · exact fun enough => (within_same strictBlocks levels enough).2.1
    · exact follows_bind (follows_expect showing _) fun _ => follows_pure _

theorem follows_operatorOf
    (left : Expression)
    (precedence : Precedence)
    (form : OperatorForm) :
    Follows shows
      (operatorOf (routinesWithin strictBlocks levels) left precedence form)
      (operatorOf (routinesWithin strictBlocks levels) left precedence form) := by
  cases form with
  | binary =>
      refine follows_bind (follows_advance showing) fun _ => ?_
      exact follows_bind (within.expression _) fun _ => follows_pure _
  | call =>
      refine follows_bind (follows_current showing) fun _ => ?_
      exact follows_bind (follows_arguments showing within) fun _ => follows_pure _

theorem follows_statementOf (form? : Option StatementForm) :
    Follows shows
      (statementOf (routinesWithin strictBlocks levels) form?)
      (statementOf (routinesWithin strictBlocks levels) form?) := by
  rcases form? with _ | _ | _
  · refine follows_bind (follows_current showing) fun _ => ?_
    refine follows_bind (within.expression _) fun _ => ?_
    exact follows_bind (follows_skipSemicolon showing) fun _ => follows_pure _
  · refine follows_bind (follows_current showing) fun _ => ?_
    refine follows_bind (follows_expect showing _) fun _ => ?_
    refine follows_bind (follows_expect showing _) fun _ => ?_
    refine follows_bind (follows_advance showing) fun _ => ?_
    refine follows_bind (within.expression _) fun _ => ?_
    exact follows_bind (follows_skipSemicolon showing) fun _ => follows_pure _
  · refine follows_bind (follows_advance showing) fun _ => ?_
    refine follows_bind (within.expression _) fun _ => ?_
    exact follows_bind (follows_skipSemicolon showing) fun _ => follows_pure _

theorem follows_statement :
    Follows shows
      (statement (routinesWithin strictBlocks levels))
      (statement (routinesWithin strictBlocks levels)) := by
  refine follows_closing showing ?_
  refine follows_bind (follows_currentKind showing) fun kind => ?_
  refine follows_ite ?_ ?_
  · refine follows_bind (follows_emit _) fun _ => ?_
    exact follows_statementOf showing within _
  · exact follows_statementOf showing within _

theorem follows_statements (count : Nat) :
    Follows shows
      (statements (routinesWithin strictBlocks levels) count)
      (statements (routinesWithin strictBlocks levels) count) := by
  induction count with
  | zero =>
      exact follows_pure _
  | succ count inductionHypothesis =>
      simp only [statements, andSoOn_eq]
      refine follows_bind (follows_currentKind showing) fun _ => ?_
      refine follows_ite (follows_pure _) ?_
      refine follows_bind (follows_attempt (follows_statement showing within))
        fun _ => ?_
      refine follows_bind (follows_advance showing) fun _ => ?_
      exact follows_map inductionHypothesis

theorem follows_blockBody :
    Follows shows
      (blockBody strictBlocks (routinesWithin strictBlocks levels))
      (blockBody strictBlocks (routinesWithin strictBlocks levels)) := by
  refine follows_bind (follows_advance showing) fun _ => ?_
  refine follows_loop showing (follows_statements showing within) ?_ fun _ => ?_
  · exact fun enough => (within_same strictBlocks levels enough).2.2
  · refine follows_bind (follows_current showing) fun _ => ?_
    exact follows_ite (follows_reject _ _) (follows_pure _)

end Forms

section Levels

variable
  {σ α : Type}
  [Place σ]
  {shows : σ → Cursor → Prop}
  (showing : Place.Showing shows)
  (strictBlocks : Bool)

include showing

theorem follows_operatorOr
    {bound : Precedence}
    {left : Expression}
    {apply : OperatorForm → Precedence → Step σ Expression}
    {leadApply : OperatorForm → Precedence → Parse Expression}
    (follows :
      ∀ form precedence,
        Follows shows (apply form precedence) (leadApply form precedence)) :
    Follows shows (operatorOr bound left apply) (operatorOr bound left leadApply) := by
  refine follows_bind (follows_peekKind showing) fun next => ?_
  cases next.operatorForm? with
  | none =>
      exact follows_pure _
  | some form =>
      refine follows_ite ?_ (follows_pure _)
      exact follows_bind (follows_descend showing _) fun _ => follows form _

/-- Expressions, operators and blocks follow, whatever levels are still open. -/
theorem follows_levels (levels : Nat) :
    FollowsWithin shows strictBlocks levels ∧
      ∀ bound left,
        Follows shows
          (operatorsWithin strictBlocks levels bound left)
          (operatorsWithin strictBlocks levels bound left) := by
  induction levels with
  | zero =>
      refine ⟨⟨fun bound => ?_, ?_⟩, fun bound left => ?_⟩
      · simp only [expressionWithin]
        exact follows_nested showing
          (follows_bind (follows_descend showing _) fun _ => follows_fail)
      · simp only [blockWithin]
        exact follows_nested showing
          (follows_bind (follows_descend showing _) fun _ => follows_fail)
      · simp only [operatorsWithin]
        exact follows_operatorOr showing fun _ _ => follows_fail
  | succ levels inductionHypothesis =>
      obtain ⟨within, operators⟩ := inductionHypothesis
      refine ⟨⟨fun bound => ?_, ?_⟩, fun bound left => ?_⟩
      · simp only [expressionWithin]
        refine follows_nested showing ?_
        refine follows_bind (follows_descend showing _) fun _ => ?_
        exact follows_bind (follows_operand showing within) fun left =>
          operators bound left
      · simp only [blockWithin]
        refine follows_nested showing ?_
        refine follows_bind (follows_descend showing _) fun _ => ?_
        exact follows_blockBody showing within
      · simp only [operatorsWithin]
        refine follows_operatorOr showing fun form precedence => ?_
        refine follows_bind (follows_advance showing) fun _ => ?_
        exact follows_bind (follows_operatorOf showing within left precedence form)
          fun applied => operators bound applied

theorem follows_withRoutines
    {routine : Routines σ → Step σ α}
    {leadRoutine : Routines Cursor → Parse α}
    (follows :
      ∀ {levels}, FollowsWithin shows strictBlocks levels →
        Follows shows
          (routine (routinesWithin strictBlocks levels))
          (leadRoutine (routinesWithin strictBlocks levels))) :
    Follows shows
      (withRoutines strictBlocks routine)
      (withRoutines strictBlocks leadRoutine) := by
  intro place cursor shown
  simp only [withRoutines, showing.depth shown, Cursor.place_depth]
  exact follows (follows_levels showing strictBlocks _).1 place cursor shown

theorem follows_programStatements (count : Nat) :
    Follows shows
      (programStatements strictBlocks count)
      (programStatements strictBlocks count) := by
  induction count with
  | zero =>
      exact follows_pure _
  | succ count inductionHypothesis =>
      simp only [programStatements, andSoOn_eq]
      refine follows_bind (follows_current showing) fun _ => ?_
      refine follows_ite (follows_pure _) ?_
      refine follows_bind (follows_emit _) fun _ => ?_
      refine follows_bind (follows_setDepth showing _) fun _ => ?_
      refine follows_bind (follows_attempt ?_) fun _ => ?_
      · exact follows_withRoutines showing strictBlocks (follows_statement showing)
      · refine follows_bind (follows_advance showing) fun _ => ?_
        exact follows_map inductionHypothesis

/-- A program is read in the same way wherever the same is shown. -/
theorem follows_program :
    Follows shows (program strictBlocks) (program strictBlocks) := by
  refine follows_finishing ?_
  intro place cursor shown
  have given :=
    follows_programStatements showing strictBlocks (Place.rounds place) place cursor
      shown
  rw [programStatements_same strictBlocks (showing.rounds shown)] at given
  exact given

end Levels

end Parse

end Scriptlet
