import Scriptlet.Proofs.Parse.Companions
import Scriptlet.Proofs.Parse.Levels
import Scriptlet.Proofs.Parse.Recursion

namespace Scriptlet

/-!
# The recursion of the parser ends

A routine carried through enough rounds of the recursion does what the parser does,
whatever comes below: it never gets to ask.  Expressions, operators and blocks call
each other with fewer levels still open to them; the loops call themselves with
fewer tokens ahead.  So the rounds are counted by levels first and, on one level, by
tokens.
-/

namespace Cursor

/-- At most so many levels are still open, and fewer than so many tokens ahead. -/
structure Confined (levels tokens : Nat) (cursor : Cursor) : Prop where
  levels : nestingLimit ≤ levels + cursor.depth
  tokens : cursor.stream.ahead.length < tokens

namespace Confined

variable {levels tokens : Nat} {cursor : Cursor}

theorem advance
    (levels tokens : Nat)
    (cursor : Cursor)
    (confined : cursor.Confined levels tokens) :
    cursor.advance.Confined levels tokens := by
  refine ⟨by simpa using confined.levels, ?_⟩
  have fewer := confined.tokens
  rw [ahead_advance, List.length_tail]
  omega

/-- Moving on leaves fewer tokens ahead. -/
theorem advance_of_ahead
    (confined : cursor.Confined levels (tokens + 1))
    (inside : cursor.stream.ahead ≠ []) :
    cursor.advance.Confined levels tokens := by
  refine ⟨by simpa using confined.levels, ?_⟩
  have fewer := confined.tokens
  have nonempty := List.length_pos_iff.mpr inside
  rw [ahead_advance, List.length_tail]
  omega

/-- Entering a level leaves fewer levels open. -/
theorem opens
    (confined : cursor.Confined (levels + 1) tokens) :
    (cursor.atDepth (cursor.depth + 1)).Confined levels tokens := by
  refine ⟨?_, confined.tokens⟩
  have left := confined.levels
  rw [depth_atDepth]
  omega

theorem mono
    {more : Nat}
    (confined : cursor.Confined levels tokens)
    (le : tokens ≤ more) :
    cursor.Confined levels more :=
  ⟨confined.levels, Nat.lt_of_lt_of_le confined.tokens le⟩

end Confined

/-- So many rounds of the recursion are enough for what starts at the cursor. -/
def rounds (start : Cursor) : Nat :=
  (nestingLimit + 2) * (start.stream.ahead.length + 3)

end Cursor

namespace Parse

open Cursor

section Steps

variable {α β : Type} {start : Cursor}

/-- A sequence does the same if its parts do, each where it is run. -/
theorem bind_same
    {first second : Parse α}
    {next other : α → Parse β}
    (same : first start = second start)
    (later :
      ∀ value, next value (second start).cursor = other value (second start).cursor) :
    (first >>= next) start = (second >>= other) start := by
  rcases ran : second start with ⟨_ | value, middle, events⟩
  · rw [bind_apply_of_none ran, bind_apply_of_none (same.trans ran)]
  · rw [ran] at later
    rw [bind_apply_of_some ran, bind_apply_of_some (same.trans ran), later]

theorem map_same
    {change : α → β}
    {first second : Parse α}
    (same : first start = second start) :
    (change <$> first) start = (change <$> second) start := by
  simp only [Functor.map, mapResult, same]

theorem attempt_same
    {first second : Parse α}
    (same : first start = second start) :
    attempt first start = attempt second start := by
  simp only [attempt, same]

/-- What follows a level matters only where the level can be entered. -/
theorem descend_bind_same
    {level : Level}
    {next other : Unit → Parse β}
    (same :
      start.depth < nestingLimit →
        next () (start.atDepth (start.depth + 1)) =
          other () (start.atDepth (start.depth + 1))) :
    (descend level >>= next) start = (descend level >>= other) start := by
  by_cases within : start.depth < nestingLimit
  · rw [bind_apply_of_some (descend_of_lt within),
      bind_apply_of_some (descend_of_lt within), same within]
  · have full := Nat.le_of_not_lt within
    rw [bind_apply_of_none (descend_of_le full),
      bind_apply_of_none (descend_of_le full)]

theorem nested_same
    {first second : Parse α}
    (same : first start = second start) :
    nested first start = nested second start := by
  simp only [nested, same]

theorem operatorOr_same
    {bound : Precedence}
    {left : Expression}
    {apply other : OperatorForm → Precedence → Parse Expression}
    (same :
      ∀ form precedence, start.depth < nestingLimit →
        apply form precedence (start.atDepth (start.depth + 1)) =
          other form precedence (start.atDepth (start.depth + 1))) :
    operatorOr bound left apply start = operatorOr bound left other start := by
  cases operator : start.stream.peek.kind.operatorForm? with
  | none =>
      simp only [operatorOr, peekKind_bind_apply, operator]
  | some form =>
      simp only [operatorOr, peekKind_bind_apply, operator]
      split
      · exact descend_bind_same (same form _)
      · rfl

end Steps

/-- All that routines call does the same, wherever a condition holds. -/
structure Callees.SameWhere
    (condition : Cursor → Prop)
    (first second : Callees) :
    Prop where
  expression :
    ∀ bound start, condition start →
      first.expression bound start = second.expression bound start
  block : ∀ start, condition start → first.block start = second.block start
  moreParameters :
    ∀ start, condition start →
      first.moreParameters start = second.moreParameters start
  moreArguments :
    ∀ start, condition start →
      first.moreArguments start = second.moreArguments start
  blockStatements :
    ∀ start, condition start →
      first.blockStatements start = second.blockStatements start

section Routines

variable {α : Type} {condition : Cursor → Prop} {first second : Callees}

/-- A routine does the same if what it calls does. -/
theorem Composed.same
    {routine : Callees → Parse α}
    (composed : Composed routine)
    (moving : ∀ cursor, condition cursor → condition cursor.advance)
    (steady : second.Steady)
    (same : first.SameWhere condition second)
    {start : Cursor}
    (holds : condition start) :
    routine first start = routine second start := by
  induction composed generalizing start with
  | done | cursor | advance | recognise | reject =>
      rfl
  | bind composedFirst _ before after =>
      refine bind_same (before holds) fun value => after value ?_
      exact (composedFirst.steady steady).holds_after moving holds
  | map _ inner =>
      exact map_same (inner holds)
  | attempt _ inner =>
      exact attempt_same (inner holds)
  | closing _ inner =>
      simp only [Parse.closing, inner holds]
  | expression =>
      exact same.expression _ _ holds
  | block =>
      exact same.block _ holds
  | moreParameters =>
      exact same.moreParameters _ holds
  | moreArguments =>
      exact same.moreArguments _ holds
  | blockStatements =>
      exact same.blockStatements _ holds

/-- A statement runs no loops but those of what is nested in it. -/
theorem statement_same
    (moving : ∀ cursor, condition cursor → condition cursor.advance)
    (steady : second.Steady)
    (expression :
      ∀ bound start, condition start →
        first.expression bound start = second.expression bound start)
    (block : ∀ start, condition start → first.block start = second.block start)
    {start : Cursor}
    (holds : condition start) :
    first.statement start = second.statement start := by
  have same : first.loopless.SameWhere condition second.loopless :=
    ⟨expression, block, fun _ _ => rfl, fun _ _ => rfl, fun _ _ => rfl⟩
  exact Composed.statement.same moving
    (Callees.steady_loopless steady.expression steady.block) same holds

/-- Statements are read one after the other, each further on than the last. -/
theorem statement_bind_same
    {start : Cursor}
    {statement other : Parse Statement}
    {later laterOther : Parse (List Statement)}
    (moving : ∀ cursor, condition cursor → condition cursor.advance)
    (steady : Steady other)
    (holds : condition start.advance)
    (same : statement start = other start)
    (sameLater : ∀ cursor, condition cursor → later cursor = laterOther cursor) :
    (do
      let statement? ← attempt statement
      let _ ← advance
      (statement?.toList ++ ·) <$> later) start =
      (do
        let statement? ← attempt other
        let _ ← advance
        (statement?.toList ++ ·) <$> laterOther) start := by
  refine bind_same (attempt_same same) fun statement? => ?_
  rw [advance_bind_apply, advance_bind_apply]
  refine map_same (sameLater _ ?_)
  obtain ⟨moves, ends⟩ := steady start
  have moved : (other start).cursor.advance = start.advance.advanceBy moves := by
    rw [ends]
    exact (start.advanceBy_add moves 1).symm
  exact moved ▸ advanceBy_induction moving holds moves

section Rounds

variable {start : Cursor}

theorem parameterRound_same
    (moving : ∀ cursor, condition cursor → condition cursor.advance)
    (steady : second.Steady)
    (same : first.SameWhere condition second)
    (holds : condition start.advance) :
    first.parameterRound start = second.parameterRound start := by
  simp only [Callees.parameterRound, peekKind_bind_apply]
  split
  · have rest :
        Composed (fun callees => do
          let token ← expect .identifier
          (Name.ofToken token :: ·) <$> callees.moreParameters) :=
      .bind .expect fun _ => .map .moreParameters
    rw [advance_bind_apply, advance_bind_apply]
    exact rest.same moving steady same holds
  · rfl

theorem argumentRound_same
    (moving : ∀ cursor, condition cursor → condition cursor.advance)
    (steady : second.Steady)
    (same : first.SameWhere condition second)
    (holds : condition start.advance) :
    first.argumentRound start = second.argumentRound start := by
  simp only [Callees.argumentRound, peekKind_bind_apply]
  split
  · have rest :
        Composed (fun callees => do
          let _ ← advance
          let argument ← callees.expression .lowest
          (argument :: ·) <$> callees.moreArguments) :=
      .bind .advance fun _ => .bind .expression fun _ => .map .moreArguments
    rw [advance_bind_apply, advance_bind_apply]
    exact rest.same moving steady same holds
  · rfl

theorem statementRound_same
    (moving : ∀ cursor, condition cursor → condition cursor.advance)
    (steady : second.Steady)
    (same : first.SameWhere condition second)
    (holds : condition start.advance)
    (statement : first.statement start = second.statement start) :
    first.statementRound start = second.statementRound start := by
  simp only [Callees.statementRound, currentKind_bind_apply]
  split
  · rfl
  · exact statement_bind_same moving (Composed.statement.steady steady) holds
      statement same.blockStatements

variable (callees : Callees)

theorem parameterRound_of_ended
    (ended : start.stream.ahead = []) :
    callees.parameterRound start = ⟨some [], start, []⟩ := by
  simp [Callees.parameterRound, peek_of_ended ended]

theorem argumentRound_of_ended
    (ended : start.stream.ahead = []) :
    callees.argumentRound start = ⟨some [], start, []⟩ := by
  simp [Callees.argumentRound, peek_of_ended ended]

theorem statementRound_of_ended
    (ended : start.stream.ahead = []) :
    callees.statementRound start = ⟨some [], start, []⟩ := by
  have final := start.stream.current_kind_eq_endOfInput_iff.mpr ended
  simp [Callees.statementRound, final]

theorem programRound_of_ended
    (ended : start.stream.ahead = []) :
    callees.programRound start = ⟨some [], start, []⟩ := by
  have final := start.stream.current_kind_eq_endOfInput_iff.mpr ended
  simp [Callees.programRound, final]

end Rounds

end Routines

/-- What is nested is read as the parser reads it within so many levels. -/
structure Callees.Nests
    (strictBlocks : Bool)
    (levels tokens : Nat)
    (callees : Callees) :
    Prop where
  expression :
    ∀ bound (start : Cursor), start.Confined levels tokens →
      callees.expression bound start =
        expressionWithin strictBlocks levels bound start
  operators :
    ∀ bound left (start : Cursor), start.Confined levels tokens →
      callees.operators bound left start =
        operatorsWithin strictBlocks levels bound left start
  block :
    ∀ start : Cursor, start.Confined levels tokens →
      callees.block start = blockWithin strictBlocks levels start

section Levels

variable
  {strictBlocks : Bool}
  {below : Callees}
  {levels tokens least : Nat}

/-- What the parser calls, with so many rounds left of each loop. -/
def Callees.looped (strictBlocks : Bool) (levels rounds : Nat) : Callees :=
  { Callees.within strictBlocks levels with
    moreParameters := Parse.moreParameters rounds
    moreArguments :=
      Parse.moreArguments (routinesWithin strictBlocks levels) rounds
    blockStatements := statements (routinesWithin strictBlocks levels) rounds }

theorem steady_looped (rounds : Nat) :
    (Callees.looped strictBlocks levels rounds).Steady :=
  have steady := steady_within strictBlocks levels
  ⟨steady.expression, steady.block, steady.parameters rounds,
    steady.arguments rounds, steady.statements rounds⟩

/--
The loops of one level need one round for each token ahead, on top of the rounds
that are needed for what is nested.
-/
theorem same_looped
    (nests :
      ∀ count, least ≤ count →
        (Callees.unrolled strictBlocks below count).Nests strictBlocks levels tokens)
    {count rounds ahead : Nat}
    (enough : least + ahead ≤ count)
    (bounded : ahead ≤ tokens)
    (covered : ahead ≤ rounds + 1) :
    (Callees.unrolled strictBlocks below count).SameWhere (Confined levels ahead)
      (.looped strictBlocks levels rounds) := by
  induction ahead generalizing count rounds with
  | zero =>
      have nowhere (cursor : Cursor) : ¬ cursor.Confined levels 0 :=
        fun confined => Nat.not_lt_zero _ confined.tokens
      exact ⟨fun _ start here => (nowhere start here).elim,
        fun start here => (nowhere start here).elim,
        fun start here => (nowhere start here).elim,
        fun start here => (nowhere start here).elim,
        fun start here => (nowhere start here).elim⟩
  | succ ahead inductionHypothesis =>
      obtain ⟨count, rfl⟩ : ∃ fewer, count = fewer + 1 :=
        ⟨count - 1, by omega⟩
      have outer := nests (count + 1) (by omega)
      have inner := nests count (by omega)
      have moving := Confined.advance levels ahead
      -- Where there is a token ahead, the loop has a round left.
      have goesOn
          {start : Cursor}
          (here : start.Confined levels (ahead + 1))
          (inside : start.stream.ahead ≠ []) :
          ∃ fewer,
            rounds = fewer + 1 ∧
              (Callees.unrolled strictBlocks below count).SameWhere
                (Confined levels ahead) (.looped strictBlocks levels fewer) := by
        have nonempty := List.length_pos_iff.mpr inside
        have fewer := here.tokens
        exact ⟨rounds - 1, by omega,
          inductionHypothesis (by omega) (by omega) (by omega)⟩
      refine {
        expression := fun bound start here =>
          outer.expression bound start (here.mono bounded)
        block := fun start here => outer.block start (here.mono bounded)
        moreParameters := fun start here => ?_
        moreArguments := fun start here => ?_
        blockStatements := fun start here => ?_ }
      · by_cases ended : start.stream.ahead = []
        · exact (parameterRound_of_ended _ ended).trans
            (moreParameters_of_ended ended).symm
        · obtain ⟨fewer, rfl, same⟩ := goesOn here ended
          exact (parameterRound_same moving (steady_looped fewer) same
            (here.advance_of_ahead ended)).trans
            (congrFun (moreParameters_eq_round (.looped _ _ fewer) fewer) start).symm
      · by_cases ended : start.stream.ahead = []
        · exact (argumentRound_of_ended _ ended).trans
            (moreArguments_of_ended ended).symm
        · obtain ⟨fewer, rfl, same⟩ := goesOn here ended
          exact (argumentRound_same moving (steady_looped fewer) same
            (here.advance_of_ahead ended)).trans
            (congrFun (moreArguments_eq_round (.looped _ _ fewer) fewer) start).symm
      · by_cases ended : start.stream.ahead = []
        · exact (statementRound_of_ended _ ended).trans
            (statements_of_ended ended).symm
        · obtain ⟨fewer, rfl, same⟩ := goesOn here ended
          have statement :
              (Callees.unrolled strictBlocks below count).statement start =
                (Callees.looped strictBlocks levels fewer).statement start :=
            statement_same (Confined.advance levels tokens) (steady_looped fewer)
              inner.expression inner.block (here.mono bounded)
          exact (statementRound_same moving (steady_looped fewer) same
            (here.advance_of_ahead ended) statement).trans
            (congrFun (statements_eq_round (.looped _ _ fewer) fewer) start).symm

/-- Where enough rounds are left for what is nested, the loops end as well. -/
theorem same_within_of_nests
    (nests :
      ∀ count, least ≤ count →
        (Callees.unrolled strictBlocks below count).Nests strictBlocks levels tokens)
    {count : Nat}
    (enough : least + tokens ≤ count) :
    (Callees.unrolled strictBlocks below count).SameWhere (Confined levels tokens)
      (.within strictBlocks levels) := by
  have inner := nests count (by omega)
  -- The parser runs its loops with one round for each token ahead.
  have same
      {start : Cursor}
      (here : start.Confined levels tokens) :
      (Callees.unrolled strictBlocks below count).SameWhere
        (Confined levels (start.stream.ahead.length + 1))
        (.looped strictBlocks levels start.stream.ahead.length) := by
    have fewer := here.tokens
    exact same_looped nests (by omega) (by omega) (by omega)
  have alone
      {start : Cursor}
      (here : start.Confined levels tokens) :
      start.Confined levels (start.stream.ahead.length + 1) :=
    ⟨here.levels, Nat.lt_succ_self _⟩
  refine ⟨inner.expression, inner.block, fun start here => ?_,
    fun start here => ?_, fun start here => ?_⟩
  · exact ((same here).moreParameters start (alone here)).trans
      rounds_bind_apply.symm
  · exact ((same here).moreArguments start (alone here)).trans
      rounds_bind_apply.symm
  · exact ((same here).blockStatements start (alone here)).trans
      rounds_bind_apply.symm

/-- Every level that is still open needs rounds for the loops on it. -/
theorem nests_unrolled
    {count : Nat}
    (enough : (levels + 1) * (tokens + 2) ≤ count) :
    (Callees.unrolled strictBlocks below count).Nests strictBlocks levels tokens := by
  induction levels generalizing count with
  | zero =>
      obtain ⟨count, rfl⟩ : ∃ fewer, count = fewer + 1 :=
        ⟨count - 1, by omega⟩
      have full
          {start : Cursor}
          (here : start.Confined 0 tokens) :
          ¬ start.depth < nestingLimit := by
        have left := here.levels
        omega
      refine ⟨fun bound start here => ?_, fun bound left start here => ?_,
        fun start here => ?_⟩
      · rw [expressionWithin]
        exact nested_same (descend_bind_same fun within => (full here within).elim)
      · rw [operatorsWithin]
        simp only [Callees.unrolled, Callees.round]
        exact operatorOr_same fun _ _ within => (full here within).elim
      · rw [blockWithin]
        exact nested_same (descend_bind_same fun within => (full here within).elim)
  | succ levels inductionHypothesis =>
      rw [Nat.add_mul (levels + 1) 1, Nat.one_mul] at enough
      obtain ⟨count, rfl⟩ : ∃ fewer, count = fewer + 1 :=
        ⟨count - 1, by omega⟩
      have nests :
          (Callees.unrolled strictBlocks below count).Nests strictBlocks levels
            tokens :=
        inductionHypothesis (by omega)
      have same :
          (Callees.unrolled strictBlocks below count).SameWhere (Confined levels tokens)
            (.within strictBlocks levels) :=
        same_within_of_nests (fun _ => inductionHypothesis) (by omega)
      have steady := steady_within strictBlocks levels
      have moving := Confined.advance levels tokens
      refine ⟨fun bound start here => ?_, fun bound left start here => ?_,
        fun start here => ?_⟩
      · rw [Callees.expressionWithin_succ]
        refine nested_same (descend_bind_same fun _ => ?_)
        refine bind_same (Composed.operand.same moving steady same here.opens)
          fun left => nests.operators bound left _ ?_
        exact (Composed.operand.steady steady).holds_after moving here.opens
      · rw [Callees.operatorsWithin_succ]
        simp only [Callees.unrolled, Callees.round]
        refine operatorOr_same fun form precedence _ => ?_
        rw [advance_bind_apply, advance_bind_apply]
        have composed := Composed.operatorOf left precedence form
        have opened := moving _ here.opens
        refine bind_same (composed.same moving steady same opened)
          fun applied => nests.operators bound applied _ ?_
        exact (composed.steady steady).holds_after moving opened
      · rw [Callees.blockWithin_succ]
        refine nested_same (descend_bind_same fun _ => ?_)
        exact (Composed.blockBody strictBlocks).same moving steady same here.opens

/-- The loop over the statements of a program ends in the same way. -/
theorem programStatements_unrolled
    {count rounds ahead : Nat}
    (enough : (nestingLimit + 1) * (tokens + 2) + ahead ≤ count)
    (bounded : ahead ≤ tokens)
    (covered : ahead ≤ rounds + 1)
    {start : Cursor}
    (fewer : start.stream.ahead.length < ahead) :
    (Callees.unrolled strictBlocks below count).programStatements start =
      programStatements strictBlocks rounds start := by
  induction ahead generalizing count rounds start with
  | zero =>
      exact (Nat.not_lt_zero _ fewer).elim
  | succ ahead inductionHypothesis =>
      obtain ⟨count, rfl⟩ : ∃ fewer, count = fewer + 1 :=
        ⟨count - 1, by omega⟩
      by_cases ended : start.stream.ahead = []
      · exact (programRound_of_ended _ ended).trans
          (programStatements_of_ended ended).symm
      · have nonempty := List.length_pos_iff.mpr ended
        obtain ⟨rounds, rfl⟩ : ∃ fewer, rounds = fewer + 1 :=
          ⟨rounds - 1, by omega⟩
        have nests :
            (Callees.unrolled strictBlocks below count).Nests strictBlocks
              nestingLimit tokens :=
          nests_unrolled (by omega)
        have statement :
            (Callees.unrolled strictBlocks below count).statement (start.atDepth 0) =
              withRoutines strictBlocks statement (start.atDepth 0) :=
          statement_same (Confined.advance nestingLimit tokens)
            (steady_within strictBlocks nestingLimit) nests.expression nests.block
            ⟨Nat.le_add_right _ _, Nat.lt_of_lt_of_le fewer bounded⟩
        rw [programStatements_eq_round]
        show Callees.programRound _ start = _
        simp only [Callees.programRound, current_bind_apply]
        split
        · rfl
        · refine bind_same rfl fun _ => ?_
          rw [setDepth_bind_apply, setDepth_bind_apply]
          have here : (start.atDepth 0).Confined nestingLimit (ahead + 1) :=
            ⟨Nat.le_add_right _ _, fewer⟩
          refine statement_bind_same (Confined.advance nestingLimit ahead)
            (steady_statement strictBlocks) (here.advance_of_ahead ended) statement ?_
          intro cursor confined
          exact inductionHypothesis (by omega) (by omega) (by omega) confined.tokens

end Levels

section Rounds

variable
  {strictBlocks : Bool}
  {below : Callees}
  {start : Cursor}
  {count : Nat}

/-- A routine, started anywhere, ends within so many rounds. -/
theorem Composed.unrolled_eq
    {α : Type}
    {routine : Callees → Parse α}
    (composed : Composed routine)
    (enough : start.rounds ≤ count) :
    routine (.unrolled strictBlocks below count) start =
      routine (.within strictBlocks (nestingLimit - start.depth)) start := by
  have fits :
      (nestingLimit - start.depth + 1 + 1) * (start.stream.ahead.length + 1 + 2) ≤
        count :=
    Nat.le_trans (Nat.mul_le_mul_right _ (by omega)) enough
  rw [Nat.add_mul _ 1, Nat.one_mul] at fits
  have same :
      (Callees.unrolled strictBlocks below count).SameWhere
        (Confined (nestingLimit - start.depth) (start.stream.ahead.length + 1))
        (.within strictBlocks (nestingLimit - start.depth)) :=
    same_within_of_nests (fun _ => nests_unrolled) (by omega)
  refine composed.same (Confined.advance _ _) (steady_within _ _) same ⟨?_, ?_⟩
  · omega
  · exact Nat.lt_succ_self _

/-- Reading a program ends within so many rounds. -/
theorem program_unrolled_eq
    (enough : start.rounds ≤ count) :
    (Callees.unrolled strictBlocks below count).program start =
      program strictBlocks start := by
  have same :
      (Callees.unrolled strictBlocks below count).programStatements start =
        programStatements strictBlocks start.stream.ahead.length start := by
    have fits :
        (nestingLimit + 1 + 1) * (start.stream.ahead.length + 1 + 2) ≤ count :=
      enough
    rw [Nat.add_mul _ 1, Nat.one_mul] at fits
    exact programStatements_unrolled (Nat.le_trans (by omega) fits)
      (Nat.le_refl _) (Nat.le_refl _) (Nat.lt_succ_self _)
  simp only [Callees.program, program, finishing, same, rounds_bind_apply]

end Rounds

end Parse

end Scriptlet
