import Scriptlet.Proofs.Parse.Throughout

namespace Scriptlet

/-!
# Levels are paid for with tokens

Every level of nesting is entered at a token of its own: an operand and a block at
the token being looked at, an operator at the one after it.  Whatever is nested in
it starts behind that token.  So the levels opened on the way from some cursor are
metered by the tokens passed since: a routine is called with no level unpaid, inside
an operand or a block one level is, and between an operator being entered and being
passed two are.
-/

/-- How far behind the tokens passed the token stands that a level is entered at. -/
def Level.reach : Level → Nat
  | .operator => 2
  | _ => 1

namespace Cursor

/-- The cursor is on the way from the origin, whatever levels are open. -/
def LeadsTo (origin cursor : Cursor) : Prop :=
  ∃ moves, cursor = (origin.advanceBy moves).atDepth cursor.depth

/--
On the way from the origin, the levels opened since then are paid for with the
tokens passed since then, but for some credit.
-/
structure Meters (origin : Cursor) (credit : Nat) (cursor : Cursor) : Prop where
  leads : origin.LeadsTo cursor
  ceiling : cursor.depth ≤ max origin.depth nestingLimit
  levels : origin.passed + cursor.depth ≤ origin.depth + cursor.passed + credit

/--
What is the case at every moment on the way from the origin.  The levels opened
since then are no more than the tokens up to the one being looked at; or they are no
more than those up to the one after it, which is an operator.
-/
structure Accounts (origin cursor : Cursor) : Prop where
  leads : origin.LeadsTo cursor
  ceiling : cursor.depth ≤ max origin.depth nestingLimit + 1
  levels :
    origin.passed + cursor.depth ≤ origin.depth + cursor.passed + 1 ∨
      cursor.stream.peek.kind.operatorForm?.isSome = true ∧
        origin.passed + cursor.depth ≤ origin.depth + cursor.passed + 2

section Moving

variable {origin cursor : Cursor} {credit : Nat}

theorem LeadsTo.refl (origin : Cursor) : origin.LeadsTo origin :=
  ⟨0, rfl⟩

theorem LeadsTo.atDepth
    (leads : origin.LeadsTo cursor)
    (depth : Nat) :
    origin.LeadsTo (cursor.atDepth depth) := by
  obtain ⟨moves, place⟩ := leads
  exact ⟨moves, by rw [place]; rfl⟩

theorem LeadsTo.advance
    (leads : origin.LeadsTo cursor) :
    origin.LeadsTo cursor.advance := by
  obtain ⟨moves, place⟩ := leads
  refine ⟨moves + 1, ?_⟩
  rw [advanceBy_add, depth_advance]
  conv => lhs; rw [place]
  exact advance_atDepth _ _

theorem Meters.start (origin : Cursor) : origin.Meters 0 origin :=
  ⟨.refl origin, Nat.le_max_left _ _, by omega⟩

theorem Meters.advance
    (meters : origin.Meters credit cursor) :
    origin.Meters credit cursor.advance := by
  refine ⟨meters.leads.advance, by simpa using meters.ceiling, ?_⟩
  have levels := meters.levels
  have passed := cursor.passed_le_advance
  rw [depth_advance]
  omega

/-- Passing a token pays for a level. -/
theorem Meters.pays
    (meters : origin.Meters (credit + 1) cursor)
    (inside : cursor.stream.ahead ≠ []) :
    origin.Meters credit cursor.advance := by
  refine ⟨meters.leads.advance, by simpa using meters.ceiling, ?_⟩
  have levels := meters.levels
  rw [depth_advance, StandsIn.passed_advance inside]
  omega

/-- A level that is entered within the limit is still to be paid for. -/
theorem Meters.opens
    (meters : origin.Meters credit cursor)
    (within : cursor.depth < nestingLimit) :
    origin.Meters (credit + 1) (cursor.atDepth (cursor.depth + 1)) := by
  refine ⟨meters.leads.atDepth _, ?_, ?_⟩
  · exact Nat.le_trans within (Nat.le_max_right _ _)
  · have levels := meters.levels
    rw [depth_atDepth, passed_atDepth]
    omega

theorem Meters.accounts
    (meters : origin.Meters credit cursor)
    (le : credit ≤ 1) :
    origin.Accounts cursor := by
  refine ⟨meters.leads, Nat.le_succ_of_le meters.ceiling, .inl ?_⟩
  have levels := meters.levels
  omega

/-- While an operator is being entered, two levels may be unpaid. -/
theorem Meters.accounts_operator
    (meters : origin.Meters 2 cursor)
    (operator : cursor.stream.peek.kind.operatorForm?.isSome = true) :
    origin.Accounts cursor :=
  ⟨meters.leads, Nat.le_succ_of_le meters.ceiling, .inr ⟨operator, meters.levels⟩⟩

/-- An operator ahead is behind the token being looked at. -/
theorem ahead_ne_nil_of_operator
    (operator : cursor.stream.peek.kind.operatorForm?.isSome = true) :
    cursor.stream.ahead ≠ [] ∧ cursor.advance.stream.ahead ≠ [] := by
  have behind : cursor.advance.stream.ahead ≠ [] := by
    intro ended
    rw [peek_eq_current_advance,
      (TokenStream.current_kind_eq_endOfInput_iff _).mpr ended] at operator
    cases operator
  refine ⟨?_, behind⟩
  intro ended
  rw [advance_of_ended ended] at behind
  exact behind ended

end Moving

end Cursor

/-- Accounts of the levels that are open, on the way from an origin. -/
def Watch.accounts (origin : Cursor) : Watch where
  holds := origin.Accounts
  tells cursor event :=
    match event with
    | .entered level depth passed =>
        depth = cursor.depth ∧
          passed = cursor.passed ∧
          origin.passed + depth ≤ origin.depth + passed + level.reach ∧
          (level = .operator →
            cursor.stream.peek.kind.operatorForm?.isSome = true)
    | .recorded diagnostic =>
        (∃ limit, diagnostic.fault = .nestingTooDeep limit) →
          nestingLimit < cursor.depth
    | _ =>
        True

namespace Parse

open Cursor

section Steps

variable {origin start : Cursor} {credit : Nat}

theorem accounts_lets
    (le : credit ≤ 1) :
    (Watch.accounts origin).Lets (origin.Meters credit) where
  holds := fun _ meters => meters.accounts le
  advance := fun _ meters => meters.advance
  tells := by
    intro cursor event _ plain
    cases event with
    | entered level depth passed =>
        exact plain.elim
    | recorded diagnostic =>
        rintro ⟨limit, isDeep⟩
        exact (plain limit isDeep).elim
    | _ =>
        trivial

/-- Where a level is unpaid, a step that calls nothing may be taken. -/
theorem throughout_alone
    {α : Type}
    {step : Parse α}
    (opened : origin.Meters 1 start)
    (composed : Composed fun _ => step) :
    Throughout (.accounts origin) step start :=
  composed.throughout_idle (accounts_lets (Nat.le_refl 1)) opened

/-- A level is entered with less credit than its token allows. -/
theorem throughout_descend_bind
    {α : Type}
    {level : Level}
    {next : Unit → Parse α}
    (meters : origin.Meters credit start)
    (lt : credit < level.reach)
    (operator :
      level = .operator → start.stream.peek.kind.operatorForm?.isSome = true)
    (inner :
      origin.Meters (credit + 1) (start.atDepth (start.depth + 1)) →
        Throughout (.accounts origin) (next ())
          (start.atDepth (start.depth + 1))) :
    Throughout (.accounts origin) (descend level >>= next) start := by
  have levels := meters.levels
  have ceiling := meters.ceiling
  have before : origin.Accounts start :=
    meters.accounts (by cases level <;> simp only [Level.reach] at lt <;> omega)
  have after : origin.Accounts (start.atDepth (start.depth + 1)) := by
    refine ⟨meters.leads.atDepth _, Nat.succ_le_succ ceiling, ?_⟩
    simp only [depth_atDepth, passed_atDepth, stream_atDepth]
    cases level with
    | operator =>
        exact .inr ⟨operator rfl, by simp only [Level.reach] at lt; omega⟩
    | _ =>
        exact .inl (by simp only [Level.reach] at lt; omega)
  have entered : (Watch.accounts origin).tells (start.atDepth (start.depth + 1))
      (.entered level (start.depth + 1) start.passed) :=
    ⟨rfl, rfl, by omega, operator⟩
  have descends : Throughout (.accounts origin) (descend level) start := by
    refine .bind (.cursor before) ?_
    rintro _ ⟨⟩
    refine .bind (.setDepth before after) fun _ _ => ?_
    refine .bind (.emit after entered) fun _ _ => ?_
    split
    · rename_i past
      exact .bind (.emit after fun _ => past) fun _ _ => .fail after
    · exact .pure after
  refine .bind descends fun value entersLevel => ?_
  by_cases within : start.depth < nestingLimit
  · rw [descend_of_lt within]
    exact inner (meters.opens within)
  · rw [descend_of_le (Nat.le_of_not_lt within)] at entersLevel
    cases entersLevel

theorem throughout_advance_bind
    {α : Type}
    {next : Token → Parse α}
    (opened : origin.Meters 1 start)
    (inner : ∀ token, Throughout (.accounts origin) (next token) start.advance) :
    Throughout (.accounts origin) (advance >>= next) start :=
  .bind (throughout_alone opened .advance) fun token _ => inner token

/-- A step that expects a token goes on behind the one it starts on. -/
theorem throughout_expect_bind
    {α : Type}
    {kind : TokenKind}
    {next : Token → Parse α}
    (opened : origin.Meters 1 start)
    (inner : ∀ token, Throughout (.accounts origin) (next token) start.advance) :
    Throughout (.accounts origin) (expect kind >>= next) start := by
  refine .bind (throughout_alone opened .expect) fun token gives => ?_
  by_cases expected : start.stream.peek.kind = kind
  · have moves : (expect kind start).cursor = start.advance := by
      simp [expect, expected, advance, current, bind, andThen, cursor, pure,
        succeed]
    rw [moves]
    exact inner token
  · simp [expect, expected, reject, record, emit, fail, bind, andThen, cursor]
      at gives

end Steps

section Forms

variable {origin start : Cursor} {callees : Callees}

/-- Where no level is unpaid, any routine may be called. -/
theorem throughout_routine
    {α : Type}
    {routine : Callees → Parse α}
    (steady : callees.Steady)
    (watched : callees.Watched (.accounts origin) (origin.Meters 0))
    (ready : origin.Meters 0 start)
    (composed : Composed routine) :
    Throughout (.accounts origin) (routine callees) start :=
  composed.throughout (accounts_lets (Nat.zero_le 1)) steady watched ready

/-- What an operand calls, it calls behind its first token. -/
theorem throughout_operandOf
    (steady : callees.Steady)
    (watched : callees.Watched (.accounts origin) (origin.Meters 0))
    (form : OperandForm)
    (opened : origin.Meters 1 start)
    (inside : start.stream.ahead ≠ []) :
    Throughout (.accounts origin) (callees.operandOf form) start := by
  have behind := opened.pays inside
  cases form with
  | identifier =>
      exact throughout_alone opened (.bind .current fun _ => .done)
  | integer =>
      exact throughout_alone opened .integer
  | string =>
      exact throughout_alone opened (.bind .current fun _ => .done)
  | boolean =>
      exact throughout_alone opened (.bind .current fun _ => .done)
  | prefixed =>
      refine throughout_advance_bind opened fun _ => ?_
      exact throughout_routine steady watched behind
        (.bind .expression fun _ => .done)
  | grouping =>
      refine throughout_advance_bind opened fun _ => ?_
      exact throughout_routine steady watched behind
        (.bind .expression fun _ => .bind .expect fun _ => .done)
  | conditional =>
      refine .bind (throughout_alone opened .current) fun _ _ => ?_
      refine throughout_expect_bind opened fun _ => ?_
      exact throughout_routine steady watched behind
        (.bind .advance fun _ => .bind .expression fun _ => .bind .expect fun _ =>
          .bind .expect fun _ => .bind .block fun _ => .bind .alternative fun _ =>
            .done)
  | function =>
      refine .bind (throughout_alone opened .current) fun _ _ => ?_
      refine throughout_expect_bind opened fun _ => ?_
      exact throughout_routine steady watched behind
        (.bind .parameters fun _ => .bind .expect fun _ => .bind .block fun _ =>
          .done)

theorem throughout_operand
    (steady : callees.Steady)
    (watched : callees.Watched (.accounts origin) (origin.Meters 0))
    (opened : origin.Meters 1 start) :
    Throughout (.accounts origin) callees.operand start := by
  refine .bind (throughout_alone opened .current) ?_
  rintro _ ⟨⟩
  cases isForm : start.stream.current.kind.operandForm? with
  | none =>
      exact throughout_alone opened (.reject (by simp))
  | some form =>
      refine throughout_operandOf steady watched form opened ?_
      intro ended
      rw [(start.stream.current_kind_eq_endOfInput_iff).mpr ended] at isForm
      cases isForm

/-- What an operator calls, it calls behind its own token. -/
theorem throughout_operatorOf
    (steady : callees.Steady)
    (watched : callees.Watched (.accounts origin) (origin.Meters 0))
    (left : Expression)
    (precedence : Precedence)
    (form : OperatorForm)
    (opened : origin.Meters 1 start)
    (inside : start.stream.ahead ≠ []) :
    Throughout (.accounts origin) (callees.operatorOf left precedence form)
      start := by
  have behind := opened.pays inside
  cases form with
  | binary =>
      refine throughout_advance_bind opened fun _ => ?_
      exact throughout_routine steady watched behind
        (.bind .expression fun _ => .done)
  | call =>
      refine .bind (throughout_alone opened .current) fun _ _ => ?_
      have arguments : Throughout (.accounts origin) callees.arguments start := by
        refine .bind (throughout_alone opened .peekKind) fun _ _ => ?_
        split
        · refine throughout_advance_bind opened fun _ => ?_
          exact throughout_routine steady watched behind .done
        · refine throughout_advance_bind opened fun _ => ?_
          exact throughout_routine steady watched behind
            (.bind .expression fun _ => .bind .moreArguments fun _ =>
              .bind .expect fun _ => .done)
      exact .bind arguments fun _ _ => .pure arguments.ends

/-- An operator is entered at the token behind the expression to its left. -/
theorem throughout_operatorOr
    {bound : Precedence}
    {left : Expression}
    {apply : OperatorForm → Precedence → Parse Expression}
    (opened : origin.Meters 1 start)
    (applied :
      ∀ form precedence,
        start.stream.peek.kind.operatorForm?.isSome = true →
        origin.Meters 2 (start.atDepth (start.depth + 1)) →
          Throughout (.accounts origin) (apply form precedence)
            (start.atDepth (start.depth + 1))) :
    Throughout (.accounts origin) (operatorOr bound left apply) start := by
  have peeks := throughout_alone opened .peekKind
  refine .bind peeks ?_
  rintro _ ⟨⟩
  cases isForm : start.stream.peek.kind.operatorForm? with
  | none =>
      exact .pure peeks.ends
  | some form =>
      have isOperator : start.stream.peek.kind.operatorForm?.isSome = true := by
        rw [isForm]
        rfl
      simp only
      split
      · exact throughout_descend_bind opened (by decide) (fun _ => isOperator)
          (applied form _ isOperator)
      · exact .pure peeks.ends

end Forms

section Within

variable {strictBlocks : Bool} {origin : Cursor}

/--
What a block calls, it calls behind its bracket.  At the end of input there is no
bracket to be passed, but no statement either.
-/
theorem throughout_blockBody
    {levels : Nat}
    {start : Cursor}
    (watched :
      (Callees.within strictBlocks levels).Watched (.accounts origin)
        (origin.Meters 0))
    (opened : origin.Meters 1 start) :
    Throughout (.accounts origin)
      ((Callees.within strictBlocks levels).blockBody strictBlocks) start := by
  refine throughout_advance_bind opened fun token => ?_
  by_cases ended : start.stream.ahead = []
  · rw [advance_of_ended ended]
    have statements :
        Throughout (.accounts origin)
          (Callees.within strictBlocks levels).blockStatements start := by
      refine .bind (throughout_alone opened (.bind .cursor fun _ => .done)) ?_
      rintro _ ⟨⟩
      rw [place_rounds, TokenStream.remaining, ended]
      exact throughout_alone opened .done
    have after :=
      (steady_within strictBlocks levels).blockStatements.holds_after
        (accounts_lets (Nat.le_refl 1)).advance opened
    refine .bind statements fun _ _ => throughout_alone after ?_
    exact .bind .current fun _ => .ite (.reject (by simp)) .done
  · exact throughout_routine (steady_within strictBlocks levels) watched
      (opened.pays ended) (.blockRest strictBlocks token)

/-- Everything that nests keeps accounts of its levels. -/
theorem accounts_within
    (origin : Cursor)
    (levels : Nat) :
    (Callees.within strictBlocks levels).Watched (.accounts origin)
        (origin.Meters 0) ∧
      ∀ bound left start,
        origin.Meters 1 start →
          Throughout (.accounts origin)
            (operatorsWithin strictBlocks levels bound left) start := by
  -- Where a nested step ends, the levels are those that it started with.
  have closes
      {α : Type}
      {step : Parse α}
      {start : Cursor}
      (inner : Throughout (.accounts origin) step start)
      (goesOn : GoesOn step)
      (ready : origin.Meters 0 start) :
      Throughout (.accounts origin) (nested step) start := by
    refine .nested inner ?_
    have after := goesOn.nested.holds_after (accounts_lets (Nat.zero_le 1)).advance ready
    exact after.accounts (Nat.zero_le 1)
  induction levels with
  | zero =>
      have fails {α : Type} : GoesOn (fail : Parse α) :=
        (steady_of_stays fun _ => rfl).goesOn
      refine ⟨watched_within_of (accounts_lets (Nat.zero_le 1)) ?_ ?_, ?_⟩
      · intro bound start ready
        rw [expressionWithin]
        refine closes ?_ (goesOn_descend.bind fun _ => fails) ready
        exact throughout_descend_bind ready (by decide) (by simp) fun opened =>
          .fail (opened.accounts (Nat.le_refl 1))
      · intro start ready
        rw [blockWithin]
        refine closes ?_ (goesOn_descend.bind fun _ => fails) ready
        exact throughout_descend_bind ready (by decide) (by simp) fun opened =>
          .fail (opened.accounts (Nat.le_refl 1))
      · intro bound left start opened
        rw [operatorsWithin]
        exact throughout_operatorOr opened fun _ _ isOperator entered =>
          .fail (entered.accounts_operator isOperator)
  | succ levels inductionHypothesis =>
      obtain ⟨watched, operators⟩ := inductionHypothesis
      have steady := steady_within strictBlocks levels
      have goesOn := goesOn_operatorsWithin strictBlocks levels
      refine ⟨watched_within_of (accounts_lets (Nat.zero_le 1)) ?_ ?_, ?_⟩
      · intro bound start ready
        rw [Callees.expressionWithin_succ]
        have operandSteady := Composed.operand.steady steady
        refine closes ?_
          (goesOn_descend.bind fun _ => operandSteady.goesOn.bind (goesOn bound))
          ready
        refine throughout_descend_bind ready (by decide) (by simp) fun opened => ?_
        refine .bind (throughout_operand steady watched opened) fun left _ => ?_
        exact operators bound left _
          (operandSteady.holds_after (accounts_lets (Nat.le_refl 1)).advance opened)
      · intro start ready
        rw [Callees.blockWithin_succ]
        have bodySteady := (Composed.blockBody strictBlocks).steady steady
        refine closes ?_ (goesOn_descend.bind fun _ => bodySteady.goesOn) ready
        exact throughout_descend_bind ready (by decide) (by simp)
          (throughout_blockBody watched)
      · intro bound left start opened
        rw [Callees.operatorsWithin_succ]
        simp only [Callees.round]
        refine throughout_operatorOr opened
          fun form precedence isOperator entered => ?_
        obtain ⟨inside, behind⟩ := ahead_ne_nil_of_operator isOperator
        have reached := entered.pays inside
        refine .bind (.advance (entered.accounts_operator isOperator)
          (reached.accounts (Nat.le_refl 1))) fun _ _ => ?_
        have applies :
            Throughout (.accounts origin)
              ((Callees.within strictBlocks levels).operatorOf left precedence
                form)
              (start.atDepth (start.depth + 1)).advance := by
          refine throughout_operatorOf steady watched left precedence form reached ?_
          rw [advance_atDepth]
          exact behind
        refine .bind applies fun applied _ => operators bound applied _ ?_
        exact ((Composed.operatorOf left precedence form).steady steady).holds_after
          (accounts_lets (Nat.le_refl 1)).advance reached

end Within

end Parse

end Scriptlet
