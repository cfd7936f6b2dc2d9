import Scriptlet.Proofs.Parse.Comparison

namespace Scriptlet

/-!
# Every routine keeps two runs side by side

The routines of the grammar agree between two runs when the routines for what is
nested in them do.  By induction over the levels of nesting, all of them agree.

An expression can be asked for where a semicolon stands, and then fails on it.
Everything else starts and stops within a statement.  Only the loop over the
statements of a block passes semicolons, and so only there the first run can
come to the end of its stream while the second one goes on.  The block is then
left open, which the first run records.
-/

namespace Parse

/-- The routines for what is nested agree between the runs. -/
structure Companions
    (comparison : Comparison)
    (routines others : Routines Cursor) :
    Prop where
  expression :
    ∀ {most : Nat} {left right : Cursor} (bound : Precedence),
      comparison.Beside most left right →
        Agree comparison most (comparison.Inside most)
          (routines.expression bound left) (others.expression bound right)
  block :
    ∀ {most : Nat} {left right : Cursor},
      comparison.Inside most left right →
        Agree comparison most (comparison.Inside most)
          (routines.block left) (others.block right)

section Ends

variable {cursor : Cursor} {count : Nat} {routines : Routines Cursor}

theorem peek_of_ended
    (ended : cursor.stream.ahead = []) :
    cursor.stream.peek.kind = .endOfInput := by
  rw [cursor.peek_eq_current_advance,
    TokenStream.current_kind_eq_endOfInput_iff, Cursor.ahead_advance, ended,
    List.tail_nil]

theorem moreParameters_of_ended
    (ended : cursor.stream.ahead = []) :
    moreParameters count cursor = ⟨some [], cursor, []⟩ := by
  cases count with
  | zero =>
      rfl
  | succ count =>
      simp [moreParameters, peek_of_ended ended]

theorem moreArguments_of_ended
    (ended : cursor.stream.ahead = []) :
    moreArguments routines count cursor = ⟨some [], cursor, []⟩ := by
  cases count with
  | zero =>
      rfl
  | succ count =>
      simp [moreArguments, peek_of_ended ended]

theorem statements_of_ended
    (ended : cursor.stream.ahead = []) :
    statements routines count cursor = ⟨some [], cursor, []⟩ := by
  cases count with
  | zero =>
      rfl
  | succ count =>
      have final := cursor.stream.current_kind_eq_endOfInput_iff.mpr ended
      simp [statements, final]

end Ends

section Routines

variable
  {comparison : Comparison}
  {routines others : Routines Cursor}
  {most : Nat}
  {left right : Cursor}

/--
The rounds of the two runs keep step.  The second run may count further rounds,
but none of them is ever reached.
-/
theorem agree_moreParameters
    {count : Nat}
    (further : Nat)
    (inside : comparison.Inside count left right) :
    Agree comparison count (comparison.Inside count)
      (moreParameters count left) (moreParameters (count + further) right) := by
  induction count generalizing left right with
  | zero =>
      have ended := List.length_eq_zero_iff.mp (Nat.le_zero.mp inside.length_le)
      rw [moreParameters_of_ended ended,
        moreParameters_of_ended (inside.ends_alike ended)]
      exact agree_pure inside
  | succ count inductionHypothesis =>
      rw [Nat.succ_add]
      simp only [moreParameters, peekKind_bind_apply, ite_apply, inside.peek,
        advance_bind_apply, andSoOn_eq]
      split
      · rename_i comma
        have moved := inside.advance_succ_of_peek (comma ▸ nofun)
        refine Agree.mono_most ?_ (Nat.le_succ count)
        refine agree_bind (agree_expect moved nofun) ?_
        intro token _ _ onName
        exact agree_map (inductionHypothesis onName)
      · exact agree_pure inside

theorem agree_parameters
    (inside : comparison.Inside most left right) :
    Agree comparison most (comparison.Inside most)
      (parameters left) (parameters right) := by
  unfold parameters
  simp only [peekKind_bind_apply, ite_apply, inside.peek, advance_bind_apply]
  split
  · rename_i closes
    exact agree_pure (inside.advance_of_peek (closes ▸ nofun))
  · refine agree_bind (agree_expect inside nofun) ?_
    intro token leftAfter rightAfter onName
    simp only [rounds_bind_apply]
    obtain ⟨further, length⟩ := onName.exists_length_eq
    have rest :=
      (agree_moreParameters further
        ⟨onName.toBeside.tight, onName.kind_ne⟩).mono_most onName.length_le
    rw [length]
    refine agree_bind rest ?_
    intro names _ _ onLast
    refine agree_bind (agree_expect onLast nofun) ?_
    intro _ _ _ onClosing
    exact agree_pure onClosing

theorem agree_integer
    (inside : comparison.Inside most left right) :
    Agree comparison most (comparison.Inside most)
      (integer left) (integer right) := by
  unfold integer
  simp only [current_bind_apply, inside.current]
  cases Text.readInteger? left.stream.current.value with
  | none =>
      exact agree_reject inside.toBeside
  | some value =>
      exact agree_pure inside

variable (companions : Companions comparison routines others)

include companions

theorem agree_prefixed
    (inside : comparison.Inside most left right) :
    Agree comparison most (comparison.Inside most)
      (prefixed routines left) (prefixed others right) := by
  unfold prefixed
  simp only [advance_bind_apply, inside.current]
  refine agree_bind (companions.expression _ inside.advance) ?_
  intro operand _ _ onOperand
  exact agree_pure onOperand

theorem agree_grouping
    (inside : comparison.Inside most left right) :
    Agree comparison most (comparison.Inside most)
      (grouping routines left) (grouping others right) := by
  unfold grouping
  simp only [advance_bind_apply]
  refine agree_bind (companions.expression _ inside.advance) ?_
  intro inner _ _ onInner
  refine agree_bind (agree_expect onInner nofun) ?_
  intro _ _ _ onClosing
  exact agree_pure onClosing

theorem agree_alternative
    (inside : comparison.Inside most left right) :
    Agree comparison most (comparison.Inside most)
      (alternative routines left) (alternative others right) := by
  unfold alternative
  simp only [peekKind_bind_apply, ite_apply, inside.peek, advance_bind_apply]
  split
  · rename_i elseWord
    have onElse := inside.advance_of_peek (elseWord ▸ nofun)
    refine agree_bind (agree_expect onElse nofun) ?_
    intro _ _ _ onOpening
    refine agree_bind (companions.block onOpening) ?_
    intro block _ _ onClosing
    exact agree_pure onClosing
  · exact agree_pure inside

theorem agree_conditional
    (inside : comparison.Inside most left right) :
    Agree comparison most (comparison.Inside most)
      (conditional routines left) (conditional others right) := by
  unfold conditional
  simp only [current_bind_apply, inside.current]
  refine agree_bind (agree_expect inside nofun) ?_
  intro _ _ _ onOpening
  simp only [advance_bind_apply]
  refine agree_bind (companions.expression _ onOpening.advance) ?_
  intro condition _ _ onCondition
  refine agree_bind (agree_expect onCondition nofun) ?_
  intro _ _ _ onParen
  refine agree_bind (agree_expect onParen nofun) ?_
  intro _ _ _ onCurly
  refine agree_bind (companions.block onCurly) ?_
  intro consequence _ _ onClosing
  refine agree_bind (agree_alternative companions onClosing) ?_
  intro alternative? _ _ onLast
  exact agree_pure onLast

theorem agree_function
    (inside : comparison.Inside most left right) :
    Agree comparison most (comparison.Inside most)
      (function routines left) (function others right) := by
  unfold function
  simp only [current_bind_apply, inside.current]
  refine agree_bind (agree_expect inside nofun) ?_
  intro _ _ _ onOpening
  refine agree_bind (agree_parameters onOpening) ?_
  intro names _ _ onParen
  refine agree_bind (agree_expect onParen nofun) ?_
  intro _ _ _ onCurly
  refine agree_bind (companions.block onCurly) ?_
  intro body _ _ onClosing
  exact agree_pure onClosing

theorem agree_operandOf
    {form : OperandForm}
    (inside : comparison.Inside most left right) :
    Agree comparison most (comparison.Inside most)
      (operandOf routines form left) (operandOf others form right) := by
  have leaf (tree : Token → Expression) :
      Agree comparison most (comparison.Inside most)
        ((current >>= fun token => pure (tree token)) left)
        ((current >>= fun token => pure (tree token)) right) := by
    simp only [current_bind_apply, inside.current]
    exact agree_pure inside
  cases form with
  | identifier =>
      exact leaf _
  | integer =>
      exact agree_integer inside
  | string =>
      exact leaf _
  | boolean =>
      exact leaf _
  | prefixed =>
      exact agree_prefixed companions inside
  | grouping =>
      exact agree_grouping companions inside
  | conditional =>
      exact agree_conditional companions inside
  | function =>
      exact agree_function companions inside

/-- No expression starts with a semicolon, so it is rejected where it stands. -/
theorem agree_operand
    (beside : comparison.Beside most left right) :
    Agree comparison most (comparison.Inside most)
      (operand routines left) (operand others right) := by
  unfold operand
  simp only [current_bind_apply, beside.current]
  cases introduces : left.stream.current.kind.operandForm? with
  | none =>
      exact agree_reject beside
  | some form =>
      have isNot : left.stream.current.kind ≠ .semicolon := by
        intro semicolon
        rw [semicolon] at introduces
        cases introduces
      exact agree_operandOf companions ⟨beside, isNot⟩

theorem agree_binary
    {tree : Expression}
    {precedence : Precedence}
    (inside : comparison.Inside most left right) :
    Agree comparison most (comparison.Inside most)
      (binary routines tree precedence left)
      (binary others tree precedence right) := by
  unfold binary
  simp only [advance_bind_apply, inside.current]
  refine agree_bind (companions.expression _ inside.advance) ?_
  intro operand _ _ onOperand
  exact agree_pure onOperand

theorem agree_moreArguments
    {count : Nat}
    (further : Nat)
    (inside : comparison.Inside count left right) :
    Agree comparison count (comparison.Inside count)
      (moreArguments routines count left)
      (moreArguments others (count + further) right) := by
  induction count generalizing left right with
  | zero =>
      have ended := List.length_eq_zero_iff.mp (Nat.le_zero.mp inside.length_le)
      rw [moreArguments_of_ended ended,
        moreArguments_of_ended (inside.ends_alike ended)]
      exact agree_pure inside
  | succ count inductionHypothesis =>
      rw [Nat.succ_add]
      simp only [moreArguments, peekKind_bind_apply, ite_apply, inside.peek,
        advance_bind_apply, andSoOn_eq]
      split
      · rename_i comma
        have moved := inside.advance_succ_of_peek (comma ▸ nofun)
        refine Agree.mono_most ?_ (Nat.le_succ count)
        refine agree_bind (companions.expression _ moved.advance) ?_
        intro argument _ _ onArgument
        exact agree_map (inductionHypothesis onArgument)
      · exact agree_pure inside

theorem agree_arguments
    (inside : comparison.Inside most left right) :
    Agree comparison most (comparison.Inside most)
      (arguments routines left) (arguments others right) := by
  unfold arguments
  simp only [peekKind_bind_apply, ite_apply, inside.peek, advance_bind_apply]
  split
  · rename_i closes
    exact agree_pure (inside.advance_of_peek (closes ▸ nofun))
  · refine agree_bind (companions.expression _ inside.advance) ?_
    intro argument leftAfter rightAfter onArgument
    simp only [rounds_bind_apply]
    obtain ⟨further, length⟩ := onArgument.exists_length_eq
    have rest :=
      (agree_moreArguments companions further
        ⟨onArgument.toBeside.tight, onArgument.kind_ne⟩).mono_most
        onArgument.length_le
    rw [length]
    refine agree_bind rest ?_
    intro values _ _ onLast
    refine agree_bind (agree_expect onLast nofun) ?_
    intro _ _ _ onClosing
    exact agree_pure onClosing

theorem agree_operatorOf
    {tree : Expression}
    {precedence : Precedence}
    {form : OperatorForm}
    (inside : comparison.Inside most left right) :
    Agree comparison most (comparison.Inside most)
      (operatorOf routines tree precedence form left)
      (operatorOf others tree precedence form right) := by
  cases form with
  | binary =>
      exact agree_binary companions inside
  | call =>
      unfold operatorOf call
      simp only [current_bind_apply, inside.current]
      refine agree_bind (agree_arguments companions inside) ?_
      intro values _ _ onClosing
      exact agree_pure onClosing

/-- A statement can stop on a semicolon, its own or one it failed on. -/
theorem agree_statementOf
    {form? : Option StatementForm}
    (beside : comparison.Beside most left right)
    (introduces : form? = left.stream.current.kind.statementForm?) :
    Agree comparison most (comparison.Beside most)
      (statementOf routines form? left) (statementOf others form? right) := by
  -- What every form of statement ends with.
  have ends
      {leftAfter rightAfter : Cursor}
      (make : Expression → Statement)
      (bound : Precedence)
      (before : comparison.Beside most leftAfter rightAfter) :
      Agree comparison most (comparison.Beside most)
        ((routines.expression bound >>= fun value =>
          skipSemicolon >>= fun _ => pure (make value)) leftAfter)
        ((others.expression bound >>= fun value =>
          skipSemicolon >>= fun _ => pure (make value)) rightAfter) := by
    refine agree_bind (companions.expression _ before) ?_
    intro value _ _ onValue
    refine agree_bind (agree_skipSemicolon onValue) ?_
    intro _ _ _ onLast
    exact agree_pure onLast
  have inside
      {form : StatementForm}
      (isForm : left.stream.current.kind.statementForm? = some form) :
      comparison.Inside most left right := by
    refine ⟨beside, ?_⟩
    intro semicolon
    rw [semicolon] at isForm
    cases isForm
  rcases form? with _ | _ | _
  · unfold statementOf expressionStatement
    simp only [current_bind_apply, beside.current]
    exact ends _ _ beside
  · unfold statementOf binding
    simp only [current_bind_apply, beside.current]
    refine agree_bind (agree_expect (inside introduces.symm) nofun) ?_
    intro name _ _ onName
    refine agree_bind (agree_expect onName nofun) ?_
    intro _ _ _ onAssignment
    simp only [advance_bind_apply]
    exact ends _ _ onAssignment.advance
  · unfold statementOf returning
    simp only [advance_bind_apply, beside.current]
    exact ends _ _ (inside introduces.symm).advance

theorem agree_statement
    (beside : comparison.Beside most left right) :
    Agree comparison most (comparison.Beside most)
      (statement routines left) (statement others right) := by
  have stated := agree_statementOf companions beside rfl
  apply agree_closing
  simp only [currentKind_bind_apply, ite_apply, beside.current]
  split
  · exact agree_emit_bind stated
  · exact stated

/--
The first run has come to the end of its stream, where the second one goes on.
-/
def RunsOut (comparison : Comparison) (outcome : Outcome Cursor α) : Prop :=
  comparison.rest?.isSome ∧
    ∃ value after events,
      outcome = ⟨some value, after, events⟩ ∧ after.stream.ahead = []

omit companions in
theorem RunsOut.map
    {change : α → β}
    {step : Parse α}
    (ranOut : RunsOut comparison (step left)) :
    RunsOut comparison ((change <$> step) left) := by
  obtain ⟨goesOn, value, after, events, ends, ended⟩ := ranOut
  refine ⟨goesOn, change value, after, events, ?_, ended⟩
  simp [Functor.map, mapResult, ends]

omit companions in
/-- A sequence whose first part agrees runs out when its second part does. -/
theorem runsOut_or_agree_bind
    {step other : Parse α}
    {next otherNext : α → Parse β}
    {middle goal : Cursor → Cursor → Prop}
    (first : Agree comparison most middle (step left) (other right))
    (second :
      ∀ value leftAfter rightAfter,
        middle leftAfter rightAfter →
          RunsOut comparison (next value leftAfter) ∨
            Agree comparison most goal
              (next value leftAfter) (otherNext value rightAfter)) :
    RunsOut comparison ((step >>= next) left) ∨
      Agree comparison most goal
        ((step >>= next) left) ((other >>= otherNext) right) := by
  generalize ran : step left = outcome at first
  generalize otherRan : other right = otherOutcome at first
  cases first with
  | excused differs opened =>
      rw [← ran] at opened
      exact .inr (.excused differs opened.bind)
  | failed same beside =>
      rw [bind_apply_of_none ran, bind_apply_of_none otherRan]
      exact .inr (.failed same beside)
  | gave same holds =>
      refine (second _ _ _ holds).imp ?_
        (agree_bind_of_some ran otherRan same)
      rintro ⟨goesOn, result, after, events, ends, ended⟩
      rw [bind_apply_of_some ran, ends]
      exact ⟨goesOn, result, after, _, rfl, ended⟩

theorem agree_statements
    {count : Nat}
    (further : Nat)
    (beside : comparison.Beside count left right) :
    RunsOut comparison (statements routines count left) ∨
      Agree comparison count (comparison.Inside count)
        (statements routines count left)
        (statements others (count + further) right) := by
  induction count generalizing left right with
  | zero =>
      have ended := List.length_eq_zero_iff.mp (Nat.le_zero.mp beside.length_le)
      rw [statements_of_ended ended,
        statements_of_ended (beside.ends_alike ended)]
      have final := left.stream.current_kind_eq_endOfInput_iff.mpr ended
      exact .inr (agree_pure ⟨beside, final ▸ nofun⟩)
  | succ count inductionHypothesis =>
      rw [Nat.succ_add]
      simp only [statements, currentKind_bind_apply, ite_apply, beside.current,
        andSoOn_eq]
      split
      · rename_i stops
        refine .inr (agree_pure ⟨beside, ?_⟩)
        rcases stops with closes | ends
        · exact closes ▸ nofun
        · exact ends ▸ nofun
      · refine runsOut_or_agree_bind
          (agree_attempt (agree_statement companions beside)) ?_
        intro statement? leftAfter rightAfter onLast
        simp only [advance_bind_apply]
        rcases onLast.advance_or with onward | ⟨used, rest⟩
        · refine (inductionHypothesis onward).imp ?_ ?_
          · exact fun ranOut => ranOut.map
          · exact fun agrees =>
              agree_map (agrees.mono_most (Nat.le_succ count))
        · refine .inl (RunsOut.map ⟨by simp [rest], ?_⟩)
          exact ⟨_, _, _, statements_of_ended used, used⟩

omit companions in
theorem leavesOpen_reject
    {position : Position} :
    ((reject (.expectedToken .closeCurly .endOfInput) position :
      Parse α) left).LeavesOpen :=
  ⟨⟨.expectedToken .closeCurly .endOfInput, position⟩, by
    simp [reject, record, emit, fail, bind, andThen, Event.diagnostics,
      Event.diagnostic?], rfl⟩

/--
The end of input is where the treatment of blocks makes a difference, and where
the first run may be alone.  In either case the first run is strict.
-/
theorem agree_blockBody
    (inside : comparison.Inside most left right) :
    Agree comparison most (comparison.Inside most)
      (blockBody comparison.strictBlocks routines left)
      (blockBody comparison.otherStrictBlocks others right) := by
  unfold blockBody
  have onFirst := inside.advance
  obtain ⟨further, length⟩ := onFirst.exists_length_eq
  simp only [advance_bind_apply, rounds_bind_apply, inside.current, length]
  rcases agree_statements companions further onFirst.tight with
    ⟨goesOn, trees, after, events, ends, ended⟩ | agrees
  · have differs : comparison.Differs := .inr goesOn
    have final := after.stream.current_kind_eq_endOfInput_iff.mpr ended
    refine .excused differs (Outcome.LeavesOpen.bind_of_some ends ?_)
    simp [differs.strict, final, leavesOpen_reject]
  · refine agree_bind (agrees.mono_most onFirst.length_le) ?_
    intro trees leftAfter rightAfter onLast
    simp only [current_bind_apply, ite_apply, onLast.current]
    by_cases final : leftAfter.stream.current.kind = .endOfInput
    · by_cases same : comparison.strictBlocks = comparison.otherStrictBlocks
      · rw [same]
        split
        · exact agree_reject onLast.toBeside
        · exact agree_pure onLast
      · have differs : comparison.Differs := .inl same
        refine .excused differs ?_
        simp [differs.strict, final, leavesOpen_reject]
    · simp only [final, and_false, ↓reduceIte]
      exact agree_pure onLast

end Routines

section Levels

variable
  {comparison : Comparison}
  {most : Nat}
  {left right : Cursor}

/-- No operator is a semicolon, so applying one stays within the statement. -/
theorem agree_operatorOr
    {bound : Precedence}
    {tree : Expression}
    {apply otherApply : OperatorForm → Precedence → Parse Expression}
    (inside : comparison.Inside most left right)
    (applied :
      ∀ form precedence leftInner rightInner,
        comparison.Inside most leftInner rightInner →
          leftInner.stream.peek.kind ≠ .semicolon →
            Agree comparison most (comparison.Inside most)
              (apply form precedence leftInner)
              (otherApply form precedence rightInner)) :
    Agree comparison most (comparison.Inside most)
      (operatorOr bound tree apply left)
      (operatorOr bound tree otherApply right) := by
  unfold operatorOr
  simp only [peekKind_bind_apply, inside.peek]
  cases isOperator : left.stream.peek.kind.operatorForm? with
  | none =>
      exact agree_pure inside
  | some form =>
      have isNot : left.stream.peek.kind ≠ .semicolon := by
        intro semicolon
        rw [semicolon] at isOperator
        cases isOperator
      simp only [ite_apply]
      split
      · exact agree_descend_bind inside.toBeside
          (applied _ _ _ _ (inside.atDepth _) isNot)
      · exact agree_pure inside

/-- Entering a level and leaving it again keeps what is agreed on inside. -/
theorem agree_nested_descend
    {level : Level}
    {step other : Parse α}
    (beside : comparison.Beside most left right)
    (agrees :
      Agree comparison most (comparison.Inside most)
        (step (left.atDepth (left.depth + 1)))
        (other (right.atDepth (left.depth + 1)))) :
    Agree comparison most (comparison.Inside most)
      (nested (descend level >>= fun _ => step) left)
      (nested (descend level >>= fun _ => other) right) :=
  agree_nested beside.depth (agree_descend_bind beside agrees)

/-- Within any number of levels, all routines agree. -/
theorem agree_within (comparison : Comparison) (levels : Nat) :
    Companions comparison
        (routinesWithin comparison.strictBlocks levels)
        (routinesWithin comparison.otherStrictBlocks levels) ∧
      ∀ {most left right} bound tree,
        comparison.Inside most left right →
          Agree comparison most (comparison.Inside most)
            (operatorsWithin comparison.strictBlocks levels bound tree left)
            (operatorsWithin comparison.otherStrictBlocks levels bound tree
              right) := by
  induction levels with
  | zero =>
      refine ⟨⟨fun bound beside => ?_, fun inside => ?_⟩,
        fun bound tree inside => ?_⟩
      · simp only [routinesWithin, expressionWithin]
        exact agree_nested_descend beside (agree_fail (beside.atDepth _))
      · simp only [routinesWithin, blockWithin]
        exact agree_nested_descend inside.toBeside
          (agree_fail (inside.toBeside.atDepth _))
      · unfold operatorsWithin
        exact agree_operatorOr inside
          fun _ _ _ _ deeper _ => agree_fail deeper.toBeside
  | succ levels inductionHypothesis =>
      obtain ⟨companions, operators⟩ := inductionHypothesis
      refine ⟨⟨fun bound beside => ?_, fun inside => ?_⟩,
        fun bound tree inside => ?_⟩
      · simp only [routinesWithin, expressionWithin]
        refine agree_nested_descend beside
          (agree_bind (agree_operand companions (beside.atDepth _)) ?_)
        intro tree _ _ onOperand
        exact operators bound tree onOperand
      · simp only [routinesWithin, blockWithin]
        exact agree_nested_descend inside.toBeside
          (agree_blockBody companions (inside.atDepth _))
      · unfold operatorsWithin
        refine agree_operatorOr inside ?_
        intro form precedence leftInner rightInner deeper isNot
        simp only [advance_bind_apply]
        refine agree_bind
          (agree_operatorOf companions (deeper.advance_of_peek isNot)) ?_
        intro applied _ _ onLast
        exact operators bound applied onLast

end Levels

end Parse

end Scriptlet
