import Scriptlet.Proofs.Parse.Recovery
import Scriptlet.Proofs.Parse.Supplied

namespace Scriptlet

/-!
# Strict blocks differ in unclosed blocks only

Whether blocks are strict is asked at one place, where a block meets the end of
input.  Where no block does, strict and permissive parses are the same.  Where
some do and nothing else is wrong, the strict parse records each of them, and
supplying just as many closing brackets repairs it: the program is then the one
that the permissive parse gives without them.

The routines are taken one by one.  Within a statement at most one block can meet
the end of input without a complaint from what encloses it, since nothing can be
expected behind it; and that block may hold a last statement of the same kind.
-/

namespace Parse

/-- What the first routines give quietly, the second ones give with brackets. -/
structure SealedRoutines
    (levels : Nat)
    (permissive strict : Routines Cursor) :
    Prop where
  expression :
    ∀ bound left,
      Sealed levels (permissive.expression bound) (strict.expression bound) left
  block :
    ∀ left, left.stream.ahead ≠ [] →
      Sealed levels permissive.block strict.block left

section Forms

variable
  {levels : Nat}
  {permissive strict : Routines Cursor}
  {left : Cursor}

theorem sealed_integer
    (inside : left.stream.ahead ≠ []) :
    Sealed levels integer integer left := by
  unfold integer
  apply sealed_current_bind inside
  cases Text.readInteger? left.stream.current.value with
  | none =>
      exact sealed_of_not_gives fun _ _ => not_gives_reject
  | some value =>
      exact sealed_pure inside

/-- Parameters that stop in front of a token are the same with brackets behind. -/
theorem gives_moreParameters_extended
    {count further : Nat}
    {names : List Name}
    {brackets : Brackets}
    {right after : Cursor}
    (length_le : left.stream.ahead.length ≤ count)
    (extended : left.Extended brackets right)
    (given : (moreParameters count left).Gives True names after)
    (stops : after.stream.ahead ≠ []) :
    ∃ final,
      (moreParameters (count + further) right).Gives True names final ∧
        after.Extended brackets final := by
  induction count generalizing left right names with
  | zero =>
      have ended := List.length_eq_zero_iff.mp (Nat.le_zero.mp length_le)
      rw [moreParameters_of_ended ended] at given
      obtain ⟨rfl, rfl⟩ := gives_mk.mp given
      exact (stops ended).elim
  | succ count inductionHypothesis =>
      rw [Nat.succ_add]
      have sameComma := extended.peek_kind_eq_iff .comma (by decide) (by decide)
      simp only [moreParameters, peekKind_bind_apply, ite_apply, sameComma,
        advance_bind_apply, andSoOn_eq] at given ⊢
      by_cases comma : left.stream.peek.kind = .comma
      · simp only [comma, ↓reduceIte, gives_bind, gives_expect,
          gives_map] at given ⊢
        obtain ⟨token, middle, ⟨identifier, rfl, rfl⟩, others, givenOthers,
          rfl⟩ := given
        have onComma := Cursor.next_ne_nil comma (by decide)
        have inside := Cursor.ahead_ne_nil_of_next onComma
        have onName := Cursor.next_ne_nil identifier (by decide)
        have moved := extended.advance inside
        have samePeek := moved.peek onName
        have shorter : left.advance.advance.stream.ahead.length ≤ count := by
          simp only [Cursor.ahead_advance, List.length_tail]
          omega
        obtain ⟨final, givenFinal, extendedFinal⟩ :=
          inductionHypothesis shorter (moved.advance onComma) givenOthers
        refine ⟨final, ⟨_, _, ⟨samePeek ▸ identifier, rfl, rfl⟩, others,
          givenFinal, ?_⟩, extendedFinal⟩
        rw [samePeek]
      · simp only [comma, ↓reduceIte] at given ⊢
        obtain ⟨rfl, rfl⟩ := gives_mk.mp given
        exact ⟨right, gives_mk.mpr ⟨rfl, rfl⟩, extended⟩

theorem sealed_parameters : Sealed levels parameters parameters left := by
  unfold parameters
  refine sealed_peekKind_bind rfl (sealed_ite ?_ ?_)
  · intro closes
    have further := Cursor.next_ne_nil closes nofun
    exact sealed_advance_bind (Cursor.ahead_ne_nil_of_next further)
      (sealed_pure further)
  · intro _
    refine sealed_expect_bind nofun fun token middle inside => ?_
    refine sealed_loop_bind ?_ ?_ ?_
    · intro names after _ given stops brackets right extended
      exact gives_moreParameters_extended (Nat.le_refl _) extended given stops
    · intro names after _
      exact sealed_expect_bind nofun fun _ _ closes => sealed_pure closes
    · intro names
      exact barred_expect_bind nofun

variable
  [OrderlyRoutines levels permissive]
  (routines : SealedRoutines levels permissive strict)

include routines

theorem sealed_prefixed
    (inside : left.stream.ahead ≠ []) :
    Sealed levels (prefixed permissive) (prefixed strict) left := by
  unfold prefixed
  refine sealed_advance_bind inside (sealed_bind (routines.expression _ _) ?_ ?_)
  · intro operand after onOperand
    exact sealed_pure onOperand
  · intro operand
    exact idle_pure _

theorem sealed_grouping
    (inside : left.stream.ahead ≠ []) :
    Sealed levels (grouping permissive) (grouping strict) left := by
  unfold grouping
  refine sealed_advance_bind inside (sealed_bind (routines.expression _ _) ?_ ?_)
  · intro inner after _
    exact sealed_expect_bind nofun fun _ _ closes => sealed_pure closes
  · intro inner
    exact Barred.idle (barred_expect_bind nofun)

omit [OrderlyRoutines levels permissive] routines in
/-- An alternative cannot follow where a block has met the end of input. -/
theorem idle_alternative : Idle (alternative permissive) (alternative strict) :=
  idle_peekKind_bind rfl (idle_pure none)

theorem sealed_alternative
    (inside : left.stream.ahead ≠ []) :
    Sealed levels (alternative permissive) (alternative strict) left := by
  unfold alternative
  refine sealed_peekKind_bind rfl (sealed_ite ?_ ?_)
  · intro elseWord
    refine sealed_advance_bind inside ?_
    refine sealed_expect_bind nofun fun _ after onOpening => ?_
    refine sealed_bind (routines.block _ onOpening) ?_ ?_
    · intro block after onClosing
      exact sealed_pure onClosing
    · intro block
      exact idle_pure _
  · intro _
    exact sealed_pure inside

theorem sealed_conditional
    (inside : left.stream.ahead ≠ []) :
    Sealed levels (conditional permissive) (conditional strict) left := by
  unfold conditional
  refine sealed_current_bind inside ?_
  refine sealed_expect_bind nofun fun _ _ onOpening => ?_
  refine sealed_advance_bind onOpening ?_
  refine sealed_bind (routines.expression _ _) ?_ ?_
  · intro condition _ _
    refine sealed_expect_bind nofun fun _ _ _ => ?_
    refine sealed_expect_bind nofun fun _ _ onCurly => ?_
    refine sealed_bind (routines.block _ onCurly) ?_ ?_
    · intro consequence _ onClosing
      refine sealed_bind (sealed_alternative routines onClosing) ?_ ?_
      · intro alternative? _ onLast
        exact sealed_pure onLast
      · intro alternative?
        exact idle_pure _
    · intro consequence
      exact idle_bind idle_alternative fun _ => idle_pure _
  · intro condition
    exact Barred.idle (barred_expect_bind nofun)

theorem sealed_function
    (inside : left.stream.ahead ≠ []) :
    Sealed levels (function permissive) (function strict) left := by
  unfold function
  refine sealed_current_bind inside ?_
  refine sealed_expect_bind nofun fun _ _ _ => ?_
  refine sealed_bind sealed_parameters ?_ ?_
  · intro names _ _
    refine sealed_expect_bind nofun fun _ _ onCurly => ?_
    refine sealed_bind (routines.block _ onCurly) ?_ ?_
    · intro body _ onClosing
      exact sealed_pure onClosing
    · intro body
      exact idle_pure _
  · intro names
    exact Barred.idle (barred_expect_bind nofun)

theorem sealed_operandOf
    {form : OperandForm}
    (inside : left.stream.ahead ≠ []) :
    Sealed levels (operandOf permissive form) (operandOf strict form) left := by
  cases form with
  | identifier =>
      exact sealed_current_bind inside (sealed_pure inside)
  | integer =>
      exact sealed_integer inside
  | string =>
      exact sealed_current_bind inside (sealed_pure inside)
  | boolean =>
      exact sealed_current_bind inside (sealed_pure inside)
  | prefixed =>
      exact sealed_prefixed routines inside
  | grouping =>
      exact sealed_grouping routines inside
  | conditional =>
      exact sealed_conditional routines inside
  | function =>
      exact sealed_function routines inside

/-- No expression starts with the end of input. -/
theorem sealed_operand : Sealed levels (operand permissive) (operand strict) left := by
  unfold operand
  by_cases ended : left.stream.ahead = []
  · apply sealed_of_not_gives
    intro tree after given
    have ends := left.stream.current_kind_eq_endOfInput_iff.mpr ended
    rw [current_bind_apply, ends] at given
    exact not_gives_reject given
  · refine sealed_current_bind ended ?_
    cases left.stream.current.kind.operandForm? with
    | none =>
        exact sealed_of_not_gives fun _ _ => not_gives_reject
    | some form =>
        exact sealed_operandOf routines ended

/--
Arguments that stop in front of a token are the same with brackets behind: none
of them has left a block open.
-/
theorem gives_moreArguments_extended
    {count further : Nat}
    {values : List Expression}
    {brackets : Brackets}
    {right after : Cursor}
    (fits : nestingLimit ≤ levels + left.depth)
    (length_le : left.stream.ahead.length ≤ count)
    (extended : left.Extended brackets right)
    (given : (moreArguments permissive count left).Gives True values after)
    (stops : after.stream.ahead ≠ []) :
    ∃ final,
      (moreArguments strict (count + further) right).Gives True values final ∧
        after.Extended brackets final := by
  induction count generalizing left right values with
  | zero =>
      have ended := List.length_eq_zero_iff.mp (Nat.le_zero.mp length_le)
      rw [moreArguments_of_ended ended] at given
      obtain ⟨rfl, rfl⟩ := gives_mk.mp given
      exact (stops ended).elim
  | succ count inductionHypothesis =>
      rw [Nat.succ_add]
      have sameComma := extended.peek_kind_eq_iff .comma nofun nofun
      simp only [moreArguments, peekKind_bind_apply, ite_apply, sameComma,
        advance_bind_apply, andSoOn_eq] at given ⊢
      by_cases comma : left.stream.peek.kind = .comma
      · simp only [comma, ↓reduceIte, gives_bind, gives_map] at given ⊢
        obtain ⟨argument, middle, givenArgument, others, givenOthers, rfl⟩ :=
          given
        have onComma := Cursor.next_ne_nil comma nofun
        have inside := Cursor.ahead_ne_nil_of_next onComma
        have moved := (extended.advance inside).advance onComma
        have fitsArgument :
            nestingLimit ≤ levels + left.advance.advance.depth := by
          simpa using fits
        have fitsOthers : nestingLimit ≤ levels + middle.depth :=
          Orderly.fits_of_gives fitsArgument givenArgument
        cases routines.expression _ _ fitsArgument _ _ givenArgument with
        | whole _ same =>
            obtain ⟨rightMiddle, givenOther, extendedMiddle⟩ :=
              same brackets _ moved
            have shorter : middle.stream.ahead.length ≤ count := by
              have orderly : Orderly levels (permissive.expression .lowest) :=
                inferInstance
              have suffix := orderly.ahead _ fitsArgument
              rw [givenArgument.2.1] at suffix
              have le := suffix.length_le
              simp only [Cursor.ahead_advance, List.length_tail] at le
              omega
            obtain ⟨final, givenFinal, extendedFinal⟩ :=
              inductionHypothesis fitsOthers shorter extendedMiddle givenOthers
            exact ⟨final, ⟨_, _, givenOther, others, givenFinal, rfl⟩,
              extendedFinal⟩
        | opened _ ended _ =>
            rw [moreArguments_of_ended ended] at givenOthers
            obtain ⟨rfl, rfl⟩ := gives_mk.mp givenOthers
            exact (stops ended).elim
      · simp only [comma, ↓reduceIte] at given ⊢
        obtain ⟨rfl, rfl⟩ := gives_mk.mp given
        exact ⟨right, gives_mk.mpr ⟨rfl, rfl⟩, extended⟩

theorem sealed_arguments
    (inside : left.stream.ahead ≠ []) :
    Sealed levels (arguments permissive) (arguments strict) left := by
  unfold arguments
  refine sealed_peekKind_bind rfl (sealed_ite ?_ ?_)
  · intro closes
    exact sealed_advance_bind inside
      (sealed_pure (Cursor.next_ne_nil closes nofun))
  · intro _
    refine sealed_advance_bind inside ?_
    refine sealed_bind (routines.expression _ _) ?_ ?_
    · intro argument _ _
      refine sealed_loop_bind ?_ ?_ ?_
      · intro values after fits given stops brackets right extended
        exact gives_moreArguments_extended routines fits (Nat.le_refl _)
          extended given stops
      · intro values _ _
        exact sealed_expect_bind nofun fun _ _ closes => sealed_pure closes
      · intro values
        exact barred_expect_bind nofun
    · intro argument
      apply Barred.idle
      intro ended result after isEnd given
      rw [rounds_bind_apply] at given
      obtain ⟨values, middle, givenRest, givenClosing⟩ := gives_bind.mp given
      rw [moreArguments_of_ended isEnd] at givenRest
      obtain ⟨rfl, rfl⟩ := gives_mk.mp givenRest
      refine barred_expect_bind ?_ _ _ _ isEnd givenClosing
      nofun

theorem sealed_operatorOf
    {tree : Expression}
    {precedence : Precedence}
    {form : OperatorForm}
    (inside : left.stream.ahead ≠ []) :
    Sealed levels
      (operatorOf permissive tree precedence form)
      (operatorOf strict tree precedence form) left := by
  cases form with
  | binary =>
      unfold operatorOf binary
      refine sealed_advance_bind inside
        (sealed_bind (routines.expression _ _) ?_ ?_)
      · intro operand _ onOperand
        exact sealed_pure onOperand
      · intro operand
        exact idle_pure _
  | call =>
      unfold operatorOf call
      refine sealed_current_bind inside
        (sealed_bind (sealed_arguments routines inside) ?_ ?_)
      · intro values _ onClosing
        exact sealed_pure onClosing
      · intro values
        exact idle_pure _

theorem sealed_statementOf
    {form? : Option StatementForm}
    (inside : left.stream.ahead ≠ []) :
    Sealed levels (statementOf permissive form?) (statementOf strict form?)
      left := by
  -- What every form of statement ends with.
  have ends
      (make : Expression → Statement)
      (bound : Precedence)
      (start : Cursor) :
      Sealed levels
        (permissive.expression bound >>= fun value =>
          skipSemicolon >>= fun _ => pure (make value))
        (strict.expression bound >>= fun value =>
          skipSemicolon >>= fun _ => pure (make value)) start := by
    refine sealed_bind (routines.expression _ _) ?_ ?_
    · intro value _ onValue
      refine sealed_bind (sealed_skipSemicolon onValue) ?_ ?_
      · intro _ _ onLast
        exact sealed_pure onLast
      · intro _
        exact idle_pure _
    · intro value
      exact idle_bind idle_skipSemicolon fun _ => idle_pure _
  rcases form? with _ | _ | _
  · unfold statementOf expressionStatement
    exact sealed_current_bind inside (ends _ _ _)
  · unfold statementOf binding
    refine sealed_current_bind inside ?_
    refine sealed_expect_bind nofun fun _ _ _ => ?_
    refine sealed_expect_bind nofun fun _ _ onAssignment => ?_
    exact sealed_advance_bind onAssignment (ends _ _ _)
  · unfold statementOf returning
    exact sealed_advance_bind inside (ends _ _ _)

theorem sealed_statement
    (inside : left.stream.ahead ≠ []) :
    Sealed levels (statement permissive) (statement strict) left := by
  refine sealed_closing (sealed_currentKind_bind inside (sealed_ite ?_ ?_))
  · intro _
    exact sealed_emit_bind rfl (sealed_statementOf routines inside)
  · intro _
    exact sealed_statementOf routines inside

end Forms

/-- With enough brackets the next statement starts behind those that were used. -/
theorem Outcome.Closes.moves_on
    {outcome : Outcome Cursor α}
    {around : Nat}
    {brackets : Brackets}
    {value : α}
    {after : Cursor}
    (closes : outcome.Closes around brackets value after)
    (ended : after.stream.ahead = [])
    (more : around < brackets.size) :
    ∃ final,
      outcome.Gives True value final ∧
        after.Extended (brackets.drop (around + 1)) final.advance := by
  obtain ⟨final, given, extended⟩ := closes.enough more
  refine ⟨final, given, ?_, ?_, ?_⟩
  · rw [Cursor.ahead_advance, extended.ahead, ended, List.nil_append,
      List.nil_append]
    exact List.tail_drop
  · rw [Cursor.last_advance, extended.last]
  · rw [Cursor.depth_advance, extended.depth]

/--
How a strict run over statements ends where so many blocks were left open in the
last one: with the same statements where the brackets suffice, else with some,
having recorded each block that lacks its bracket.
-/
structure Outcome.EndsWith
    (outcome : Outcome Cursor α)
    (opened : Nat)
    (brackets : Brackets)
    (value : α)
    (after : Cursor) :
    Prop where
  enough :
    opened ≤ brackets.size →
      ∃ final,
        outcome.Gives True value final ∧
          after.Extended (brackets.drop opened) final
  short :
    brackets.size < opened →
      ∃ other final events,
        outcome = ⟨some other, final, events⟩ ∧
          final.stream.ahead = [] ∧
          Event.faults events =
            List.replicate (opened - brackets.size) lackingBracket

/-- With as many brackets as are needed or fewer, none is left over. -/
theorem Outcome.EndsWith.ends_of_le
    {outcome : Outcome Cursor α}
    {opened : Nat}
    {brackets : Brackets}
    {value : α}
    {after : Cursor}
    (endsWith : outcome.EndsWith opened brackets value after)
    (ended : after.stream.ahead = [])
    (le : brackets.size ≤ opened) :
    ∃ other final events,
      outcome = ⟨some other, final, events⟩ ∧
        final.stream.ahead = [] ∧
        Event.faults events =
          List.replicate (opened - brackets.size) lackingBracket := by
  rcases Nat.lt_or_eq_of_le le with few | exactly
  · exact endsWith.short few
  · obtain ⟨final, ⟨gave, moved, quiet⟩, extended⟩ :=
      endsWith.enough (Nat.le_of_eq exactly.symm)
    have used : (brackets.drop opened).tokens = [] :=
      List.drop_eq_nil_of_le le
    refine ⟨value, final, outcome.events, ?_, ?_, ?_⟩
    · rw [← gave, ← moved]
    · rw [extended.ahead, ended, used, List.append_nil]
    · rw [Event.faults, quiet trivial, exactly, Nat.sub_self]
      rfl

section Blocks

variable
  {levels count : Nat}
  {permissive strict : Routines Cursor}
  {left : Cursor}

/-- In front of a bracket, or of nothing, no statement is left. -/
theorem statements_of_bracket
    {brackets : Brackets}
    {right : Cursor}
    (extended : left.Extended brackets right)
    (ended : left.stream.ahead = []) :
    statements strict count right = ⟨some [], right, []⟩ := by
  cases count with
  | zero =>
      rfl
  | succ count =>
      have stops :
          right.stream.current.kind = .closeCurly ∨
            right.stream.current.kind = .endOfInput := by
        rw [extended.current_of_ended ended]
        cases shape : brackets.tokens with
        | nil =>
            exact .inr left.stream.last_kind
        | cons token rest =>
            exact .inl (brackets.kind token (by simp [shape]))
      simp [statements, stops]

/-- A step whose attempt records nothing has given a value. -/
theorem gives_of_quiet_attempt
    {step : Parse α}
    [orderly : Orderly levels step]
    {result? : Option α}
    {after : Cursor}
    (fits : nestingLimit ≤ levels + left.depth)
    (given : (attempt step left).Gives True result? after) :
    ∃ value, result? = some value ∧ (step left).Gives True value after := by
  obtain ⟨ended, moved, quiet⟩ := gives_attempt.mp given
  cases result? with
  | none =>
      exact (orderly.reports left fits ended (quiet trivial)).elim
  | some value =>
      exact ⟨value, rfl, ended, moved, quiet⟩

theorem gives_statements_succ
    [OrderlyRoutines levels permissive]
    {trees : List Statement}
    {after : Cursor}
    (fits : nestingLimit ≤ levels + left.depth)
    (goesOn :
      ¬ (left.stream.current.kind = .closeCurly ∨
        left.stream.current.kind = .endOfInput))
    (given : (statements permissive (count + 1) left).Gives True trees after) :
    ∃ tree middle others,
      (statement permissive left).Gives True tree middle ∧
        (statements permissive count middle.advance).Gives True others after ∧
        trees = tree :: others := by
  simp only [statements, currentKind_bind_apply, goesOn, ↓reduceIte, gives_bind,
    advance_bind_apply, andSoOn_eq, gives_map] at given
  obtain ⟨tree?, middle, attempted, others, givenOthers, rfl⟩ := given
  obtain ⟨tree, rfl, givenTree⟩ := gives_of_quiet_attempt fits attempted
  exact ⟨tree, middle, others, givenTree, givenOthers, rfl⟩

/-- One statement that strict runs give too, and what follows it. -/
theorem Outcome.EndsWith.prepend
    {tree : Statement}
    {others : List Statement}
    {opened : Nat}
    {brackets : Brackets}
    {right rightMiddle after : Cursor}
    (goesOn :
      ¬ (right.stream.current.kind = .closeCurly ∨
        right.stream.current.kind = .endOfInput))
    (given : (statement strict right).Gives True tree rightMiddle)
    (ends :
      (statements strict count rightMiddle.advance).EndsWith opened brackets
        others after) :
    (statements strict (count + 1) right).EndsWith opened brackets
      (tree :: others) after := by
  obtain ⟨gave, rfl, quiet⟩ := given
  have silent := quiet trivial
  constructor
  · intro more
    obtain ⟨final, ⟨gaveRest, rfl, quietRest⟩, extended⟩ := ends.enough more
    rw [statements_succ goesOn rfl rfl]
    refine ⟨_, ⟨?_, rfl, fun asked => ?_⟩, extended⟩
    · rw [gave, gaveRest]
      rfl
    · rw [Event.diagnostics_append, silent, quietRest asked, List.append_nil]
  · intro few
    obtain ⟨other, final, events, ran, ended, faults⟩ := ends.short few
    rw [statements_succ goesOn rfl ran, gave]
    refine ⟨_, final, _, rfl, ended, ?_⟩
    rw [Event.faults_append, faults, Event.faults, silent]
    rfl

/-- A last statement with open blocks, of which strict runs close some. -/
theorem Outcome.Closes.endsWith
    {tree : Statement}
    {around : Nat}
    {brackets : Brackets}
    {right after : Cursor}
    (goesOn :
      ¬ (right.stream.current.kind = .closeCurly ∨
        right.stream.current.kind = .endOfInput))
    (ended : after.stream.ahead = [])
    (closes : (statement strict right).Closes around brackets tree after) :
    (statements strict (count + 1) right).EndsWith (around + 1) brackets
      [tree] after := by
  constructor
  · intro more
    obtain ⟨final, ⟨gave, rfl, quiet⟩, extended⟩ := closes.moves_on ended more
    rw [statements_succ goesOn rfl (statements_of_bracket extended ended), gave]
    refine ⟨_, ⟨rfl, rfl, fun asked => ?_⟩, extended⟩
    rw [List.append_nil]
    exact quiet asked
  · intro few
    obtain ⟨failed, endedRight, faults⟩ := closes.short (Nat.le_of_lt_succ few)
    have endedNext :
        (statement strict right).cursor.advance.stream.ahead = [] := by
      rw [Cursor.ahead_advance, endedRight, List.tail_nil]
    rw [statements_succ goesOn rfl (statements_of_ended endedNext), failed]
    refine ⟨_, _, _, rfl, endedNext, ?_⟩
    rw [List.append_nil]
    exact faults

/-- Statements that end where they start leave no block open. -/
theorem endsWith_of_stops
    {brackets : Brackets}
    {right : Cursor}
    (extended : left.Extended brackets right)
    (stops : statements strict count right = ⟨some [], right, []⟩) :
    (statements strict count right).EndsWith 0 brackets [] left := by
  rw [stops]
  exact ⟨fun _ => ⟨right, gives_mk.mpr ⟨rfl, rfl⟩, extended⟩, nofun⟩

/--
Strict runs over statements, with brackets behind, end as one that is not strict:
at a bracket of their own, or at the end of input with so many blocks left open.
-/
def SealsStatements
    (strict : Routines Cursor)
    (count : Nat)
    (left : Cursor)
    (trees : List Statement)
    (after : Cursor)
    (opened : Nat) :
    Prop :=
  (after.stream.current.kind = .closeCurly ∧ opened = 0 ∨
      after.stream.ahead = []) ∧
    ∀ further brackets right, left.Extended brackets right →
      (statements strict (count + further) right).EndsWith opened brackets
        trees after

theorem sealsStatements_of_ended
    (ended : left.stream.ahead = []) :
    SealsStatements strict count left [] left 0 := by
  refine ⟨.inr ended, fun further brackets right extended => ?_⟩
  exact endsWith_of_stops extended (statements_of_bracket extended ended)

theorem sealsStatements_of_closeCurly
    (closes : left.stream.current.kind = .closeCurly) :
    SealsStatements strict (count + 1) left [] left 0 := by
  refine ⟨.inl ⟨closes, rfl⟩, fun further brackets right extended => ?_⟩
  have inside : left.stream.ahead ≠ [] := by
    intro ended
    rw [left.stream.current_kind_eq_endOfInput_iff.mpr ended] at closes
    contradiction
  refine endsWith_of_stops extended ?_
  rw [Nat.succ_add]
  simp [statements, extended.current inside, closes]

variable
  [OrderlyRoutines levels permissive]
  (routines : SealedRoutines levels permissive strict)

include routines

/-- Statements read quietly are those of strict runs with brackets behind. -/
theorem sealsStatements_of_gives
    {trees : List Statement}
    {after : Cursor}
    (fits : nestingLimit ≤ levels + left.depth)
    (length_le : left.stream.ahead.length ≤ count)
    (given : (statements permissive count left).Gives True trees after) :
    ∃ opened, SealsStatements strict count left trees after opened := by
  induction count generalizing left trees with
  | zero =>
      have ended := List.length_eq_zero_iff.mp (Nat.le_zero.mp length_le)
      rw [statements_of_ended ended] at given
      obtain ⟨rfl, rfl⟩ := gives_mk.mp given
      exact ⟨0, sealsStatements_of_ended ended⟩
  | succ count inductionHypothesis =>
      by_cases stops :
          left.stream.current.kind = .closeCurly ∨
            left.stream.current.kind = .endOfInput
      · simp only [statements, currentKind_bind_apply, stops, ↓reduceIte] at given
        obtain ⟨rfl, unmoved⟩ := gives_mk.mp given
        rw [unmoved]
        rcases stops with closes | ends
        · exact ⟨0, sealsStatements_of_closeCurly closes⟩
        · exact ⟨0, sealsStatements_of_ended
            (left.stream.current_kind_eq_endOfInput_iff.mp ends)⟩
      · obtain ⟨tree, middle, others, givenTree, givenOthers, rfl⟩ :=
          gives_statements_succ fits stops given
        have inside : left.stream.ahead ≠ [] := fun ended =>
          stops (.inr (left.stream.current_kind_eq_endOfInput_iff.mpr ended))
        have stopsAlike
            {brackets : Brackets}
            {right : Cursor}
            (extended : left.Extended brackets right) :
            ¬ (right.stream.current.kind = .closeCurly ∨
              right.stream.current.kind = .endOfInput) := by
          rw [extended.current inside]
          exact stops
        have orderly : Orderly levels (statement permissive) := inferInstance
        cases sealed_statement routines inside fits tree middle givenTree with
        | whole insideMiddle same =>
            have fitsOthers : nestingLimit ≤ levels + middle.advance.depth := by
              rw [Cursor.depth_advance]
              exact orderly.fits_of_gives fits givenTree
            have shorter : middle.advance.stream.ahead.length ≤ count := by
              have suffix := orderly.ahead left fits
              rw [givenTree.2.1] at suffix
              have le := suffix.length_le
              rw [Cursor.ahead_advance, List.length_tail]
              omega
            obtain ⟨opened, ends, run⟩ :=
              inductionHypothesis fitsOthers shorter givenOthers
            refine ⟨opened, ends, fun further brackets right extended => ?_⟩
            obtain ⟨rightMiddle, givenOther, extendedMiddle⟩ :=
              same brackets right extended
            rw [Nat.succ_add]
            exact (run further brackets _
              (extendedMiddle.advance insideMiddle)).prepend
                (stopsAlike extended) givenOther
        | opened around ended closes =>
            have endedNext : middle.advance.stream.ahead = [] := by
              rw [Cursor.ahead_advance, ended, List.tail_nil]
            rw [statements_of_ended endedNext] at givenOthers
            obtain ⟨rfl, rfl⟩ := gives_mk.mp givenOthers
            refine ⟨around + 1, .inr endedNext,
              fun further brackets right extended => ?_⟩
            rw [Nat.succ_add]
            have stays : middle.advance = middle := by
              simp [Cursor.advance, ended]
            rw [stays]
            exact (closes brackets right extended).endsWith
              (stopsAlike extended) ended

omit [OrderlyRoutines levels permissive] routines in
/-- A strict block is closed by a bracket. -/
theorem blockBody_of_closeCurly
    {trees : List Statement}
    {middle : Cursor}
    (given :
      (statements strict left.advance.stream.ahead.length left.advance).Gives
        True trees middle)
    (closes : middle.stream.current.kind = .closeCurly) :
    (blockBody true strict left).Gives True ⟨left.stream.current, trees⟩
      middle := by
  unfold blockBody
  rw [advance_bind_apply, rounds_bind_apply]
  refine gives_bind.mpr ⟨trees, middle, given, ?_⟩
  simp [closes]

omit [OrderlyRoutines levels permissive] routines in
/-- A strict block that meets the end of input records that it is not closed. -/
theorem blockBody_of_ended
    {trees : List Statement}
    {middle : Cursor}
    {events : List Event}
    (ran :
      statements strict left.advance.stream.ahead.length left.advance =
        ⟨some trees, middle, events⟩)
    (ended : middle.stream.ahead = []) :
    blockBody true strict left =
      ⟨none, middle,
        events ++ [.recorded ⟨lackingBracket, middle.stream.current.start⟩]⟩ := by
  have ends := middle.stream.current_kind_eq_endOfInput_iff.mpr ended
  unfold blockBody
  rw [advance_bind_apply, rounds_bind_apply, bind_apply_of_some ran,
    current_bind_apply]
  simp only [ends, and_self, ↓reduceIte]
  rfl

/--
A block that has met the end of input is one more that lacks its bracket; the
blocks left open inside take theirs first.
-/
theorem sealed_blockBody
    (inside : left.stream.ahead ≠ []) :
    Sealed levels (blockBody false permissive) (blockBody true strict) left := by
  intro fits tree after given
  unfold blockBody at given
  simp only [advance_bind_apply, rounds_bind_apply, gives_bind,
    current_bind_apply, Bool.false_eq_true, false_and, ↓reduceIte, pure_apply,
    gives_mk] at given
  obtain ⟨trees, middle, givenTrees, rfl, rfl⟩ := given
  obtain ⟨opened, ends, run⟩ :=
    sealsStatements_of_gives routines
      (by simpa using fits) (Nat.le_refl _) givenTrees
  have endsWith
      {brackets : Brackets}
      {right : Cursor}
      (extended : left.Extended brackets right) :
      (statements strict right.advance.stream.ahead.length
        right.advance).EndsWith opened brackets trees after := by
    have moved := extended.advance inside
    rw [moved.ahead, List.length_append]
    exact run _ brackets _ moved
  rcases ends with ⟨closes, rfl⟩ | ended
  · have insideAfter : after.stream.ahead ≠ [] := by
      intro ended
      rw [after.stream.current_kind_eq_endOfInput_iff.mpr ended] at closes
      contradiction
    refine .whole insideAfter fun brackets right extended => ?_
    obtain ⟨final, givenFinal, extendedFinal⟩ :=
      (endsWith extended).enough (Nat.zero_le _)
    refine ⟨final, ?_, extendedFinal⟩
    rw [← extended.current inside]
    refine blockBody_of_closeCurly givenFinal ?_
    rw [extendedFinal.current insideAfter]
    exact closes
  · refine .opened opened ended fun brackets right extended => ⟨?_, ?_⟩
    · intro more
      obtain ⟨final, givenFinal, extendedFinal⟩ :=
        (endsWith extended).enough (Nat.le_of_lt more)
      refine ⟨final, ?_, extendedFinal⟩
      rw [← extended.current inside]
      refine blockBody_of_closeCurly givenFinal ?_
      rw [extendedFinal.current_of_ended ended]
      exact (brackets.drop opened).kind_headD (by
        rw [Brackets.size_drop]
        omega)
    · intro few
      obtain ⟨others, final, events, ran, endedFinal, faults⟩ :=
        (endsWith extended).ends_of_le ended few
      rw [blockBody_of_ended ran endedFinal]
      refine ⟨rfl, endedFinal, ?_⟩
      rw [Event.faults_append, faults, Nat.succ_sub few, List.replicate_succ']
      rfl

end Blocks

section Levels

variable {levels : Nat} {left : Cursor} {bound : Precedence} {tree : Expression}

/-- No operator can follow where a block has met the end of input. -/
theorem idle_operatorOr
    {apply otherApply : OperatorForm → Precedence → Parse Expression} :
    Idle (operatorOr bound tree apply) (operatorOr bound tree otherApply) :=
  idle_peekKind_bind rfl (idle_pure tree)

theorem sealed_operatorOr
    {apply otherApply : OperatorForm → Precedence → Parse Expression}
    (inside : left.stream.ahead ≠ [])
    (applied :
      ∀ form precedence,
        left.advance.stream.ahead ≠ [] →
          Sealed levels
            (descend .operator >>= fun _ => apply form precedence)
            (descend .operator >>= fun _ => otherApply form precedence) left) :
    Sealed levels
      (operatorOr bound tree apply) (operatorOr bound tree otherApply) left := by
  unfold operatorOr
  refine sealed_peekKind_bind rfl ?_
  cases isOperator : left.stream.peek.kind.operatorForm? with
  | none =>
      exact sealed_pure inside
  | some form =>
      have further : left.advance.stream.ahead ≠ [] := by
        refine Cursor.next_ne_nil rfl fun ends => ?_
        rw [ends] at isOperator
        cases isOperator
      exact sealed_ite
        (fun _ => applied form _ further) (fun _ => sealed_pure inside)

/-- Operators that are not there in the first run are not there in the second. -/
theorem idle_operatorsWithin :
    Idle (operatorsWithin false levels bound tree)
      (operatorsWithin true levels bound tree) := by
  cases levels with
  | zero =>
      exact idle_operatorOr
  | succ levels =>
      exact idle_operatorOr

/-- Within any number of levels, what is given quietly is given with brackets. -/
theorem sealed_within (levels : Nat) :
    SealedRoutines levels
        (routinesWithin false levels) (routinesWithin true levels) ∧
      ∀ bound tree left, left.stream.ahead ≠ [] →
        Sealed levels
          (operatorsWithin false levels bound tree)
          (operatorsWithin true levels bound tree) left := by
  induction levels with
  | zero =>
      refine ⟨⟨fun bound left => ?_, fun left _ => ?_⟩,
        fun bound tree left inside => ?_⟩
      · refine sealed_of_not_gives fun tree after given => ?_
        obtain ⟨_, _, _, _, impossible, -⟩ := gives_expressionWithin given
        cases impossible
      · refine sealed_of_not_gives fun tree after given => ?_
        obtain ⟨_, _, impossible, -⟩ := gives_blockWithin given
        cases impossible
      · unfold operatorsWithin
        refine sealed_operatorOr inside fun _ _ _ => ?_
        refine sealed_of_not_gives fun tree after given => ?_
        obtain ⟨_, _, _, failed⟩ := gives_bind.mp given
        exact not_gives_fail failed
  | succ levels inductionHypothesis =>
      obtain ⟨routines, operators⟩ := inductionHypothesis
      have orderly :
          OrderlyRoutines levels (routinesWithin false levels) :=
        orderly_within.1
      refine ⟨⟨fun bound left => ?_, fun left inside => ?_⟩,
        fun bound tree left inside => ?_⟩
      · have inner
            (start : Cursor) :
            Sealed levels
              (operand (routinesWithin false levels) >>=
                operatorsWithin false levels bound)
              (operand (routinesWithin true levels) >>=
                operatorsWithin true levels bound) start := by
          refine sealed_bind (sealed_operand routines) ?_ ?_
          · intro tree after onOperand
            exact operators bound tree after onOperand
          · intro tree
            exact idle_operatorsWithin
        simp only [routinesWithin, expressionWithin]
        exact sealed_nested (sealed_descend_bind (inner _))
      · have inner :=
          sealed_blockBody routines
            (show (left.atDepth (left.depth + 1)).stream.ahead ≠ [] from inside)
        simp only [routinesWithin, blockWithin]
        exact sealed_nested (sealed_descend_bind inner)
      · unfold operatorsWithin
        refine sealed_operatorOr inside fun form precedence further => ?_
        have inner
            {start : Cursor}
            (onOperator : start.stream.ahead ≠ []) :
            Sealed levels
              (operatorOf (routinesWithin false levels) tree precedence form >>=
                operatorsWithin false levels bound)
              (operatorOf (routinesWithin true levels) tree precedence form >>=
                operatorsWithin true levels bound) start := by
          refine sealed_bind (sealed_operatorOf routines onOperator) ?_ ?_
          · intro applied after onLast
            exact operators bound applied after onLast
          · intro applied
            exact idle_operatorsWithin
        refine sealed_descend_bind (sealed_advance_bind inside ?_)
        exact inner (by simpa using further)

end Levels

end Parse

end Scriptlet
