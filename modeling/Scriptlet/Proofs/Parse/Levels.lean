import Scriptlet.Proofs.Grammar.Reading
import Scriptlet.Proofs.Parse.Outcome

namespace Scriptlet

/-!
# One level of nesting and one statement of a program

What the routines that read within some levels do on their outermost level.
Whatever they give was read with one level less inside, so statements about all
levels follow by induction from statements about one.

A program is read one statement after the other, with all levels open to each.
Reading it always ends with a program, whatever was recorded on the way.
-/

namespace Parse

variable
  {quiet : Prop}
  {strictBlocks : Bool}
  {levels : Nat}
  {start after : Cursor}
  {bound : Precedence}

section Giving

/-- An expression was read as an operand and the operators applied to it. -/
theorem gives_expressionWithin
    {tree : Expression}
    (given :
      (expressionWithin strictBlocks levels bound start).Gives
        quiet tree after) :
    ∃ fewer left middle inner,
      levels = fewer + 1 ∧
        (operand (routinesWithin strictBlocks fewer)
          (start.atDepth (start.depth + 1))).Gives quiet left middle ∧
        (operatorsWithin strictBlocks fewer bound left middle).Gives
          quiet tree inner ∧
        after = inner.atDepth start.depth := by
  cases levels with
  | zero =>
      simp [expressionWithin] at given
  | succ fewer =>
      simp only [expressionWithin, gives_nested, gives_bind, gives_descend] at given
      obtain ⟨inner, ⟨_, _, ⟨-, rfl⟩, left, middle, read, applied⟩, rfl⟩ := given
      exact ⟨fewer, left, middle, inner, rfl, read, applied, rfl⟩

/-- A block was read as its statements. -/
theorem gives_blockWithin
    {tree : Block}
    (given : (blockWithin strictBlocks levels start).Gives quiet tree after) :
    ∃ fewer inner,
      levels = fewer + 1 ∧
        (blockBody strictBlocks (routinesWithin strictBlocks fewer)
          (start.atDepth (start.depth + 1))).Gives quiet tree inner ∧
        after = inner.atDepth start.depth := by
  cases levels with
  | zero =>
      simp [blockWithin] at given
  | succ fewer =>
      simp only [blockWithin, gives_nested, gives_bind, gives_descend] at given
      obtain ⟨inner, ⟨_, _, ⟨-, rfl⟩, body⟩, rfl⟩ := given
      exact ⟨fewer, inner, rfl, body, rfl⟩

/-- Either the expression to the left is complete or the operator is applied. -/
theorem gives_operatorOr
    {left tree : Expression}
    {apply : OperatorForm → Precedence → Parse Expression}
    (given : (operatorOr bound left apply start).Gives quiet tree after) :
    (start.stream.peek.kind.StopsAt bound ∧ tree = left ∧ after = start) ∨
      ∃ form,
        start.stream.peek.kind.operatorForm? = some form ∧
          bound.rank < start.stream.peek.kind.precedence.rank ∧
          (apply form start.stream.peek.kind.precedence
            (start.atDepth (start.depth + 1))).Gives quiet tree after := by
  unfold operatorOr at given
  rw [peekKind_bind_apply] at given
  cases isOperator : start.stream.peek.kind.operatorForm? with
  | none =>
      simp only [isOperator, pure_apply, gives_mk] at given
      exact .inl ⟨by simp [TokenKind.StopsAt, isOperator], given⟩
  | some form =>
      simp only [isOperator, ite_apply] at given
      split at given
      · rename_i tighter
        simp only [gives_bind, gives_descend] at given
        obtain ⟨_, _, ⟨-, rfl⟩, applied⟩ := given
        exact .inr ⟨form, rfl, tighter, applied⟩
      · rename_i looser
        simp only [pure_apply, gives_mk] at given
        exact .inl ⟨fun _ _ => Nat.le_of_not_lt looser, given⟩

/-- Either no operator is applied any more, or one is and then the others. -/
theorem gives_operatorsWithin
    {left tree : Expression}
    (given :
      (operatorsWithin strictBlocks levels bound left start).Gives
        quiet tree after) :
    (start.stream.peek.kind.StopsAt bound ∧ tree = left ∧ after = start) ∨
      ∃ fewer form bigger middle,
        levels = fewer + 1 ∧
          start.stream.peek.kind.operatorForm? = some form ∧
          bound.rank < start.stream.peek.kind.precedence.rank ∧
          (operatorOf (routinesWithin strictBlocks fewer) left
            start.stream.peek.kind.precedence form
            (start.atDepth (start.depth + 1)).advance).Gives
              quiet bigger middle ∧
          (operatorsWithin strictBlocks fewer bound bigger middle).Gives
            quiet tree after := by
  cases levels with
  | zero =>
      unfold operatorsWithin at given
      refine (gives_operatorOr given).imp_right ?_
      rintro ⟨form, isOperator, tighter, failed⟩
      exact (not_gives_fail failed).elim
  | succ fewer =>
      unfold operatorsWithin at given
      refine (gives_operatorOr given).imp_right ?_
      rintro ⟨form, isOperator, tighter, applied⟩
      simp only [advance_bind_apply, gives_bind] at applied
      obtain ⟨bigger, middle, once, others⟩ := applied
      exact ⟨fewer, form, bigger, middle, rfl, isOperator, tighter, once, others⟩

/-- The first word decides which form of statement is read. -/
theorem gives_statement
    {routines : Routines Cursor}
    {tree : Statement}
    (given : (statement routines start).Gives quiet tree after) :
    (statementOf routines start.stream.current.kind.statementForm?
      start).Gives quiet tree after := by
  unfold statement at given
  simp only [gives_closing, currentKind_bind_apply, ite_apply] at given
  split at given
  · simp only [gives_bind] at given
    obtain ⟨_, middle, recognised, stated⟩ := given
    obtain rfl := (gives_emit rfl).mp recognised
    exact stated
  · exact given

/-- A program is at its end, or has one statement that is kept or dropped. -/
theorem gives_programStatements
    {count : Nat}
    {trees : List Statement}
    (given :
      (programStatements strictBlocks count start).Gives quiet trees after) :
    (trees = [] ∧ (count = 0 ∨ start.stream.ahead = [])) ∨
      ∃ fewer statement? middle others,
        count = fewer + 1 ∧
          start.stream.current.kind ≠ .endOfInput ∧
          (attempt (statement (routinesWithin strictBlocks nestingLimit))
            (start.atDepth 0)).Gives quiet statement? middle ∧
          (programStatements strictBlocks fewer middle.advance).Gives
            quiet others after ∧
          trees = statement?.toList ++ others := by
  cases count with
  | zero =>
      simp only [programStatements, pure_apply, gives_mk] at given
      exact .inl ⟨given.1, .inl rfl⟩
  | succ fewer =>
      simp only [programStatements, current_bind_apply, ite_apply] at given
      split at given
      · rename_i ends
        simp only [pure_apply, gives_mk] at given
        exact .inl ⟨given.1,
          .inr ((start.stream.current_kind_eq_endOfInput_iff).mp ends)⟩
      · rename_i inside
        simp only [gives_bind, setDepth_bind_apply, advance_bind_apply,
          andSoOn_eq, gives_map] at given
        obtain ⟨_, _, started, statement?, middle, attempted, others,
          givenOthers, rfl⟩ := given
        obtain rfl := (gives_emit rfl).mp started
        exact .inr ⟨fewer, statement?, middle, others, rfl, inside, attempted,
          givenOthers, rfl⟩

end Giving

section Reaching

variable (fits : nestingLimit ≤ levels + start.depth)

include fits

theorem reaches_expressionWithin
    {goal : Expression → Cursor → Prop}
    (inside :
      ∀ fewer,
        nestingLimit ≤ fewer + (start.depth + 1) →
          ((operand (routinesWithin strictBlocks fewer) >>=
            operatorsWithin strictBlocks fewer bound)
              (start.atDepth (start.depth + 1))).Reaches fun tree inner =>
                goal tree (inner.atDepth start.depth)) :
    (expressionWithin strictBlocks levels bound start).Reaches goal := by
  cases levels with
  | zero =>
      unfold expressionWithin
      refine reaches_nested (reaches_descend_bind fun within => ?_)
      omega
  | succ fewer =>
      unfold expressionWithin
      refine reaches_nested (reaches_descend_bind fun _ => ?_)
      exact inside fewer (by omega)

theorem reaches_blockWithin
    {goal : Block → Cursor → Prop}
    (inside :
      ∀ fewer,
        nestingLimit ≤ fewer + (start.depth + 1) →
          (blockBody strictBlocks (routinesWithin strictBlocks fewer)
            (start.atDepth (start.depth + 1))).Reaches fun tree inner =>
              goal tree (inner.atDepth start.depth)) :
    (blockWithin strictBlocks levels start).Reaches goal := by
  cases levels with
  | zero =>
      unfold blockWithin
      refine reaches_nested (reaches_descend_bind fun within => ?_)
      omega
  | succ fewer =>
      unfold blockWithin
      refine reaches_nested (reaches_descend_bind fun _ => ?_)
      exact inside fewer (by omega)

/-- An operator that binds tighter than the bound is applied. -/
theorem reaches_operatorsWithin
    {left : Expression}
    {form : OperatorForm}
    {goal : Expression → Cursor → Prop}
    (isOperator : start.stream.peek.kind.operatorForm? = some form)
    (tighter : bound.rank < start.stream.peek.kind.precedence.rank)
    (inside :
      ∀ fewer,
        nestingLimit ≤ fewer + (start.depth + 1) →
          ((operatorOf (routinesWithin strictBlocks fewer) left
              start.stream.peek.kind.precedence form >>=
            operatorsWithin strictBlocks fewer bound)
              (start.atDepth (start.depth + 1)).advance).Reaches goal) :
    (operatorsWithin strictBlocks levels bound left start).Reaches goal := by
  have applies : bound < start.stream.peek.kind.precedence :=
    tighter
  cases levels with
  | zero =>
      unfold operatorsWithin operatorOr
      simp only [peekKind_bind_apply, isOperator, applies, ↓reduceIte]
      refine reaches_descend_bind fun within => ?_
      omega
  | succ fewer =>
      unfold operatorsWithin operatorOr
      simp only [peekKind_bind_apply, isOperator, applies, ↓reduceIte]
      refine reaches_descend_bind fun _ => ?_
      rw [advance_bind_apply]
      exact inside fewer (by omega)

end Reaching

/-- What does not bind tighter than the bound ends an expression. -/
theorem reaches_operatorsWithin_of_stops
    {left : Expression}
    {goal : Expression → Cursor → Prop}
    (stops : start.stream.peek.kind.StopsAt bound)
    (holds : goal left start) :
    (operatorsWithin strictBlocks levels bound left start).Reaches goal := by
  have complete
      (apply : OperatorForm → Precedence → Parse Expression) :
      (operatorOr bound left apply start).Reaches goal := by
    unfold operatorOr
    rw [peekKind_bind_apply]
    cases isOperator : start.stream.peek.kind.operatorForm? with
    | none =>
        exact reaches_mk.mpr holds
    | some form =>
        have loose : ¬ bound < start.stream.peek.kind.precedence :=
          Nat.not_lt.mpr (stops form isOperator)
        simp only [loose, ↓reduceIte]
        exact reaches_mk.mpr holds
  cases levels with
  | zero =>
      unfold operatorsWithin
      exact complete _
  | succ fewer =>
      unfold operatorsWithin
      exact complete _

/-- At the end of input no statement is left. -/
theorem programStatements_of_ended
    {count : Nat}
    (ended : start.stream.ahead = []) :
    programStatements strictBlocks count start = ⟨some [], start, []⟩ := by
  cases count with
  | zero =>
      rfl
  | succ count =>
      have final := start.stream.current_kind_eq_endOfInput_iff.mpr ended
      simp [programStatements, final]

/-- Reading a program always ends with one. -/
theorem programStatements_ends (strictBlocks : Bool) (count : Nat) (start : Cursor) :
    ∃ trees, (programStatements strictBlocks count start).result? = some trees := by
  induction count generalizing start with
  | zero =>
      exact ⟨[], rfl⟩
  | succ count inductionHypothesis =>
      simp only [programStatements, current_bind_apply, ite_apply]
      split
      · exact ⟨[], rfl⟩
      · rw [bind_apply_of_some rfl, setDepth_bind_apply,
          bind_apply_of_some rfl, advance_bind_apply, andSoOn_eq]
        obtain ⟨others, ends⟩ := inductionHypothesis _
        exact ⟨_, by
          simp only [Functor.map, mapResult]
          rw [ends]
          rfl⟩

/-- Reading a program is reading its statements, and closing it. -/
theorem program_eq_finishing (strictBlocks : Bool) (start : Cursor) :
    program strictBlocks start =
      finishing (programStatements strictBlocks start.stream.ahead.length) start := by
  simp only [program, finishing, rounds_bind_apply]

end Parse

namespace Parsed

/-- All diagnostics are recorded while statements are read. -/
theorem diagnostics_ofTokens (strictBlocks : Bool) (tokens : List Token) :
    (ofTokens strictBlocks tokens).diagnostics =
      Event.diagnostics
        (Parse.programStatements strictBlocks
          (TokenStream.beforeEnd tokens).length
          (Cursor.ofStream (TokenStream.ofTokens tokens))).events := by
  simp only [diagnostics, ofTokens, ofStream, ofPlace,
    Parse.program_eq_finishing, Parse.finishing, Event.diagnostics_append]
  exact List.append_nil _

/-- What is kept of a program is what reading its statements gives. -/
theorem gives_statements (strictBlocks : Bool) (tokens : List Token) :
    ∃ after,
      (Parse.programStatements strictBlocks (TokenStream.beforeEnd tokens).length
        (Cursor.ofStream (TokenStream.ofTokens tokens))).Gives
          ((ofTokens strictBlocks tokens).diagnostics = [])
          (ofTokens strictBlocks tokens).program.statements after := by
  obtain ⟨trees, ends⟩ :=
    Parse.programStatements_ends strictBlocks
      (TokenStream.beforeEnd tokens).length
      (Cursor.ofStream (TokenStream.ofTokens tokens))
  have kept : (ofTokens strictBlocks tokens).program.statements = trees := by
    simp only [ofTokens, ofStream, ofPlace, Parse.program_eq_finishing,
      Parse.finishing]
    rw [show (Cursor.ofStream (TokenStream.ofTokens tokens)).stream.ahead =
      TokenStream.beforeEnd tokens from rfl, ends]
    rfl
  rw [kept, diagnostics_ofTokens]
  exact ⟨_, ends, rfl, id⟩

end Parsed

end Scriptlet
