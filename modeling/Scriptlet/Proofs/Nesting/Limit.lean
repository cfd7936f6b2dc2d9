import Scriptlet.Proofs.Nesting.Height
import Scriptlet.Proofs.Parse.Levels

namespace Scriptlet

/-!
# What the nesting limit bounds

The levels of a parse bound the straight paths of the trees it gives: those that
step into no left operand and into no callee.  They do not bound the others.  An
operator is applied to an expression whose own levels are closed again, so that
each of the operators that follow adds to its height.  What the limit then
allows is the sum of the levels, not their number.
-/

namespace Parse

variable
  {leftToo : Bool}
  {ceiling levels : Nat}
  {strictBlocks : Bool}
  {routines : Routines Cursor}
  {start after : Cursor}

/--
The height of what is read within some levels.  Every level adds one; what
stands to the left can grow by all the levels inside as well.
-/
def tallest (leftToo : Bool) : Nat → Nat
  | 0 =>
      0
  | levels + 1 =>
      1 + tallest leftToo levels + if leftToo then levels else 0

theorem tallest_straight : tallest false levels = levels := by
  induction levels with
  | zero =>
      rfl
  | succ levels inductionHypothesis =>
      simp only [tallest, inductionHypothesis, Bool.false_eq_true, ↓reduceIte]
      omega

/-- With left operands, heights are bounded by the sum of the levels. -/
theorem two_mul_tallest_left :
    2 * tallest true levels = levels * (levels + 1) := by
  induction levels with
  | zero =>
      rfl
  | succ levels inductionHypothesis =>
      simp only [tallest, ↓reduceIte, Nat.mul_add, inductionHypothesis]
      simp only [Nat.add_mul]
      omega

/-- What is nested is no taller than a ceiling. -/
structure BoundedRoutines
    (leftToo : Bool)
    (ceiling : Nat)
    (routines : Routines Cursor) :
    Prop where
  expression :
    ∀ {bound start tree after},
      (routines.expression bound start).Gives False tree after →
        tree.heightOver leftToo ≤ ceiling
  block :
    ∀ {start tree after},
      (routines.block start).Gives False tree after →
        tree.heightOver leftToo ≤ ceiling

section Routines

variable (bounded : BoundedRoutines leftToo ceiling routines)

include bounded

theorem height_alternative
    {tree? : Option Block}
    (given : (alternative routines start).Gives False tree? after) :
    Block.heightOver? leftToo tree? ≤ ceiling := by
  unfold alternative at given
  simp only [peekKind_bind_apply, ite_apply] at given
  split at given
  · simp only [advance_bind_apply, gives_bind, pure_apply, gives_mk] at given
    obtain ⟨_, _, -, inner, _, givenInner, rfl, -⟩ := given
    exact bounded.block givenInner
  · simp only [pure_apply, gives_mk] at given
    obtain ⟨rfl, -⟩ := given
    exact Nat.zero_le _

/-- An operand is at most one taller than what is nested in it. -/
theorem height_operand
    {tree : Expression}
    (given : (operand routines start).Gives False tree after) :
    tree.heightOver leftToo ≤ 1 + ceiling := by
  unfold operand at given
  rw [current_bind_apply] at given
  cases introduces : start.stream.current.kind.operandForm? with
  | none =>
      simp [introduces] at given
  | some form =>
      simp only [introduces] at given
      cases form with
      | identifier =>
          simp only [operandOf, identifier, current_bind_apply, pure_apply,
            gives_mk] at given
          rw [given.1]
          exact Nat.le_add_right _ _
      | integer =>
          simp only [operandOf, integer, current_bind_apply] at given
          cases text : Text.readInteger? start.stream.current.value with
          | none =>
              simp [text] at given
          | some value =>
              simp only [text, pure_apply, gives_mk] at given
              rw [given.1]
              exact Nat.le_add_right _ _
      | string =>
          simp only [operandOf, string, current_bind_apply, pure_apply,
            gives_mk] at given
          rw [given.1]
          exact Nat.le_add_right _ _
      | boolean =>
          simp only [operandOf, boolean, current_bind_apply, pure_apply,
            gives_mk] at given
          rw [given.1]
          exact Nat.le_add_right _ _
      | prefixed =>
          simp only [operandOf, prefixed, advance_bind_apply, gives_bind,
            pure_apply, gives_mk] at given
          obtain ⟨right, _, givenRight, rfl, -⟩ := given
          exact Nat.add_le_add_left (bounded.expression givenRight) 1
      | grouping =>
          simp only [operandOf, grouping, advance_bind_apply, gives_bind,
            pure_apply, gives_mk] at given
          obtain ⟨inner, _, givenInner, _, _, -, rfl, -⟩ := given
          exact Nat.le_trans (bounded.expression givenInner)
            (Nat.le_add_left _ _)
      | conditional =>
          simp only [operandOf, conditional, current_bind_apply,
            advance_bind_apply, gives_bind, pure_apply, gives_mk] at given
          obtain ⟨_, _, -, condition, _, givenCondition, _, _, -, _, _, -,
            consequence, _, givenConsequence, alternative?, _,
            givenAlternative, rfl, -⟩ := given
          have bounds : Nat.max _ (Nat.max _ _) ≤ ceiling :=
            Nat.max_le.mpr ⟨bounded.expression givenCondition,
              Nat.max_le.mpr ⟨bounded.block givenConsequence,
                height_alternative bounded givenAlternative⟩⟩
          exact Nat.add_le_add_left bounds 1
      | function =>
          simp only [operandOf, function, current_bind_apply, gives_bind,
            pure_apply, gives_mk] at given
          obtain ⟨_, _, -, names, _, -, _, _, -, body, _, givenBody, rfl, -⟩ :=
            given
          exact Nat.add_le_add_left (bounded.block givenBody) 1

theorem height_moreArguments
    {count : Nat}
    {trees : List Expression}
    (given : (moreArguments routines count start).Gives False trees after) :
    Expression.heightsOver leftToo trees ≤ ceiling := by
  induction count generalizing start trees with
  | zero =>
      simp only [moreArguments, pure_apply, gives_mk] at given
      rw [given.1]
      exact Nat.zero_le _
  | succ count inductionHypothesis =>
      simp only [moreArguments, peekKind_bind_apply, ite_apply] at given
      split at given
      · simp only [advance_bind_apply, gives_bind, andSoOn_eq, gives_map] at given
        obtain ⟨first, _, givenFirst, others, givenOthers, rfl⟩ := given
        exact Nat.max_le.mpr ⟨bounded.expression givenFirst,
          inductionHypothesis givenOthers⟩
      · simp only [pure_apply, gives_mk] at given
        rw [given.1]
        exact Nat.zero_le _

theorem height_arguments
    {trees : List Expression}
    (given : (arguments routines start).Gives False trees after) :
    Expression.heightsOver leftToo trees ≤ ceiling := by
  unfold arguments at given
  simp only [peekKind_bind_apply, ite_apply] at given
  split at given
  · simp only [advance_bind_apply, pure_apply, gives_mk] at given
    rw [given.1]
    exact Nat.zero_le _
  · simp only [advance_bind_apply, gives_bind, rounds_bind_apply, pure_apply,
      gives_mk] at given
    obtain ⟨first, _, givenFirst, others, _, givenOthers, _, _, -, rfl, -⟩ :=
      given
    exact Nat.max_le.mpr ⟨bounded.expression givenFirst,
      height_moreArguments bounded givenOthers⟩

/-- An operator stands on what is to its left and on what is nested in it. -/
theorem height_operatorOf
    {left tree : Expression}
    {precedence : Precedence}
    {form : OperatorForm}
    (given :
      (operatorOf routines left precedence form start).Gives
        False tree after) :
    tree.heightOver leftToo ≤
      1 + max (if leftToo then left.heightOver leftToo else 0) ceiling := by
  cases form with
  | binary =>
      simp only [operatorOf, binary, advance_bind_apply, gives_bind, pure_apply,
        gives_mk] at given
      obtain ⟨right, _, givenRight, rfl, -⟩ := given
      have rightBound := bounded.expression givenRight
      simp only [Expression.heightOver]
      omega
  | call =>
      simp only [operatorOf, call, current_bind_apply, gives_bind, pure_apply,
        gives_mk] at given
      obtain ⟨values, _, givenValues, rfl, -⟩ := given
      have valuesBound := height_arguments bounded givenValues
      simp only [Expression.heightOver]
      omega

theorem height_statement
    {tree : Statement}
    (given : (statement routines start).Gives False tree after) :
    tree.heightOver leftToo ≤ ceiling := by
  have stated := gives_statement given
  cases introduces : start.stream.current.kind.statementForm? with
  | none =>
      simp only [introduces, statementOf, expressionStatement,
        current_bind_apply, gives_bind, pure_apply, gives_mk] at stated
      obtain ⟨value, _, givenValue, _, _, -, rfl, -⟩ := stated
      exact bounded.expression givenValue
  | some form =>
      cases form with
      | binding =>
          simp only [introduces, statementOf, binding, current_bind_apply,
            advance_bind_apply, gives_bind, pure_apply, gives_mk] at stated
          obtain ⟨_, _, -, _, _, -, value, _, givenValue, _, _, -, rfl, -⟩ :=
            stated
          exact bounded.expression givenValue
      | returning =>
          simp only [introduces, statementOf, returning, advance_bind_apply,
            gives_bind, pure_apply, gives_mk] at stated
          obtain ⟨value, _, givenValue, _, _, -, rfl, -⟩ := stated
          exact bounded.expression givenValue

/-- A statement that is kept, in front of others that are no taller. -/
theorem height_attempt_statement
    {statement? : Option Statement}
    {others : List Statement}
    (given :
      (attempt (statement routines) start).Gives False statement? after)
    (othersBound : Statement.heightsOver leftToo others ≤ ceiling) :
    Statement.heightsOver leftToo (statement?.toList ++ others) ≤ ceiling := by
  rw [gives_attempt] at given
  cases statement? with
  | none =>
      exact othersBound
  | some tree =>
      exact Nat.max_le.mpr ⟨height_statement bounded given, othersBound⟩

theorem height_statements
    {count : Nat}
    {trees : List Statement}
    (given : (statements routines count start).Gives False trees after) :
    Statement.heightsOver leftToo trees ≤ ceiling := by
  induction count generalizing start trees with
  | zero =>
      simp only [statements, pure_apply, gives_mk] at given
      rw [given.1]
      exact Nat.zero_le _
  | succ count inductionHypothesis =>
      simp only [statements, currentKind_bind_apply, ite_apply] at given
      split at given
      · simp only [pure_apply, gives_mk] at given
        rw [given.1]
        exact Nat.zero_le _
      · simp only [gives_bind, advance_bind_apply, andSoOn_eq, gives_map] at given
        obtain ⟨statement?, _, attempted, others, givenOthers, rfl⟩ := given
        exact height_attempt_statement bounded attempted
          (inductionHypothesis givenOthers)

theorem height_blockBody
    {tree : Block}
    (given : (blockBody strictBlocks routines start).Gives False tree after) :
    tree.heightOver leftToo ≤ 1 + ceiling := by
  unfold blockBody at given
  simp only [advance_bind_apply, rounds_bind_apply, current_bind_apply,
    gives_bind, ite_apply] at given
  obtain ⟨inner, _, givenInner, finished⟩ := given
  split at finished
  · exact (not_gives_reject finished).elim
  · simp only [pure_apply, gives_mk] at finished
    rw [finished.1]
    exact Nat.add_le_add_left (height_statements bounded givenInner) 1

end Routines

/--
Within their levels all routines keep to the height the levels allow.  Operators
are applied to an expression of any height and raise it by their number.
-/
theorem height_within :
    BoundedRoutines leftToo (tallest leftToo levels)
        (routinesWithin strictBlocks levels) ∧
      ∀ {bound start left tree after ceiling},
        left.heightOver leftToo ≤ ceiling →
        tallest leftToo levels < ceiling →
        (operatorsWithin strictBlocks levels bound left start).Gives
          False tree after →
          tree.heightOver leftToo ≤
            ceiling + if leftToo then levels else 0 := by
  induction levels using Nat.strongRecOn with
  | ind levels inductionHypothesis =>
      refine ⟨⟨?_, ?_⟩, ?_⟩
      · intro bound start tree after given
        obtain ⟨fewer, left, middle, inner, rfl, read, applied, -⟩ :=
          gives_expressionWithin given
        obtain ⟨bounded, operatorsBounded⟩ :=
          inductionHypothesis fewer (Nat.lt_succ_self fewer)
        have leftBound := height_operand bounded read
        exact operatorsBounded leftBound (by omega) applied
      · intro start tree after given
        obtain ⟨fewer, inner, rfl, body, -⟩ := gives_blockWithin given
        have bounded :=
          (inductionHypothesis fewer (Nat.lt_succ_self fewer)).1
        exact Nat.le_trans (height_blockBody bounded body)
          (Nat.le_add_right _ _)
      · intro bound start left tree after ceiling leftBound below given
        rcases gives_operatorsWithin given with
          ⟨-, rfl, -⟩ |
          ⟨fewer, form, bigger, middle, rfl, -, -, once, others⟩
        · omega
        · obtain ⟨bounded, operatorsBounded⟩ :=
            inductionHypothesis fewer (Nat.lt_succ_self fewer)
          have biggerBound := height_operatorOf bounded once
          simp only [tallest] at below
          cases leftToo with
          | false =>
              simp only [Bool.false_eq_true, ↓reduceIte] at *
              exact operatorsBounded (by omega) (by omega) others
          | true =>
              simp only [↓reduceIte] at *
              have raised :
                  tree.heightOver true ≤ ceiling + 1 + fewer :=
                operatorsBounded (by omega) (by omega) others
              omega

/-- The statements of a program keep to the height that all levels allow. -/
theorem height_programStatements
    {count : Nat}
    {trees : List Statement}
    (given :
      (programStatements strictBlocks count start).Gives False trees after) :
    Statement.heightsOver leftToo trees ≤ tallest leftToo nestingLimit := by
  induction count generalizing start trees with
  | zero =>
      rcases gives_programStatements given with
        ⟨rfl, -⟩ | ⟨fewer, _, _, _, impossible, _⟩
      · exact Nat.zero_le _
      · omega
  | succ count inductionHypothesis =>
      rcases gives_programStatements given with
        ⟨rfl, -⟩ |
        ⟨fewer, statement?, middle, others, same, -, attempted, givenOthers,
          rfl⟩
      · exact Nat.zero_le _
      · obtain rfl : count = fewer := by
          omega
        exact height_attempt_statement height_within.1 attempted
          (inductionHypothesis givenOthers)

end Parse

theorem Statement.heightOver_le_heightsOver
    {leftToo : Bool}
    {statement : Statement}
    {statements : List Statement}
    (member : statement ∈ statements) :
    statement.heightOver leftToo ≤ Statement.heightsOver leftToo statements := by
  induction statements with
  | nil =>
      contradiction
  | cons first rest inductionHypothesis =>
      rw [Statement.heightsOver]
      rcases List.mem_cons.mp member with rfl | inRest
      · exact Nat.le_max_left _ _
      · exact Nat.le_trans (inductionHypothesis inRest) (Nat.le_max_right _ _)

namespace Parsed

variable {strictBlocks : Bool} {tokens : List Token} {statement : Statement}

theorem heightOver_le
    (leftToo : Bool)
    (kept : statement ∈ (ofTokens strictBlocks tokens).program.statements) :
    statement.heightOver leftToo ≤ Parse.tallest leftToo nestingLimit := by
  obtain ⟨after, ends, stops, -⟩ := gives_statements strictBlocks tokens
  have given :
      (Parse.programStatements strictBlocks
        (TokenStream.beforeEnd tokens).length
        (Cursor.ofStream (TokenStream.ofTokens tokens))).Gives False
          (ofTokens strictBlocks tokens).program.statements after :=
    ⟨ends, stops, False.elim⟩
  exact Nat.le_trans (Statement.heightOver_le_heightsOver kept)
    (Parse.height_programStatements given)

/--
The limit bounds the straight paths of a statement, and its height exactly when
no path through a left operand or a callee is longer.  The height itself is
bounded by the sum of the levels.
-/
theorem height_le_limit_iff
    (kept : statement ∈ (ofTokens strictBlocks tokens).program.statements) :
    statement.straightHeight ≤ nestingLimit ∧
      2 * statement.height ≤ nestingLimit * (nestingLimit + 1) ∧
      (statement.height ≤ nestingLimit ↔
        ∀ left ∈ statement.leftParts, left.height ≤ nestingLimit) := by
  have straight : statement.straightHeight ≤ nestingLimit := by
    have bounded := heightOver_le false kept
    rw [Parse.tallest_straight] at bounded
    exact bounded
  have tall : 2 * statement.height ≤ nestingLimit * (nestingLimit + 1) := by
    rw [← Parse.two_mul_tallest_left]
    exact Nat.mul_le_mul_left 2 (heightOver_le true kept)
  refine ⟨straight, tall, ?_⟩
  have splits := statement.splits nestingLimit 0
  simp only [Splits, Nat.zero_add] at splits
  rw [Statement.height, splits]
  exact and_iff_right straight

/-- Minus signs in front of a sum, of which they negate the left operand. -/
def negatedSum (signs : Nat) : List Token :=
  List.replicate signs ⟨.dash, "-", Span.null⟩ ++
    [⟨.number, "1", Span.null⟩, ⟨.plus, "+", Span.null⟩,
      ⟨.number, "1", Span.null⟩]

/-- Two signs stay within the limit, to the left as well. -/
theorem height_le_limit_iff_two_signs :
    ∃ statement ∈ (ofTokens true (negatedSum 2)).program.statements,
      statement.straightHeight ≤ nestingLimit ∧
        2 * statement.height ≤ nestingLimit * (nestingLimit + 1) ∧
        (statement.height ≤ nestingLimit ↔
          ∀ left ∈ statement.leftParts, left.height ≤ nestingLimit) := by
  have kept : (ofTokens true (negatedSum 2)).program.statements ≠ [] := by
    decide +kernel
  exact ⟨_, List.head_mem kept, height_le_limit_iff (List.head_mem kept)⟩

/-- One sign less than the limit makes a tree that is taller than the limit. -/
theorem height_exceeds_limit :
    (ofTokens true (negatedSum 255)).diagnostics = [] ∧
      ∃ statement ∈ (ofTokens true (negatedSum 255)).program.statements,
        nestingLimit < statement.height := by
  decide +kernel

end Parsed

end Scriptlet
