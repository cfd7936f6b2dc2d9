import Scriptlet.Proofs.Canonical.Depth
import Scriptlet.Proofs.Canonical.Printed
import Scriptlet.Proofs.Grammar.Completeness
import Scriptlet.Proofs.Parse.Settling

namespace Scriptlet

/-!
# What reading a canonical form needs

The tokens of a canonical form lead the parser to its tree exactly when the
depth of the form fits into the levels that are still free; otherwise the limit
is met.  The argument follows the grammar of canonical forms.

An expression may be what calls and operators are applied to.  Its operand and
the calls in it are therefore followed up to whatever comes after them, where
one level more is open for each call.
-/

namespace Parse

variable
  {strictBlocks : Bool}
  {levels opened depth : Nat}
  {start : Cursor}
  {rest : List Token}
  {final : Token}
  {fits : Prop}

/--
The step ends with the tree, on the last token in front of the rest, if the
levels it opens are still free, and otherwise meets the limit.
-/
def Lands
    (step : Parse α)
    (start : Cursor)
    (depth : Nat)
    (rest : List Token)
    (final : Token)
    (opened : Nat)
    (tree : α) :
    Prop :=
  (step start).Settles (depth ≤ nestingLimit - opened) fun value after =>
    value = tree ∧ after.Before rest final opened

/-- What follows a step goes on from the tree it lands on. -/
theorem Lands.bind
    {step : Parse α}
    {next : α → Parse β}
    {tree : α}
    {goal : β → Cursor → Prop}
    (landed : Lands step start depth rest final opened tree)
    (later :
      ∀ middle,
        middle.Before rest final opened →
          (next tree middle).Settles fits goal) :
    ((step >>= next) start).Settles
      (depth ≤ nestingLimit - opened ∧ fits) goal := by
  apply settles_bind
  apply landed.mono
  rintro value middle ⟨rfl, here⟩
  exact later middle here

/-- Where nothing that follows opens a level, the depth of the step decides. -/
theorem Lands.bind_flat
    {step : Parse α}
    {next : α → Parse β}
    {tree : α}
    {goal : β → Cursor → Prop}
    (landed : Lands step start depth rest final opened tree)
    (later :
      ∀ middle,
        middle.Before rest final opened →
          (next tree middle).Settles True goal) :
    ((step >>= next) start).Settles (depth ≤ nestingLimit - opened) goal :=
  (landed.bind later).congr (by simp)

/-- What is read at the same depth has to fit as well. -/
theorem Lands.bind_max
    {step : Parse α}
    {next : α → Parse β}
    {tree : α}
    {laterDepth : Nat}
    {goal : β → Cursor → Prop}
    (landed : Lands step start depth rest final opened tree)
    (later :
      ∀ middle,
        middle.Before rest final opened →
          (next tree middle).Settles (laterDepth ≤ nestingLimit - opened)
            goal) :
    ((step >>= next) start).Settles
      (max depth laterDepth ≤ nestingLimit - opened) goal :=
  (landed.bind later).congr Nat.max_le

theorem Lands.attempt
    {step : Parse α}
    {tree : α}
    (landed : Lands step start depth rest final opened tree) :
    Lands (attempt step) start depth rest final opened (some tree) := by
  apply settles_attempt
  apply landed.mono
  rintro value after ⟨rfl, before⟩
  exact ⟨rfl, before⟩

/-- A step without a level in it is no obstacle to what follows. -/
theorem Finds.settles_bind
    {step : Parse α}
    [Shallow step]
    {next : α → Parse β}
    {tree : α}
    {goal : β → Cursor → Prop}
    (found : Finds step start rest final opened tree)
    (later :
      ∀ middle,
        middle.Before rest final opened →
          (next tree middle).Settles fits goal) :
    ((step >>= next) start).Settles fits goal := by
  have settled :
      (step start).Settles True fun value middle =>
        (next value middle).Settles fits goal := by
    apply (Outcome.Reaches.settles found).mono
    rintro value middle ⟨rfl, here⟩
    exact later middle here
  exact (Parse.settles_bind settled).congr (by simp)

theorem settles_expect_bind
    {token : Token}
    {kind : TokenKind}
    {next : Token → Parse β}
    {goal : β → Cursor → Prop}
    (here : start.Before (token :: rest) final opened)
    (expected : token.kind = kind)
    (later :
      ∀ middle,
        middle.At (token :: rest) final opened →
          (next token middle).Settles fits goal) :
    ((expect kind >>= next) start).Settles fits goal := by
  have next : start.stream.peek = token :=
    here.peek
  rw [expect_bind_apply (by rw [next, expected]), next]
  exact later start.advance here.advance

/-- What opens no level always fits. -/
theorem settles_flat
    {value : α}
    {goal : α → Cursor → Prop}
    (holds : goal value start) :
    (⟨some value, start, []⟩ : Outcome Cursor α).Settles
      (0 ≤ nestingLimit - opened) goal :=
  (settles_mk holds).congr (by simp)

/--
An operand and the operators of one expression lead to the tree, in front of
what ends the expression, if they open no more levels than are free.
-/
def Inside
    (strictBlocks : Bool)
    (bound : Precedence)
    (tokens : List Token)
    (depth : Nat)
    (tree : Expression) :
    Prop :=
  ∀ ⦃levels opened start rest final⦄,
    nestingLimit ≤ levels + opened →
    start.At (tokens ++ rest) final opened →
    (rest.headD final).kind ≠ .elseWord →
    (rest.headD final).kind.operatorForm? = none →
    ((operand (routinesWithin strictBlocks levels) >>=
      operatorsWithin strictBlocks levels bound) start).Settles
        (depth ≤ nestingLimit - opened) fun value after =>
          value = tree ∧ ∃ deeper, after.Before rest final deeper

/--
The tokens of a phrase lead the parser to its tree, if its canonical form is no
deeper than the levels that are free.  For an expression this says how far its
operand and the calls in it lead, whatever bound they are read with.
-/
def Settled
    (strictBlocks : Bool) :
    (phrase : Phrase) → List Token → phrase.Tree → Prop
  | .expression _, tokens, tree =>
      ∀ ⦃levels opened start rest final bound fits goal⦄,
        nestingLimit ≤ levels + opened →
        start.At (tokens ++ rest) final opened →
        (rest.headD final).kind ≠ .elseWord →
        bound.rank < Precedence.call.rank →
        (∀ fewer middle,
          nestingLimit ≤ fewer + (opened + tree.calls) →
          middle.Before rest final (opened + tree.calls) →
          (operatorsWithin strictBlocks fewer bound tree middle).Settles
            fits goal) →
        ((operand (routinesWithin strictBlocks levels) >>=
          operatorsWithin strictBlocks levels bound) start).Settles
            (tree.printedDepth ≤ nestingLimit - opened ∧ fits) goal
  | .arguments, tokens, trees =>
      ∀ ⦃levels opened start closing rest final⦄,
        nestingLimit ≤ levels + opened →
        start.Before (tokens ++ closing :: rest) final opened →
        closing.kind = .closeParen →
        Lands (arguments (routinesWithin strictBlocks levels)) start
          (Expression.printedDepths trees) rest final opened trees
  | .furtherArguments, tokens, trees =>
      ∀ ⦃levels opened start closing rest final count⦄,
        nestingLimit ≤ levels + opened →
        start.Before (tokens ++ closing :: rest) final opened →
        closing.kind = .closeParen →
        tokens.length ≤ count →
        Lands (moreArguments (routinesWithin strictBlocks levels) count) start
          (Expression.printedDepths trees) (closing :: rest) final opened trees
  | .alternative, tokens, tree? =>
      ∀ ⦃levels opened start rest final⦄,
        nestingLimit ≤ levels + opened →
        start.Before (tokens ++ rest) final opened →
        (rest.headD final).kind ≠ .elseWord →
        Lands (alternative (routinesWithin strictBlocks levels)) start
          (Block.printedDepth? tree?) rest final opened tree?
  | .block, tokens, tree =>
      ∃ opening inner,
        tokens = opening :: inner ∧
          opening.kind = .openCurly ∧
          ∀ ⦃levels opened start rest final⦄,
            nestingLimit ≤ levels + opened →
            start.At (tokens ++ rest) final opened →
            Lands (blockWithin strictBlocks levels) start tree.printedDepth
              rest final opened tree
  | .statement, tokens, tree =>
      ∀ ⦃levels opened start separator rest final⦄,
        nestingLimit ≤ levels + opened →
        start.At (tokens ++ (separator ++ rest)) final opened →
        Closes separator (rest.headD final).kind →
        Lands (statement (routinesWithin strictBlocks levels)) start
          tree.printedDepth rest final opened tree
  | .statements, tokens, trees =>
      ∀ ⦃levels opened start closing rest final count⦄,
        nestingLimit ≤ levels + opened →
        start.At (tokens ++ closing :: rest) final opened →
        closing.kind = .closeCurly →
        tokens.length ≤ count →
        (statements (routinesWithin strictBlocks levels) count start).Settles
          (Statement.printedDepths trees ≤ nestingLimit - opened)
          fun value after =>
            value = trees ∧ after.At (closing :: rest) final opened

section Expressions

variable {bound : Precedence} {tokens : List Token} {tree : Expression}

/-- An expression stands in one level of its own. -/
theorem Inside.lands
    (inside : Inside strictBlocks bound tokens depth tree)
    (enough : nestingLimit ≤ levels + opened)
    (here : start.At (tokens ++ rest) final opened)
    (notElse : (rest.headD final).kind ≠ .elseWord)
    (notOperator : (rest.headD final).kind.operatorForm? = none) :
    Lands ((routinesWithin strictBlocks levels).expression bound) start
      (1 + depth) rest final opened tree := by
  obtain ⟨ahead, last, rfl⟩ := here
  have settled :
      (expressionWithin strictBlocks levels bound start).Settles
        (start.depth + 1 ≤ nestingLimit ∧
          depth ≤ nestingLimit - (start.depth + 1))
        fun value after =>
          value = tree ∧ after.Before rest final start.depth := by
    refine settles_expressionWithin enough fun fewer enoughInside => ?_
    have deeper :
        (start.atDepth (start.depth + 1)).At (tokens ++ rest) final
          (start.depth + 1) :=
      ⟨ahead, last, rfl⟩
    apply (inside enoughInside deeper notElse notOperator).mono
    rintro value after ⟨rfl, _, before⟩
    exact ⟨rfl, before.atDepth⟩
  exact settled.congr (by omega)

theorem Settled.inside
    (settled : Settled strictBlocks (.expression .call) tokens tree)
    (loose : bound.rank < Precedence.call.rank) :
    Inside strictBlocks bound tokens tree.printedDepth tree := by
  intro levels opened start rest final enough here notElse notOperator
  have whole :
      ((operand (routinesWithin strictBlocks levels) >>=
        operatorsWithin strictBlocks levels bound) start).Settles
          (tree.printedDepth ≤ nestingLimit - opened ∧ True)
          fun value after =>
            value = tree ∧ ∃ deeper, after.Before rest final deeper := by
    refine settled enough here notElse loose fun fewer middle _ before => ?_
    rw [operatorsWithin_of_not_operator _ (by rw [before.peek, notOperator])]
    exact settles_mk ⟨rfl, _, before⟩
  exact whole.congr (by simp)

/-- A whole expression is read in front of what is no operator. -/
theorem Settled.lands_whole
    (settled : Settled strictBlocks (.expression .call) tokens tree)
    (enough : nestingLimit ≤ levels + opened)
    (here : start.At (tokens ++ rest) final opened)
    (notElse : (rest.headD final).kind ≠ .elseWord)
    (notOperator : (rest.headD final).kind.operatorForm? = none) :
    Lands ((routinesWithin strictBlocks levels).expression .lowest) start
      (1 + tree.printedDepth) rest final opened tree :=
  (settled.inside (by decide)).lands enough here notElse notOperator

/-- An operand that is no call is an expression. -/
theorem Settled.ofOperand
    (noCall : tree.calls = 0)
    (landed :
      ∀ {levels opened start rest final},
        nestingLimit ≤ levels + opened →
        start.At (tokens ++ rest) final opened →
        (rest.headD final).kind ≠ .elseWord →
        Lands (operand (routinesWithin strictBlocks levels)) start
          tree.printedDepth rest final opened tree) :
    Settled strictBlocks (.expression .call) tokens tree := by
  intro levels opened start rest final bound fits goal enough here notElse _
    later
  rw [noCall] at later
  exact (landed enough here notElse).bind fun middle before =>
    later levels middle enough before

/-- An operand of one token opens no level. -/
theorem Settled.ofToken
    {token : Token}
    (noCall : tree.calls = 0)
    (flat : tree.printedDepth = 0)
    (read :
      ∀ {routines opened rest final} {start : Cursor},
        start.At (token :: rest) final opened →
        operand routines start = ⟨some tree, start, []⟩) :
    Settled strictBlocks (.expression .call) [token] tree := by
  apply Settled.ofOperand noCall
  intro levels opened start rest final enough here notElse
  rw [Lands, read here, flat]
  exact settles_flat ⟨rfl, here.before⟩

end Expressions

section Operands

variable {token : Token} {tokens : List Token}

theorem settled_identifier
    (kind : token.kind = .identifier) :
    Settled strictBlocks (.expression .call) [token]
      (Expression.identifier (Name.ofToken token)) := by
  apply Settled.ofToken rfl rfl
  intro routines opened start rest final here
  rw [operand_apply here (by rw [kind]; rfl), operandOf, identifier,
    current_bind_apply, here.current, pure_apply]

theorem settled_integer
    {value : Int64}
    (kind : token.kind = .number)
    (text : Text.readInteger? token.value = some value) :
    Settled strictBlocks (.expression .call) [token]
      (Expression.integer token value) := by
  apply Settled.ofToken rfl rfl
  intro routines opened start rest final here
  rw [operand_apply here (by rw [kind]; rfl), operandOf, integer,
    current_bind_apply, here.current]
  simp only [text]
  rw [pure_apply]

theorem settled_string
    (kind : token.kind = .string) :
    Settled strictBlocks (.expression .call) [token]
      (Expression.string token token.value) := by
  apply Settled.ofToken rfl rfl
  intro routines opened start rest final here
  rw [operand_apply here (by rw [kind]; rfl), operandOf, string,
    current_bind_apply, here.current, pure_apply]

theorem settled_boolean
    {value : Bool}
    (kind : token.kind = if value then .trueWord else .falseWord) :
    Settled strictBlocks (.expression .call) [token]
      (Expression.boolean token value) := by
  apply Settled.ofToken rfl rfl
  intro routines opened start rest final here
  have introduces : token.kind.operandForm? = some .boolean := by
    cases value <;> simp [kind, TokenKind.operandForm?]
  have same : (token.kind == .trueWord) = value := by
    cases value <;> simp [kind]
  rw [operand_apply here introduces, operandOf, boolean, current_bind_apply,
    here.current, same, pure_apply]

/-- Parentheses are one level around what stands in them. -/
theorem settled_grouping
    {closing : Token}
    {tree : Expression}
    (opens : token.kind = .openParen)
    (inside : Inside strictBlocks .lowest tokens depth tree)
    (closes : closing.kind = .closeParen)
    (noCall : tree.calls = 0)
    (oneMore : tree.printedDepth = 1 + depth) :
    Settled strictBlocks (.expression .call) (token :: (tokens ++ [closing]))
      tree := by
  apply Settled.ofOperand noCall
  intro levels opened start rest final enough here notElse
  rw [List.cons_append, List.append_assoc, List.singleton_append] at here
  rw [Lands, operand_apply here (by rw [opens]; rfl), operandOf, grouping,
    advance_bind_apply]
  have landed :=
    inside.lands enough here.before.advance (by simp [closes])
      (by simp [closes, TokenKind.operatorForm?])
  rw [oneMore]
  refine landed.bind_flat fun middle before => ?_
  refine settles_expect_bind before closes fun middle here => ?_
  exact settles_mk ⟨rfl, here.before⟩

/-- A sign and what it stands in front of. -/
theorem inside_prefixed
    {right : Expression}
    (kind : token.kind = .dash ∨ token.kind = .not)
    (rightSettled : Settled strictBlocks (.expression .call) tokens right) :
    Inside strictBlocks .lowest (token :: tokens) (1 + right.printedDepth)
      (Expression.prefixed token token.value right) := by
  intro levels opened start rest final enough here notElse notOperator
  have introduces : token.kind.operandForm? = some .prefixed := by
    rcases kind with isDash | isNot
    · rw [isDash]
      rfl
    · rw [isNot]
      rfl
  have inner : Inside strictBlocks .unary tokens right.printedDepth right :=
    rightSettled.inside (by decide)
  have landed :=
    inner.lands enough here.before.advance notElse notOperator
  have read :
      Lands (operand (routinesWithin strictBlocks levels)) start
        (1 + right.printedDepth) rest final opened
        (Expression.prefixed token token.value right) := by
    rw [Lands, operand_apply here introduces, operandOf, prefixed,
      advance_bind_apply, here.current]
    refine landed.bind_flat fun middle before => ?_
    exact settles_mk ⟨rfl, before⟩
  refine read.bind_flat fun middle before => ?_
  rw [operatorsWithin_of_not_operator _ (by rw [before.peek, notOperator])]
  exact settles_mk ⟨rfl, _, before⟩

theorem settled_prefixed
    {opening closing : Token}
    {right : Expression}
    (opens : opening.kind = .openParen)
    (kind : token.kind = .dash ∨ token.kind = .not)
    (rightSettled : Settled strictBlocks (.expression .call) tokens right)
    (closes : closing.kind = .closeParen) :
    Settled strictBlocks (.expression .call)
      (opening :: token :: (tokens ++ [closing]))
      (Expression.prefixed token token.value right) := by
  refine settled_grouping opens (inside_prefixed kind rightSettled) closes rfl ?_
  rw [Expression.printedDepth]
  omega

theorem settled_conditional
    {opening closing : Token}
    {consequenceTokens alternativeTokens : List Token}
    {condition : Expression}
    {consequence : Block}
    {alternative? : Option Block}
    (kind : token.kind = .ifWord)
    (opens : opening.kind = .openParen)
    (conditionSettled :
      Settled strictBlocks (.expression .call) tokens condition)
    (closes : closing.kind = .closeParen)
    (consequenceSettled :
      Settled strictBlocks .block consequenceTokens consequence)
    (alternativeSettled :
      Settled strictBlocks .alternative alternativeTokens alternative?) :
    Settled strictBlocks (.expression .call)
      (token :: opening ::
        (tokens ++ closing :: (consequenceTokens ++ alternativeTokens)))
      (Expression.conditional token condition consequence alternative?) := by
  apply Settled.ofOperand rfl
  intro levels opened start rest final enough here notElse
  simp only [List.cons_append, List.append_assoc] at here
  rw [Lands, operand_apply here (by rw [kind]; rfl), operandOf, conditional,
    current_bind_apply, here.current, Expression.printedDepth]
  refine settles_expect_bind here.before opens fun middle here => ?_
  rw [advance_bind_apply]
  have conditionLanded :=
    conditionSettled.lands_whole enough here.before.advance (by simp [closes])
      (by simp [closes, TokenKind.operatorForm?])
  refine conditionLanded.bind_max fun middle before => ?_
  refine settles_expect_bind before closes fun middle here => ?_
  obtain ⟨_, _, rfl, opensBlock, consequenceLanded⟩ := consequenceSettled
  refine settles_expect_bind here.before opensBlock fun middle here => ?_
  refine (consequenceLanded enough here).bind_max fun middle before => ?_
  refine (alternativeSettled enough before notElse).bind_flat
    fun middle before => ?_
  exact settles_mk ⟨rfl, before⟩

theorem settled_noAlternative :
    Settled strictBlocks .alternative [] none := by
  intro levels opened start rest final enough before notElse
  rw [List.nil_append] at before
  rw [Lands, alternative, peekKind_bind_apply, before.peek, if_neg notElse,
    pure_apply, Block.printedDepth?]
  exact settles_flat ⟨rfl, before⟩

theorem settled_someAlternative
    {inner : Block}
    (kind : token.kind = .elseWord)
    (innerSettled : Settled strictBlocks .block tokens inner) :
    Settled strictBlocks .alternative (token :: tokens) (some inner) := by
  intro levels opened start rest final enough before notElse
  have next : start.stream.peek = token :=
    before.peek
  rw [Lands, alternative, peekKind_bind_apply, next, if_pos kind,
    advance_bind_apply, Block.printedDepth?]
  obtain ⟨_, _, rfl, opens, landed⟩ := innerSettled
  refine settles_expect_bind before.advance.before opens fun middle here => ?_
  refine (landed enough here).bind_flat fun middle before => ?_
  exact settles_mk ⟨rfl, before⟩

theorem settled_function
    {opening closing : Token}
    {bodyTokens : List Token}
    {names : List Name}
    {body : Block}
    (kind : token.kind = .fnWord)
    (opens : opening.kind = .openParen)
    (namesReading : ReadsNames tokens names)
    (closes : closing.kind = .closeParen)
    (bodySettled : Settled strictBlocks .block bodyTokens body) :
    Settled strictBlocks (.expression .call)
      (token :: opening :: (tokens ++ closing :: bodyTokens))
      (Expression.function token names body) := by
  apply Settled.ofOperand rfl
  intro levels opened start rest final enough here notElse
  simp only [List.cons_append, List.append_assoc] at here
  rw [Lands, operand_apply here (by rw [kind]; rfl), operandOf, function,
    current_bind_apply, here.current, Expression.printedDepth]
  refine settles_expect_bind here.before opens fun middle here => ?_
  have namesFound := finds_parameters namesReading here.before closes
  refine namesFound.settles_bind fun middle before => ?_
  obtain ⟨_, _, rfl, opensBlock, bodyLanded⟩ := bodySettled
  refine settles_expect_bind before opensBlock fun middle here => ?_
  refine (bodyLanded enough here).bind_flat fun middle before => ?_
  exact settles_mk ⟨rfl, before⟩

end Operands

section Operators

variable {token : Token} {tokens : List Token} {bound : Precedence}

/-- An operator is applied one level deeper than what is to its left. -/
theorem settles_operator_bind
    {form : OperatorForm}
    {left bigger : Expression}
    {goal : Expression → Cursor → Prop}
    (enough : nestingLimit ≤ levels + opened)
    (before : start.Before (token :: tokens) final opened)
    (isOperator : token.kind.operatorForm? = some form)
    (tighter : bound.rank < token.kind.precedence.rank)
    (landed :
      ∀ {levels opened start},
        nestingLimit ≤ levels + opened →
        start.At (token :: tokens) final opened →
        Lands
          (operatorOf (routinesWithin strictBlocks levels) left
            token.kind.precedence form)
          start depth rest final opened bigger)
    (later :
      ∀ fewer middle,
        nestingLimit ≤ fewer + (opened + 1) →
        middle.Before rest final (opened + 1) →
        (operatorsWithin strictBlocks fewer bound bigger middle).Settles
          fits goal) :
    (operatorsWithin strictBlocks levels bound left start).Settles
      (1 + depth ≤ nestingLimit - opened ∧ fits) goal := by
  have next : start.stream.peek = token :=
    before.peek
  have deeper :
      (start.atDepth (start.depth + 1)).Before (token :: tokens) final
        (start.depth + 1) :=
    before.atDepth
  obtain ⟨tail, last, rfl⟩ := before
  have settled :
      (operatorsWithin strictBlocks levels bound left start).Settles
        (start.depth + 1 ≤ nestingLimit ∧
          depth ≤ nestingLimit - (start.depth + 1) ∧ fits)
        goal := by
    refine settles_operatorsWithin enough (by rw [next, isOperator])
      (by rw [next]; exact tighter) fun fewer enoughInside => ?_
    rw [next]
    exact (landed enoughInside deeper.advance).bind fun middle before =>
      later fewer middle enoughInside before
  refine settled.congr ?_
  rw [← and_assoc]
  exact and_congr_left' (by omega)

/--
An operator is applied to an expression at the depth its calls have left open;
both have to fit.
-/
theorem Settled.applied
    {form : OperatorForm}
    {left bigger : Expression}
    {further : List Token}
    {goal : Expression → Cursor → Prop}
    (leftSettled : Settled strictBlocks (.expression .call) tokens left)
    (enough : nestingLimit ≤ levels + opened)
    (here : start.At (tokens ++ token :: further) final opened)
    (isOperator : token.kind.operatorForm? = some form)
    (tighter : bound.rank < token.kind.precedence.rank)
    (loose : bound.rank < Precedence.call.rank)
    (landed :
      ∀ {levels opened start},
        nestingLimit ≤ levels + opened →
        start.At (token :: further) final opened →
        Lands
          (operatorOf (routinesWithin strictBlocks levels) left
            token.kind.precedence form)
          start depth rest final opened bigger)
    (later :
      ∀ fewer middle,
        nestingLimit ≤ fewer + (opened + left.calls + 1) →
        middle.Before rest final (opened + left.calls + 1) →
        (operatorsWithin strictBlocks fewer bound bigger middle).Settles
          fits goal) :
    ((operand (routinesWithin strictBlocks levels) >>=
      operatorsWithin strictBlocks levels bound) start).Settles
        (max left.printedDepth (left.calls + 1 + depth) ≤
          nestingLimit - opened ∧ fits)
        goal := by
  have notElse : token.kind ≠ .elseWord := by
    intro isElse
    rw [isElse] at isOperator
    contradiction
  have settled :
      ((operand (routinesWithin strictBlocks levels) >>=
        operatorsWithin strictBlocks levels bound) start).Settles
          (left.printedDepth ≤ nestingLimit - opened ∧
            1 + depth ≤ nestingLimit - (opened + left.calls) ∧ fits)
          goal := by
    refine leftSettled enough here notElse loose
      fun fewer middle enoughMiddle before => ?_
    exact settles_operator_bind enoughMiddle before isOperator tighter landed
      later
  refine settled.congr ?_
  rw [← and_assoc]
  exact and_congr_left' (by omega)

/-- An operator between its operands. -/
theorem inside_binary
    {stratum : Stratum}
    {rightTokens : List Token}
    {left right : Expression}
    (leftSettled : Settled strictBlocks (.expression .call) tokens left)
    (kind : token.kind ∈ stratum.operators)
    (rightSettled :
      Settled strictBlocks (.expression .call) rightTokens right) :
    Inside strictBlocks .lowest (tokens ++ token :: rightTokens)
      (max left.printedDepth (left.calls + 2 + right.printedDepth))
      (Expression.binary token left token.value right) := by
  obtain ⟨isBinary, sameRank⟩ := Stratum.precedence_of_mem kind
  have loose : token.kind.precedence.rank < Precedence.call.rank := by
    rw [← sameRank]
    exact Stratum.rank_lt_rank_call_of_mem kind
  have tighter : Precedence.lowest.rank < token.kind.precedence.rank := by
    rw [← sameRank]
    exact bound_lt_of_mem kind (by cases stratum <;> decide)
  intro levels opened start rest final enough here notElse notOperator
  rw [List.append_assoc, List.cons_append] at here
  have landed
      {levels opened : Nat}
      {start : Cursor}
      (enough : nestingLimit ≤ levels + opened)
      (here : start.At (token :: (rightTokens ++ rest)) final opened) :
      Lands
        (operatorOf (routinesWithin strictBlocks levels) left
          token.kind.precedence .binary)
        start (1 + right.printedDepth) rest final opened
        (Expression.binary token left token.value right) := by
    rw [Lands, operatorOf, binary, advance_bind_apply, here.current]
    have inner :
        Inside strictBlocks token.kind.precedence rightTokens
          right.printedDepth right :=
      rightSettled.inside loose
    have rightLanded :=
      inner.lands enough here.before.advance notElse notOperator
    refine rightLanded.bind_flat fun middle before => ?_
    exact settles_mk ⟨rfl, before⟩
  have settled :
      ((operand (routinesWithin strictBlocks levels) >>=
        operatorsWithin strictBlocks levels .lowest) start).Settles
          (max left.printedDepth (left.calls + 1 + (1 + right.printedDepth)) ≤
            nestingLimit - opened ∧ True)
          fun value after =>
            value = Expression.binary token left token.value right ∧
              ∃ deeper, after.Before rest final deeper := by
    refine leftSettled.applied enough here isBinary tighter (by decide) landed
      fun fewer middle _ before => ?_
    rw [operatorsWithin_of_not_operator _ (by rw [before.peek, notOperator])]
    exact settles_mk ⟨rfl, _, before⟩
  exact settled.congr (by rw [and_true]; omega)

theorem settled_binary
    {stratum : Stratum}
    {opening closing : Token}
    {rightTokens : List Token}
    {left right : Expression}
    (opens : opening.kind = .openParen)
    (leftSettled : Settled strictBlocks (.expression .call) tokens left)
    (kind : token.kind ∈ stratum.operators)
    (rightSettled :
      Settled strictBlocks (.expression .call) rightTokens right)
    (closes : closing.kind = .closeParen) :
    Settled strictBlocks (.expression .call)
      (opening :: (tokens ++ token :: (rightTokens ++ [closing])))
      (Expression.binary token left token.value right) := by
  have shape :
      tokens ++ token :: (rightTokens ++ [closing]) =
        (tokens ++ token :: rightTokens) ++ [closing] := by
    rw [List.append_assoc, List.cons_append]
  rw [shape]
  refine settled_grouping opens
    (inside_binary leftSettled kind rightSettled) closes rfl ?_
  rw [Expression.printedDepth]

theorem settled_call
    {closing : Token}
    {argumentTokens : List Token}
    {callee : Expression}
    {values : List Expression}
    (calleeSettled : Settled strictBlocks (.expression .call) tokens callee)
    (opens : token.kind = .openParen)
    (argumentsSettled :
      Settled strictBlocks .arguments argumentTokens values)
    (closes : closing.kind = .closeParen) :
    Settled strictBlocks (.expression .call)
      (tokens ++ token :: (argumentTokens ++ [closing]))
      (Expression.call token callee values) := by
  intro levels opened start rest final bound fits goal enough here notElse
    loose later
  simp only [List.append_assoc, List.cons_append, List.nil_append] at here
  rw [Expression.printedDepth]
  refine calleeSettled.applied enough here (by rw [opens]; rfl)
    (by rw [opens]; exact loose) loose ?_ later
  intro levels opened start enough here
  rw [Lands, operatorOf, call, current_bind_apply, here.current]
  refine (argumentsSettled enough here.before closes).bind_flat
    fun middle before => ?_
  exact settles_mk ⟨rfl, before⟩

theorem settled_noArguments :
    Settled strictBlocks .arguments [] [] := by
  intro levels opened start closing rest final enough before closes
  have next : start.stream.peek = closing :=
    before.peek
  rw [Lands, arguments, peekKind_bind_apply, next, if_pos closes,
    advance_bind_apply, pure_apply, Expression.printedDepths]
  exact settles_flat ⟨rfl, before.advance.before⟩

theorem settled_someArguments
    {restTokens : List Token}
    {first : Expression}
    {others : List Expression}
    (firstPrinted : Prints (.expression .call) tokens first)
    (firstSettled : Settled strictBlocks (.expression .call) tokens first)
    (restPrinted : Prints .furtherArguments restTokens others)
    (restSettled :
      Settled strictBlocks .furtherArguments restTokens others) :
    Settled strictBlocks .arguments (tokens ++ restTokens)
      (first :: others) := by
  intro levels opened start closing rest final enough before closes
  obtain ⟨head, tail, rfl, introduces⟩ := firstPrinted.reads.head_operandForm
  rw [List.append_assoc] at before
  have next : start.stream.peek = head :=
    before.peek
  have notClosing : head.kind ≠ .closeParen := by
    intro isClosing
    rw [isClosing] at introduces
    contradiction
  rw [Lands, arguments, peekKind_bind_apply, next, if_neg notClosing,
    advance_bind_apply, Expression.printedDepths]
  obtain ⟨notElse, notOperator⟩ :=
    head_furtherArguments restPrinted.reads closes
  have firstLanded :=
    firstSettled.lands_whole enough before.advance notElse notOperator
  refine firstLanded.bind_max fun middle before => ?_
  rw [rounds_bind_apply]
  have enoughOthers : restTokens.length ≤ middle.stream.ahead.length := by
    have shorter := (List.tail_suffix middle.stream.ahead).length_le
    rw [before.tail, List.length_append] at shorter
    omega
  refine (restSettled enough before closes enoughOthers).bind_flat
    fun middle before => ?_
  refine settles_expect_bind before closes fun middle here => ?_
  exact settles_mk ⟨rfl, here.before⟩

theorem settled_lastArgument :
    Settled strictBlocks .furtherArguments [] [] := by
  intro levels opened start closing rest final count enough before closes _
  have found :
      moreArguments (routinesWithin strictBlocks levels) count start =
        ⟨some [], start, []⟩ := by
    cases count with
    | zero =>
        rw [moreArguments, pure_apply]
    | succ count =>
        have next : start.stream.peek = closing :=
          before.peek
        rw [moreArguments, peekKind_bind_apply, next,
          if_neg (by simp [closes]), pure_apply]
  rw [Lands, found, Expression.printedDepths]
  exact settles_flat ⟨rfl, before⟩

theorem settled_nextArgument
    {restTokens : List Token}
    {first : Expression}
    {others : List Expression}
    (separates : token.kind = .comma)
    (firstSettled : Settled strictBlocks (.expression .call) tokens first)
    (restPrinted : Prints .furtherArguments restTokens others)
    (restSettled :
      Settled strictBlocks .furtherArguments restTokens others) :
    Settled strictBlocks .furtherArguments (token :: (tokens ++ restTokens))
      (first :: others) := by
  intro levels opened start closing rest final count enough before closes long
  rw [List.cons_append, List.append_assoc] at before
  have next : start.stream.peek = token :=
    before.peek
  cases count with
  | zero =>
      simp at long
  | succ count =>
      rw [Lands, moreArguments, peekKind_bind_apply, next, if_pos separates,
        advance_bind_apply, advance_bind_apply, Expression.printedDepths]
      obtain ⟨notElse, notOperator⟩ :=
        head_furtherArguments restPrinted.reads closes
      have firstLanded :=
        firstSettled.lands_whole enough before.advance.before.advance notElse
          notOperator
      refine firstLanded.bind_max fun middle before => ?_
      have enoughOthers : restTokens.length ≤ count := by
        simp only [List.length_cons, List.length_append] at long
        omega
      rw [andSoOn_eq]
      apply settles_map
      apply (restSettled enough before closes enoughOthers).mono
      rintro values after ⟨rfl, before⟩
      exact ⟨rfl, before⟩

end Operators

section Statements

variable {token : Token} {tokens separator : List Token}

/-- The value of a statement is read up to what closes the statement. -/
theorem Settled.value_bind
    {value : Expression}
    {next : Expression → Parse Statement}
    {tree : Statement}
    (settled : Settled strictBlocks (.expression .call) tokens value)
    (enough : nestingLimit ≤ levels + opened)
    (here : start.At (tokens ++ (separator ++ rest)) final opened)
    (closes : Closes separator (rest.headD final).kind)
    (ends :
      next value = do
        skipSemicolon
        return tree) :
    (((routinesWithin strictBlocks levels).expression .lowest >>= next)
      start).Settles (1 + value.printedDepth ≤ nestingLimit - opened)
        fun result after =>
          result = tree ∧ after.Before rest final opened := by
  obtain ⟨notElse, notOperator⟩ := closes.ends
  refine (settled.lands_whole enough here notElse notOperator).bind_flat
    fun middle before => ?_
  rw [ends]
  refine (finds_skipSemicolon before closes).settles_bind
    fun middle before => ?_
  exact settles_mk ⟨rfl, before⟩

/-- The first token decides which form of statement is read. -/
theorem settles_statement
    {routines : Routines Cursor}
    {form? : Option StatementForm}
    {goal : Statement → Cursor → Prop}
    (here : start.At (token :: tokens) final opened)
    (introduces : token.kind.statementForm? = form?)
    (settled : (statementOf routines form? start).Settles fits goal) :
    (statement routines start).Settles fits goal := by
  apply settles_closing
  rw [currentKind_bind_apply, here.current, introduces]
  split
  · exact settles_emit_bind rfl settled
  · exact settled

theorem settled_binding
    {name sign : Token}
    {value : Expression}
    (kind : token.kind = .letWord)
    (named : name.kind = .identifier)
    (assigns : sign.kind = .assignment)
    (valueSettled : Settled strictBlocks (.expression .call) tokens value) :
    Settled strictBlocks .statement (token :: name :: sign :: tokens)
      (Statement.binding token (Name.ofToken name) value) := by
  intro levels opened start separator rest final enough here closes
  simp only [List.cons_append] at here
  have introduces : token.kind.statementForm? = some .binding := by
    rw [kind]
    rfl
  refine settles_statement here introduces ?_
  rw [statementOf, binding, current_bind_apply, here.current]
  refine settles_expect_bind here.before named fun middle here => ?_
  refine settles_expect_bind here.before assigns fun middle here => ?_
  rw [advance_bind_apply, Statement.printedDepth]
  exact valueSettled.value_bind enough here.before.advance closes rfl

theorem settled_returning
    {value : Expression}
    (kind : token.kind = .returnWord)
    (valueSettled : Settled strictBlocks (.expression .call) tokens value) :
    Settled strictBlocks .statement (token :: tokens)
      (Statement.returning token value) := by
  intro levels opened start separator rest final enough here closes
  have introduces : token.kind.statementForm? = some .returning := by
    rw [kind]
    rfl
  refine settles_statement here introduces ?_
  rw [statementOf, returning, advance_bind_apply, here.current,
    Statement.printedDepth]
  exact valueSettled.value_bind enough here.before.advance closes rfl

theorem settled_expressionStatement
    {value : Expression}
    (valuePrinted : Prints (.expression .call) (token :: tokens) value)
    (valueSettled :
      Settled strictBlocks (.expression .call) (token :: tokens) value) :
    Settled strictBlocks .statement (token :: tokens)
      (Statement.expression token value) := by
  intro levels opened start separator rest final enough here closes
  obtain ⟨first, others, shape, introduces⟩ :=
    valuePrinted.reads.head_operandForm
  obtain ⟨rfl, rfl⟩ := List.cons.inj shape
  have noForm : token.kind.statementForm? = none := by
    cases kind : token.kind <;>
      simp_all [TokenKind.operandForm?, TokenKind.statementForm?]
  refine settles_statement here noForm ?_
  rw [statementOf, expressionStatement, current_bind_apply, here.current,
    Statement.printedDepth]
  exact valueSettled.value_bind enough here closes rfl

theorem settled_noStatements :
    Settled strictBlocks .statements [] [] := by
  intro levels opened start closing rest final count enough here closes _
  rw [List.nil_append] at here
  have found :
      statements (routinesWithin strictBlocks levels) count start =
        ⟨some [], start, []⟩ := by
    cases count with
    | zero =>
        rw [statements, pure_apply]
    | succ count =>
        rw [statements, currentKind_bind_apply, here.current,
          if_pos (.inl closes), pure_apply]
  rw [found, Statement.printedDepths]
  exact settles_flat ⟨rfl, here⟩

theorem settled_someStatements
    {restTokens : List Token}
    {first : Statement}
    {others : List Statement}
    (firstPrinted : Prints .statement tokens first)
    (firstSettled : Settled strictBlocks .statement tokens first)
    (separates : Separates separator restTokens)
    (othersPrinted : Prints .statements restTokens others)
    (othersSettled : Settled strictBlocks .statements restTokens others) :
    Settled strictBlocks .statements (tokens ++ (separator ++ restTokens))
      (first :: others) := by
  intro levels opened start closing rest final count enough here closes long
  obtain ⟨head, tail, rfl, starts⟩ := firstPrinted.reads.head_statement
  simp only [List.append_assoc] at here
  cases count with
  | zero =>
      simp at long
  | succ count =>
      have ends : closing.kind.EndsStatement := by
        simp [closes, TokenKind.EndsStatement, TokenKind.operatorForm?]
      have firstLanded :=
        firstSettled enough here
          (closes_of_separates separates othersPrinted.reads ends)
      rw [statements, currentKind_bind_apply, here.current,
        if_neg starts.goesOn, Statement.printedDepths]
      refine firstLanded.attempt.bind_max fun middle before => ?_
      have enoughOthers : restTokens.length ≤ count := by
        simp only [List.length_cons, List.length_append] at long
        omega
      rw [advance_bind_apply, andSoOn_eq]
      apply settles_map
      apply (othersSettled enough before.advance closes enoughOthers).mono
      rintro values after ⟨rfl, here⟩
      exact ⟨rfl, here⟩

/-- A block is one level around its statements. -/
theorem settled_block
    {closing : Token}
    {inner : List Statement}
    (opens : token.kind = .openCurly)
    (innerSettled : Settled strictBlocks .statements tokens inner)
    (closes : closing.kind = .closeCurly) :
    Settled strictBlocks .block (token :: (tokens ++ [closing]))
      ⟨token, inner⟩ := by
  refine ⟨token, _, rfl, opens, ?_⟩
  intro levels opened start rest final enough here
  rw [List.cons_append, List.append_assoc, List.singleton_append] at here
  have inside :
      (start.atDepth (start.depth + 1)).At
        (token :: (tokens ++ closing :: rest)) final (start.depth + 1) :=
    here.atDepth
  obtain ⟨ahead, last, rfl⟩ := here
  have settled :
      (blockWithin strictBlocks levels start).Settles
        (start.depth + 1 ≤ nestingLimit ∧
          Statement.printedDepths inner ≤
            nestingLimit - (start.depth + 1) ∧ True)
        fun value after =>
          value = ⟨token, inner⟩ ∧ after.Before rest final start.depth := by
    refine settles_blockWithin enough fun fewer enoughInside => ?_
    rw [blockBody, advance_bind_apply, inside.current, rounds_bind_apply]
    have long :
        tokens.length ≤
          (start.atDepth (start.depth + 1)).advance.stream.ahead.length := by
      rw [inside.before.advance.ahead, List.length_append]
      omega
    apply settles_bind
    apply (innerSettled enoughInside inside.before.advance closes long).mono
    rintro values after ⟨rfl, here⟩
    rw [current_bind_apply, here.current, if_neg (by simp [closes]),
      pure_apply]
    exact settles_mk ⟨rfl, here.before.atDepth⟩
  rw [Lands, Block.printedDepth]
  exact settled.congr (by rw [and_true]; omega)

/-- What prints a tree leads the parser to it, if there are levels enough. -/
theorem settled_of_prints
    {phrase : Phrase}
    {tree : phrase.Tree}
    (printed : Prints phrase tokens tree) :
    Settled strictBlocks phrase tokens tree := by
  induction printed with
  | identifier kind =>
      exact settled_identifier kind
  | integer kind text =>
      exact settled_integer kind text
  | string kind =>
      exact settled_string kind
  | boolean kind =>
      exact settled_boolean kind
  | prefixed opens kind _ closes rightSettled =>
      exact settled_prefixed opens kind rightSettled closes
  | binary opens _ kind _ closes leftSettled rightSettled =>
      exact settled_binary opens leftSettled kind rightSettled closes
  | conditional kind opens _ closes _ _ conditionSettled consequenceSettled
      alternativeSettled =>
      exact settled_conditional kind opens conditionSettled closes
        consequenceSettled alternativeSettled
  | function kind opens names closes _ bodySettled =>
      exact settled_function kind opens names closes bodySettled
  | call _ opens _ closes calleeSettled argumentsSettled =>
      exact settled_call calleeSettled opens argumentsSettled closes
  | noArguments =>
      exact settled_noArguments
  | someArguments first others firstSettled othersSettled =>
      exact settled_someArguments first firstSettled others othersSettled
  | lastArgument =>
      exact settled_lastArgument
  | nextArgument separates _ others firstSettled othersSettled =>
      exact settled_nextArgument separates firstSettled others othersSettled
  | noAlternative =>
      exact settled_noAlternative
  | someAlternative kind _ innerSettled =>
      exact settled_someAlternative kind innerSettled
  | block opens _ closes innerSettled =>
      exact settled_block opens innerSettled closes
  | binding kind named assigns _ valueSettled =>
      exact settled_binding kind named assigns valueSettled
  | returning kind _ valueSettled =>
      exact settled_returning kind valueSettled
  | expressionStatement value valueSettled =>
      exact settled_expressionStatement value valueSettled
  | noStatements =>
      exact settled_noStatements
  | lastStatement statement settled =>
      have separates : Separates [] [] :=
        .nothing (by simp)
      have whole : Settled strictBlocks .statements (_ ++ ([] ++ [])) [_] :=
        settled_someStatements statement settled separates .noStatements
          settled_noStatements
      rw [List.append_nil, List.append_nil] at whole
      exact whole
  | someStatements first separates others firstSettled othersSettled =>
      exact settled_someStatements first firstSettled (.semicolon separates)
        others othersSettled

end Statements

end Parse

end Scriptlet
