import Scriptlet.Proofs.Parse.Levels

namespace Scriptlet

/-!
# What is in the grammar is read by the parser

Every token list that reads as a tree leads the parser to that tree, unless the
parser meets the nesting limit.  The argument follows the reading.  What comes
after the tokens of an expression decides where the parser stops, so each phrase
is completed for all tokens that may follow it.

An expression may be the left operand of what comes after it, without the
parser being done with it.  Its operand and the operators applied to it are
therefore completed up to whatever the operators that follow will reach.
-/

namespace Cursor

/-- The tokens from the current one on, and the levels that are open. -/
structure At
    (cursor : Cursor)
    (tokens : List Token)
    (final : Token)
    (opened : Nat) :
    Prop where
  ahead : cursor.stream.ahead = tokens
  last : cursor.stream.last = final
  depth : cursor.depth = opened

/-- The tokens after the current one, and the levels that are open. -/
structure Before
    (cursor : Cursor)
    (rest : List Token)
    (final : Token)
    (opened : Nat) :
    Prop where
  tail : cursor.stream.ahead.tail = rest
  last : cursor.stream.last = final
  depth : cursor.depth = opened

variable
  {cursor : Cursor}
  {token : Token}
  {tokens rest : List Token}
  {final : Token}
  {opened : Nat}

theorem At.current
    (here : cursor.At (token :: rest) final opened) :
    cursor.stream.current = token :=
  current_of_ahead here.ahead

theorem At.currentKind
    (here : cursor.At tokens final opened) :
    cursor.stream.current = tokens.headD final := by
  rw [TokenStream.current, here.ahead, here.last]

theorem At.before
    (here : cursor.At (token :: rest) final opened) :
    cursor.Before rest final opened where
  tail := by rw [here.ahead, List.tail_cons]
  last := here.last
  depth := here.depth

theorem At.atDepth
    {deeper : Nat}
    (here : cursor.At tokens final opened) :
    (cursor.atDepth deeper).At tokens final deeper where
  ahead := here.ahead
  last := here.last
  depth := rfl

theorem Before.atDepth
    {deeper : Nat}
    (here : cursor.Before rest final opened) :
    (cursor.atDepth deeper).Before rest final deeper where
  tail := here.tail
  last := here.last
  depth := rfl

theorem Before.advance
    (here : cursor.Before tokens final opened) :
    cursor.advance.At tokens final opened where
  ahead := by rw [ahead_advance, here.tail]
  last := by rw [last_advance, here.last]
  depth := by rw [depth_advance, here.depth]

theorem Before.peek
    (here : cursor.Before rest final opened) :
    cursor.stream.peek = rest.headD final := by
  rw [peek_eq_current_advance, here.advance.currentKind]

end Cursor

namespace TokenKind

/-- A token that may come after an expression of the given stratum. -/
def Follows (kind : TokenKind) (stratum : Stratum) : Prop :=
  kind ≠ .elseWord ∧
    ∀ form,
      kind.operatorForm? = some form → kind.precedence.rank ≤ stratum.rank

/-- A token that cannot belong to the statement in front of it. -/
def EndsStatement (kind : TokenKind) : Prop :=
  kind.operatorForm? = none ∧ kind ≠ .elseWord ∧ kind ≠ .semicolon

/-- A token that an expression or a statement can start with. -/
def StartsStatement (kind : TokenKind) : Prop :=
  kind.operandForm? ≠ none ∨ kind.statementForm? ≠ none

theorem Follows.tighten
    {kind : TokenKind}
    {looser stratum : Stratum}
    (follows : kind.Follows looser)
    (ordered : looser.rank ≤ stratum.rank) :
    kind.Follows stratum :=
  ⟨follows.1, fun form isOperator =>
    Nat.le_trans (follows.2 form isOperator) ordered⟩

theorem Follows.of_not_operator
    {kind : TokenKind}
    {stratum : Stratum}
    (notElse : kind ≠ .elseWord)
    (notOperator : kind.operatorForm? = none) :
    kind.Follows stratum :=
  ⟨notElse, fun form isOperator => by simp [notOperator] at isOperator⟩

theorem StopsAt.of_not_operator
    {kind : TokenKind}
    {bound : Precedence}
    (notOperator : kind.operatorForm? = none) :
    kind.StopsAt bound :=
  fun form isOperator => by simp [notOperator] at isOperator

/-- A statement that no call or subtraction starts is told apart from the last. -/
theorem StartsStatement.endsStatement
    {kind : TokenKind}
    (starts : kind.StartsStatement)
    (distinct : kind ≠ .openParen ∧ kind ≠ .dash) :
    kind.EndsStatement := by
  cases kind <;>
    simp_all [StartsStatement, EndsStatement, operandForm?, statementForm?,
      operatorForm?]

theorem StartsStatement.goesOn
    {kind : TokenKind}
    (starts : kind.StartsStatement) :
    ¬ (kind = .closeCurly ∨ kind = .endOfInput) := by
  rintro (rfl | rfl) <;>
    simp [StartsStatement, operandForm?, statementForm?] at starts

end TokenKind

namespace Reads

variable {lossy : Prop} {tokens : List Token}

theorem head_statement
    {tree : Statement}
    (reading : Reads lossy .statement tokens tree) :
    ∃ first others, tokens = first :: others ∧ first.kind.StartsStatement := by
  cases reading with
  | binding kind named assigns value =>
      exact ⟨_, _, rfl, .inr (by simp [kind, TokenKind.statementForm?])⟩
  | returning kind value =>
      exact ⟨_, _, rfl, .inr (by simp [kind, TokenKind.statementForm?])⟩
  | expressionStatement value =>
      obtain ⟨first, others, shape, form⟩ := value.head_operandForm
      exact ⟨first, others, shape, .inl form⟩

theorem head_statements
    {trees : List Statement}
    (reading : Reads False .statements tokens trees)
    {first : Token}
    (head : first ∈ tokens.head?) :
    first.kind.StartsStatement := by
  cases reading with
  | noStatements =>
      simp at head
  | someStatements statement separates others =>
      obtain ⟨own, rest, rfl, starts⟩ := statement.head_statement
      simp only [List.cons_append, List.head?_cons, Option.mem_def,
        Option.some.injEq] at head
      exact head ▸ starts
  | gap loss others =>
      exact loss.elim

end Reads

namespace Parse

variable
  {strictBlocks : Bool}
  {levels opened : Nat}
  {start : Cursor}
  {rest : List Token}
  {final : Token}

/-- The step ends with the tree, on the last token in front of the rest. -/
def Finds
    (step : Parse α)
    (start : Cursor)
    (rest : List Token)
    (final : Token)
    (opened : Nat)
    (tree : α) :
    Prop :=
  (step start).Reaches fun value after =>
    value = tree ∧ after.Before rest final opened

/-- What follows a step goes on from the tree it finds. -/
theorem Finds.bind
    {step : Parse α}
    {next : α → Parse β}
    {tree : α}
    {goal : β → Cursor → Prop}
    (found : Finds step start rest final opened tree)
    (later :
      ∀ middle,
        middle.Before rest final opened → (next tree middle).Reaches goal) :
    ((step >>= next) start).Reaches goal := by
  apply reaches_bind
  apply found.mono
  rintro value middle ⟨rfl, here⟩
  exact later middle here

/-- An expected token that comes next is moved on to. -/
theorem reaches_expect_bind
    {token : Token}
    {kind : TokenKind}
    {next : Token → Parse β}
    {goal : β → Cursor → Prop}
    (here : start.Before (token :: rest) final opened)
    (expected : token.kind = kind)
    (later :
      ∀ middle,
        middle.At (token :: rest) final opened →
          (next token middle).Reaches goal) :
    ((expect kind >>= next) start).Reaches goal := by
  have next : start.stream.peek = token :=
    here.peek
  rw [expect_bind_apply (by rw [next, expected]), next]
  exact later start.advance here.advance

/-- A statement is over: a semicolon comes next, or what cannot belong to it. -/
def Closes (separator : List Token) (next : TokenKind) : Prop :=
  (separator = [] ∧ next.EndsStatement) ∨
    ∃ semicolon : Token, separator = [semicolon] ∧ semicolon.kind = .semicolon

/--
The tokens of a phrase lead the parser to its tree.  For an expression this says
how far its operand and the operators in it lead, whatever bound they are read
with: up to where operators are applied to the whole of it.
-/
def Completes
    (strictBlocks : Bool) :
    (phrase : Phrase) → List Token → phrase.Tree → Prop
  | .expression stratum, tokens, tree =>
      ∀ {levels opened start rest final bound goal},
        nestingLimit ≤ levels + opened →
        start.At (tokens ++ rest) final opened →
        (rest.headD final).kind.Follows stratum →
        bound.stratumAbove.rank ≤ stratum.rank →
        bound.rank < Precedence.call.rank →
        (∀ fewer deeper middle,
          nestingLimit ≤ fewer + deeper →
          middle.Before rest final deeper →
          (operatorsWithin strictBlocks fewer bound tree middle).Reaches goal) →
        ((operand (routinesWithin strictBlocks levels) >>=
          operatorsWithin strictBlocks levels bound) start).Reaches goal
  | .arguments, tokens, trees =>
      ∀ {levels opened start closing rest final},
        nestingLimit ≤ levels + opened →
        start.Before (tokens ++ closing :: rest) final opened →
        closing.kind = .closeParen →
        Finds (arguments (routinesWithin strictBlocks levels)) start rest
          final opened trees
  | .furtherArguments, tokens, trees =>
      ∀ {levels opened start closing rest final count},
        nestingLimit ≤ levels + opened →
        start.Before (tokens ++ closing :: rest) final opened →
        closing.kind = .closeParen →
        tokens.length ≤ count →
        Finds (moreArguments (routinesWithin strictBlocks levels) count) start
          (closing :: rest) final opened trees
  | .alternative, tokens, tree? =>
      ∀ {levels opened start rest final},
        nestingLimit ≤ levels + opened →
        start.Before (tokens ++ rest) final opened →
        (rest.headD final).kind ≠ .elseWord →
        Finds (alternative (routinesWithin strictBlocks levels)) start rest
          final opened tree?
  | .block, tokens, tree =>
      ∃ opening inner,
        tokens = opening :: inner ∧
          opening.kind = .openCurly ∧
          ∀ {levels opened start rest final},
            nestingLimit ≤ levels + opened →
            start.At (tokens ++ rest) final opened →
            Finds (blockWithin strictBlocks levels) start rest final opened tree
  | .statement, tokens, tree =>
      ∀ {levels opened start separator rest final},
        nestingLimit ≤ levels + opened →
        start.At (tokens ++ (separator ++ rest)) final opened →
        Closes separator (rest.headD final).kind →
        Finds (statement (routinesWithin strictBlocks levels)) start rest
          final opened tree
  | .statements, tokens, trees =>
      ∀ {levels opened start closing rest final count},
        nestingLimit ≤ levels + opened →
        start.At (tokens ++ closing :: rest) final opened →
        closing.kind = .closeCurly →
        tokens.length ≤ count →
        (statements (routinesWithin strictBlocks levels) count start).Reaches
          fun value after =>
            value = trees ∧ after.At (closing :: rest) final opened

section Expressions

/-- An expression is found where what follows it does not continue it. -/
theorem Completes.finds_expression
    {stratum : Stratum}
    {tokens : List Token}
    {tree : Expression}
    {bound : Precedence}
    (completes : Completes strictBlocks (.expression stratum) tokens tree)
    (fits : nestingLimit ≤ levels + opened)
    (here : start.At (tokens ++ rest) final opened)
    (follows : (rest.headD final).kind.Follows stratum)
    (admitted : bound.stratumAbove.rank ≤ stratum.rank)
    (loose : bound.rank < Precedence.call.rank)
    (stops : (rest.headD final).kind.StopsAt bound) :
    Finds ((routinesWithin strictBlocks levels).expression bound) start rest
      final opened tree := by
  obtain ⟨ahead, last, rfl⟩ := here
  refine reaches_expressionWithin fits fun fewer fitsInside => ?_
  have inside :
      (start.atDepth (start.depth + 1)).At (tokens ++ rest) final
        (start.depth + 1) :=
    ⟨ahead, last, rfl⟩
  refine completes fitsInside inside follows admitted loose ?_
  intro fewest deeper middle _ before
  refine reaches_operatorsWithin_of_stops ?_ ⟨rfl, before.atDepth⟩
  rw [before.peek]
  exact stops

/-- A whole expression is found in front of what is no operator. -/
theorem Completes.finds_whole
    {tokens : List Token}
    {tree : Expression}
    (completes : Completes strictBlocks (.expression .equality) tokens tree)
    (fits : nestingLimit ≤ levels + opened)
    (here : start.At (tokens ++ rest) final opened)
    (notElse : (rest.headD final).kind ≠ .elseWord)
    (notOperator : (rest.headD final).kind.operatorForm? = none) :
    Finds ((routinesWithin strictBlocks levels).expression .lowest) start rest
      final opened tree :=
  completes.finds_expression fits here (.of_not_operator notElse notOperator)
    (by decide) (by decide) (.of_not_operator notOperator)

/-- A block is found behind the token that its opening bracket follows. -/
theorem Completes.reaches_block_bind
    {tokens : List Token}
    {tree : Block}
    {next : Block → Parse β}
    {goal : β → Cursor → Prop}
    (completes : Completes strictBlocks .block tokens tree)
    (fits : nestingLimit ≤ levels + opened)
    (before : start.Before (tokens ++ rest) final opened)
    (later :
      ∀ middle,
        middle.Before rest final opened → (next tree middle).Reaches goal) :
    ((expect .openCurly >>= fun _ =>
      (routinesWithin strictBlocks levels).block >>= next) start).Reaches
        goal := by
  obtain ⟨opening, inner, rfl, opens, found⟩ := completes
  refine reaches_expect_bind before opens fun middle here => ?_
  exact Finds.bind (found fits here) later

/-- An operand on its own is an expression. -/
theorem Completes.ofOperand
    {stratum : Stratum}
    {tokens : List Token}
    {tree : Expression}
    (found :
      ∀ {levels opened start rest final},
        nestingLimit ≤ levels + opened →
        start.At (tokens ++ rest) final opened →
        (rest.headD final).kind.Follows stratum →
        Finds (operand (routinesWithin strictBlocks levels)) start rest
          final opened tree) :
    Completes strictBlocks (.expression stratum) tokens tree := by
  intro levels opened start rest final bound goal fits here follows _ _ later
  exact (found fits here follows).bind fun middle before =>
    later levels opened middle fits before

end Expressions

section Operands

variable {token : Token} {tokens : List Token}

/-- The first token decides which form of operand is read. -/
theorem operand_apply
    {routines : Routines Cursor}
    {form : OperandForm}
    (here : start.At (token :: tokens) final opened)
    (introduces : token.kind.operandForm? = some form) :
    operand routines start = operandOf routines form start := by
  unfold operand
  rw [current_bind_apply, here.current, introduces]

theorem completes_identifier
    (kind : token.kind = .identifier) :
    Completes strictBlocks (.expression .primary) [token]
      (Expression.identifier (Name.ofToken token)) := by
  apply Completes.ofOperand
  intro levels opened start rest final fits here follows
  rw [Finds, operand_apply here (by rw [kind]; rfl), operandOf, identifier,
    current_bind_apply, here.current, pure_apply, reaches_mk]
  exact ⟨rfl, here.before⟩

theorem completes_integer
    {value : Int64}
    (kind : token.kind = .number)
    (text : Text.readInteger? token.value = some value) :
    Completes strictBlocks (.expression .primary) [token]
      (Expression.integer token value) := by
  apply Completes.ofOperand
  intro levels opened start rest final fits here follows
  rw [Finds, operand_apply here (by rw [kind]; rfl), operandOf, integer,
    current_bind_apply, here.current]
  simp only [text]
  rw [pure_apply, reaches_mk]
  exact ⟨rfl, here.before⟩

theorem completes_string
    (kind : token.kind = .string) :
    Completes strictBlocks (.expression .primary) [token]
      (Expression.string token token.value) := by
  apply Completes.ofOperand
  intro levels opened start rest final fits here follows
  rw [Finds, operand_apply here (by rw [kind]; rfl), operandOf, string,
    current_bind_apply, here.current, pure_apply, reaches_mk]
  exact ⟨rfl, here.before⟩

theorem completes_boolean
    {value : Bool}
    (kind : token.kind = if value then .trueWord else .falseWord) :
    Completes strictBlocks (.expression .primary) [token]
      (Expression.boolean token value) := by
  apply Completes.ofOperand
  intro levels opened start rest final fits here follows
  have introduces : token.kind.operandForm? = some .boolean := by
    cases value <;> simp [kind, TokenKind.operandForm?]
  have same : (token.kind == .trueWord) = value := by
    cases value <;> simp [kind]
  rw [Finds, operand_apply here introduces, operandOf, boolean,
    current_bind_apply, here.current, same, pure_apply, reaches_mk]
  exact ⟨rfl, here.before⟩

theorem completes_prefixed
    {right : Expression}
    (kind : token.kind = .dash ∨ token.kind = .not)
    (rightCompletes :
      Completes strictBlocks (.expression .prefixed) tokens right) :
    Completes strictBlocks (.expression .prefixed) (token :: tokens)
      (Expression.prefixed token token.value right) := by
  apply Completes.ofOperand
  intro levels opened start rest final fits here follows
  have introduces : token.kind.operandForm? = some .prefixed := by
    rcases kind with isDash | isNot
    · rw [isDash]
      rfl
    · rw [isNot]
      rfl
  rw [Finds, operand_apply here introduces, operandOf, prefixed,
    advance_bind_apply, here.current]
  have found :
      Finds ((routinesWithin strictBlocks levels).expression .unary)
        start.advance rest final opened right :=
    rightCompletes.finds_expression fits here.before.advance follows
      (by decide) (by decide) follows.2
  refine found.bind fun middle before => ?_
  exact reaches_mk.mpr ⟨rfl, before⟩

theorem completes_grouping
    {closing : Token}
    {inner : Expression}
    (opens : token.kind = .openParen)
    (innerCompletes :
      Completes strictBlocks (.expression .equality) tokens inner)
    (closes : closing.kind = .closeParen) :
    Completes strictBlocks (.expression .primary)
      (token :: (tokens ++ [closing])) inner := by
  apply Completes.ofOperand
  intro levels opened start rest final fits here follows
  rw [List.cons_append, List.append_assoc, List.singleton_append] at here
  rw [Finds, operand_apply here (by rw [opens]; rfl), operandOf, grouping,
    advance_bind_apply]
  have found :=
    innerCompletes.finds_whole fits here.before.advance
      (by simp [closes]) (by simp [closes, TokenKind.operatorForm?])
  refine found.bind fun middle before => ?_
  refine reaches_expect_bind before closes fun final here => ?_
  exact reaches_mk.mpr ⟨rfl, here.before⟩

theorem completes_conditional
    {opening closing : Token}
    {consequenceTokens alternativeTokens : List Token}
    {condition : Expression}
    {consequence : Block}
    {alternative? : Option Block}
    (kind : token.kind = .ifWord)
    (opens : opening.kind = .openParen)
    (conditionCompletes :
      Completes strictBlocks (.expression .equality) tokens condition)
    (closes : closing.kind = .closeParen)
    (consequenceCompletes :
      Completes strictBlocks .block consequenceTokens consequence)
    (alternativeCompletes :
      Completes strictBlocks .alternative alternativeTokens alternative?) :
    Completes strictBlocks (.expression .primary)
      (token :: opening ::
        (tokens ++ closing :: (consequenceTokens ++ alternativeTokens)))
      (Expression.conditional token condition consequence alternative?) := by
  apply Completes.ofOperand
  intro levels opened start rest final fits here follows
  simp only [List.cons_append, List.append_assoc] at here
  rw [Finds, operand_apply here (by rw [kind]; rfl), operandOf, conditional,
    current_bind_apply, here.current]
  refine reaches_expect_bind here.before opens fun middle here => ?_
  rw [advance_bind_apply]
  have foundCondition :=
    conditionCompletes.finds_whole fits here.before.advance
      (by simp [closes]) (by simp [closes, TokenKind.operatorForm?])
  refine foundCondition.bind fun middle before => ?_
  refine reaches_expect_bind before closes fun middle here => ?_
  refine consequenceCompletes.reaches_block_bind fits here.before
    fun middle before => ?_
  refine (alternativeCompletes fits before follows.1).bind fun middle before => ?_
  exact reaches_mk.mpr ⟨rfl, before⟩

theorem completes_noAlternative :
    Completes strictBlocks .alternative [] none := by
  intro levels opened start rest final fits before notElse
  rw [List.nil_append] at before
  rw [Finds, alternative, peekKind_bind_apply, before.peek, if_neg notElse,
    pure_apply, reaches_mk]
  exact ⟨rfl, before⟩

theorem completes_someAlternative
    {inner : Block}
    (kind : token.kind = .elseWord)
    (innerCompletes : Completes strictBlocks .block tokens inner) :
    Completes strictBlocks .alternative (token :: tokens) (some inner) := by
  intro levels opened start rest final fits before notElse
  have next : start.stream.peek = token :=
    before.peek
  rw [Finds, alternative, peekKind_bind_apply, next, if_pos kind,
    advance_bind_apply]
  refine innerCompletes.reaches_block_bind fits before.advance.before
    fun middle before => ?_
  exact reaches_mk.mpr ⟨rfl, before⟩

/-- Parameters after the first one are read up to what is no comma. -/
theorem finds_moreParameters
    {names : List Name}
    {count : Nat}
    (reading : ReadsFurtherNames tokens names)
    (before : start.Before (tokens ++ rest) final opened)
    (ends : (rest.headD final).kind ≠ .comma)
    (enough : tokens.length ≤ count) :
    Finds (moreParameters count) start rest final opened names := by
  induction reading generalizing start count with
  | done =>
      rw [List.nil_append] at before
      cases count with
      | zero =>
          rw [Finds, moreParameters, pure_apply, reaches_mk]
          exact ⟨rfl, before⟩
      | succ count =>
          rw [Finds, moreParameters, peekKind_bind_apply, before.peek,
            if_neg ends, pure_apply, reaches_mk]
          exact ⟨rfl, before⟩
  | next separates named others inductionHypothesis =>
      rename_i comma name further names
      cases count with
      | zero =>
          simp at enough
      | succ count =>
          have next : start.stream.peek = comma :=
            before.peek
          rw [Finds, moreParameters, peekKind_bind_apply, next,
            if_pos separates, advance_bind_apply]
          refine reaches_expect_bind before.advance.before named
            fun middle here => ?_
          rw [andSoOn_eq]
          apply reaches_map
          have enoughOthers : further.length ≤ count := by
            simp only [List.length_cons] at enough
            omega
          have found := inductionHypothesis here.before enoughOthers
          apply found.mono
          rintro value after ⟨rfl, before⟩
          exact ⟨rfl, before⟩

theorem finds_parameters
    {closing : Token}
    {names : List Name}
    (reading : ReadsNames tokens names)
    (before : start.Before (tokens ++ closing :: rest) final opened)
    (closes : closing.kind = .closeParen) :
    Finds parameters start rest final opened names := by
  cases reading with
  | none =>
      have next : start.stream.peek = closing :=
        before.peek
      rw [Finds, parameters, peekKind_bind_apply, next, if_pos closes,
        advance_bind_apply, pure_apply, reaches_mk]
      exact ⟨rfl, before.advance.before⟩
  | some named others =>
      rename_i name further names
      have next : start.stream.peek = name :=
        before.peek
      rw [Finds, parameters, peekKind_bind_apply, next,
        if_neg (by simp [named])]
      refine reaches_expect_bind before named fun middle here => ?_
      rw [rounds_bind_apply]
      have found :
          Finds (moreParameters middle.stream.ahead.length) middle
            (closing :: rest) final opened names :=
        finds_moreParameters others here.before (by simp [closes])
          (by rw [here.ahead]; simp; omega)
      refine found.bind fun middle before => ?_
      refine reaches_expect_bind before closes fun middle here => ?_
      exact reaches_mk.mpr ⟨rfl, here.before⟩

theorem completes_function
    {opening closing : Token}
    {bodyTokens : List Token}
    {names : List Name}
    {body : Block}
    (kind : token.kind = .fnWord)
    (opens : opening.kind = .openParen)
    (namesReading : ReadsNames tokens names)
    (closes : closing.kind = .closeParen)
    (bodyCompletes : Completes strictBlocks .block bodyTokens body) :
    Completes strictBlocks (.expression .primary)
      (token :: opening :: (tokens ++ closing :: bodyTokens))
      (Expression.function token names body) := by
  apply Completes.ofOperand
  intro levels opened start rest final fits here follows
  simp only [List.cons_append, List.append_assoc] at here
  rw [Finds, operand_apply here (by rw [kind]; rfl), operandOf, function,
    current_bind_apply, here.current]
  refine reaches_expect_bind here.before opens fun middle here => ?_
  refine (finds_parameters namesReading here.before closes).bind
    fun middle before => ?_
  refine bodyCompletes.reaches_block_bind fits before fun middle before => ?_
  exact reaches_mk.mpr ⟨rfl, before⟩

end Operands

section Operators

variable {token : Token} {tokens : List Token} {bound : Precedence}

/-- A bound admits the operators of the strata above it. -/
theorem bound_lt_of_mem
    {stratum : Stratum}
    {kind : TokenKind}
    (member : kind ∈ stratum.operators)
    (admitted : bound.stratumAbove.rank ≤ stratum.rank) :
    bound.rank < stratum.rank := by
  cases stratum <;> cases bound <;>
    simp_all [Stratum.operators, Precedence.stratumAbove, Stratum.rank,
      Precedence.rank]

/-- An operator is applied to what is to its left, and others to the result. -/
theorem reaches_operator_bind
    {form : OperatorForm}
    {left bigger : Expression}
    {goal : Expression → Cursor → Prop}
    (fits : nestingLimit ≤ levels + opened)
    (before : start.Before (token :: tokens) final opened)
    (isOperator : token.kind.operatorForm? = some form)
    (tighter : bound.rank < token.kind.precedence.rank)
    (found :
      ∀ {levels opened start},
        nestingLimit ≤ levels + opened →
        start.At (token :: tokens) final opened →
        Finds
          (operatorOf (routinesWithin strictBlocks levels) left
            token.kind.precedence form)
          start rest final opened bigger)
    (later :
      ∀ fewer deeper middle,
        nestingLimit ≤ fewer + deeper →
        middle.Before rest final deeper →
        (operatorsWithin strictBlocks fewer bound bigger middle).Reaches goal) :
    (operatorsWithin strictBlocks levels bound left start).Reaches goal := by
  have next : start.stream.peek = token :=
    before.peek
  have deeper :
      (start.atDepth (start.depth + 1)).Before (token :: tokens) final
        (start.depth + 1) :=
    before.atDepth
  obtain ⟨tail, last, rfl⟩ := before
  refine reaches_operatorsWithin fits (by rw [next, isOperator])
    (by rw [next]; exact tighter) fun fewer fitsInside => ?_
  rw [next]
  exact (found fitsInside deeper.advance).bind fun middle before =>
    later fewer _ middle fitsInside before

theorem completes_binary
    {stratum : Stratum}
    {rightTokens : List Token}
    {left right : Expression}
    (leftCompletes :
      Completes strictBlocks (.expression stratum) tokens left)
    (kind : token.kind ∈ stratum.operators)
    (rightCompletes :
      Completes strictBlocks (.expression stratum.next) rightTokens right) :
    Completes strictBlocks (.expression stratum)
      (tokens ++ token :: rightTokens)
      (Expression.binary token left token.value right) := by
  obtain ⟨isBinary, sameRank⟩ := Stratum.precedence_of_mem kind
  intro levels opened start rest final bound goal fits here follows admitted
    loose later
  rw [List.append_assoc, List.cons_append] at here
  refine leftCompletes fits here ?_ admitted loose ?_
  · refine ⟨?_, fun _ _ => Nat.le_of_eq sameRank.symm⟩
    intro isElse
    rw [List.headD_cons] at isElse
    rw [isElse] at isBinary
    contradiction
  intro fewer deeper middle fitsMiddle before
  refine reaches_operator_bind fitsMiddle before isBinary
    (sameRank ▸ bound_lt_of_mem kind admitted) ?_ later
  intro levels opened start fits here
  rw [Finds, operatorOf, binary, advance_bind_apply, here.current]
  have rightFound :
      Finds
        ((routinesWithin strictBlocks levels).expression token.kind.precedence)
        start.advance rest final opened right := by
    refine rightCompletes.finds_expression fits here.before.advance
      (follows.tighten (Stratum.rank_le_rank_next stratum)) ?_ ?_ ?_
    · exact Nat.le_of_eq
        (congrArg _ (Precedence.stratumAbove_of_rank_eq kind sameRank))
    · rw [← sameRank]
      exact Stratum.rank_lt_rank_call_of_mem kind
    · intro form isOperator
      rw [← sameRank]
      exact follows.2 form isOperator
  refine rightFound.bind fun middle before => ?_
  exact reaches_mk.mpr ⟨rfl, before⟩

theorem completes_call
    {closing : Token}
    {argumentTokens : List Token}
    {callee : Expression}
    {values : List Expression}
    (calleeCompletes : Completes strictBlocks (.expression .call) tokens callee)
    (opens : token.kind = .openParen)
    (argumentsComplete : Completes strictBlocks .arguments argumentTokens values)
    (closes : closing.kind = .closeParen) :
    Completes strictBlocks (.expression .call)
      (tokens ++ token :: (argumentTokens ++ [closing]))
      (Expression.call token callee values) := by
  intro levels opened start rest final bound goal fits here follows admitted
    loose later
  simp only [List.append_assoc, List.cons_append, List.nil_append] at here
  refine calleeCompletes fits here ?_ admitted loose ?_
  · refine ⟨?_, fun _ _ => ?_⟩
    · simp [opens]
    · simp only [List.headD_cons, opens]
      decide
  intro fewer deeper middle fitsMiddle before
  refine reaches_operator_bind fitsMiddle before (by rw [opens]; rfl)
    (by rw [opens]; exact loose) ?_ later
  intro levels opened start fits here
  rw [Finds, operatorOf, call, current_bind_apply, here.current]
  refine (argumentsComplete fits here.before closes).bind fun middle before => ?_
  exact reaches_mk.mpr ⟨rfl, before⟩

theorem completes_tighter
    {looser stratum : Stratum}
    {inner : Expression}
    (ordered : looser.rank < stratum.rank)
    (completes : Completes strictBlocks (.expression stratum) tokens inner) :
    Completes strictBlocks (.expression looser) tokens inner := by
  intro levels opened start rest final bound goal fits here follows admitted
    loose later
  exact completes fits here (follows.tighten (Nat.le_of_lt ordered))
    (Nat.le_trans admitted (Nat.le_of_lt ordered)) loose later

theorem completes_noArguments :
    Completes strictBlocks .arguments [] [] := by
  intro levels opened start closing rest final fits before closes
  have next : start.stream.peek = closing :=
    before.peek
  rw [Finds, arguments, peekKind_bind_apply, next, if_pos closes,
    advance_bind_apply, pure_apply, reaches_mk]
  exact ⟨rfl, before.advance.before⟩

/-- What may follow an argument is no operator, nor an alternative. -/
theorem head_furtherArguments
    {closing : Token}
    {values : List Expression}
    (reading : Reads False .furtherArguments tokens values)
    (closes : closing.kind = .closeParen) :
    ((tokens ++ closing :: rest).headD final).kind ≠ .elseWord ∧
      ((tokens ++ closing :: rest).headD final).kind.operatorForm? = none := by
  cases reading with
  | lastArgument =>
      simp [closes, TokenKind.operatorForm?]
  | nextArgument separates first others =>
      simp [separates, TokenKind.operatorForm?]

theorem completes_someArguments
    {restTokens : List Token}
    {first : Expression}
    {others : List Expression}
    (firstReading : Reads False (.expression .equality) tokens first)
    (firstCompletes :
      Completes strictBlocks (.expression .equality) tokens first)
    (restReading : Reads False .furtherArguments restTokens others)
    (restComplete :
      Completes strictBlocks .furtherArguments restTokens others) :
    Completes strictBlocks .arguments (tokens ++ restTokens)
      (first :: others) := by
  intro levels opened start closing rest final fits before closes
  obtain ⟨head, tail, rfl, introduces⟩ := firstReading.head_operandForm
  rw [List.append_assoc] at before
  have next : start.stream.peek = head :=
    before.peek
  have notClosing : head.kind ≠ .closeParen := by
    intro isClosing
    rw [isClosing] at introduces
    contradiction
  rw [Finds, arguments, peekKind_bind_apply, next, if_neg notClosing,
    advance_bind_apply]
  obtain ⟨notElse, notOperator⟩ := head_furtherArguments restReading closes
  have firstFound :=
    firstCompletes.finds_whole fits before.advance notElse notOperator
  refine firstFound.bind fun middle before => ?_
  rw [rounds_bind_apply]
  have enough : restTokens.length ≤ middle.stream.ahead.length := by
    have shorter := (List.tail_suffix middle.stream.ahead).length_le
    rw [before.tail, List.length_append] at shorter
    omega
  refine (restComplete fits before closes enough).bind fun middle before => ?_
  refine reaches_expect_bind before closes fun middle here => ?_
  exact reaches_mk.mpr ⟨rfl, here.before⟩

theorem completes_lastArgument :
    Completes strictBlocks .furtherArguments [] [] := by
  intro levels opened start closing rest final count fits before closes enough
  have next : start.stream.peek = closing :=
    before.peek
  cases count with
  | zero =>
      rw [Finds, moreArguments, pure_apply, reaches_mk]
      exact ⟨rfl, before⟩
  | succ count =>
      rw [Finds, moreArguments, peekKind_bind_apply, next,
        if_neg (by simp [closes]), pure_apply, reaches_mk]
      exact ⟨rfl, before⟩

theorem completes_nextArgument
    {restTokens : List Token}
    {first : Expression}
    {others : List Expression}
    (separates : token.kind = .comma)
    (firstCompletes :
      Completes strictBlocks (.expression .equality) tokens first)
    (restReading : Reads False .furtherArguments restTokens others)
    (restComplete :
      Completes strictBlocks .furtherArguments restTokens others) :
    Completes strictBlocks .furtherArguments (token :: (tokens ++ restTokens))
      (first :: others) := by
  intro levels opened start closing rest final count fits before closes enough
  rw [List.cons_append, List.append_assoc] at before
  have next : start.stream.peek = token :=
    before.peek
  cases count with
  | zero =>
      simp at enough
  | succ count =>
      rw [Finds, moreArguments, peekKind_bind_apply, next, if_pos separates,
        advance_bind_apply, advance_bind_apply]
      obtain ⟨notElse, notOperator⟩ := head_furtherArguments restReading closes
      have firstFound :=
        firstCompletes.finds_whole fits before.advance.before.advance
          notElse notOperator
      refine firstFound.bind fun middle before => ?_
      have enoughOthers : restTokens.length ≤ count := by
        simp only [List.length_cons, List.length_append] at enough
        omega
      rw [andSoOn_eq]
      apply reaches_map
      apply (restComplete fits before closes enoughOthers).mono
      rintro values after ⟨rfl, before⟩
      exact ⟨rfl, before⟩

end Operators

section Statements

variable {token : Token} {tokens separator : List Token}

/-- What closes a statement ends the expression in it. -/
theorem Closes.ends
    (closes : Closes separator (rest.headD final).kind) :
    ((separator ++ rest).headD final).kind ≠ .elseWord ∧
      ((separator ++ rest).headD final).kind.operatorForm? = none := by
  rcases closes with ⟨rfl, notOperator, notElse, -⟩ | ⟨semicolon, rfl, kind⟩
  · exact ⟨notElse, notOperator⟩
  · simp [kind, TokenKind.operatorForm?]

theorem finds_skipSemicolon
    (before : start.Before (separator ++ rest) final opened)
    (closes : Closes separator (rest.headD final).kind) :
    Finds skipSemicolon start rest final opened () := by
  rcases closes with ⟨rfl, -, -, notSemicolon⟩ | ⟨semicolon, rfl, kind⟩
  · have next : start.stream.peek = rest.headD final :=
      before.peek
    rw [Finds, skipSemicolon, peekKind_bind_apply, next, if_neg notSemicolon,
      pure_apply, reaches_mk]
    exact ⟨rfl, before⟩
  · have next : start.stream.peek = semicolon :=
      before.peek
    rw [Finds, skipSemicolon, peekKind_bind_apply, next, if_pos kind,
      advance_bind_apply, pure_apply, reaches_mk]
    exact ⟨rfl, before.advance.before⟩

/-- The first token decides which form of statement is read. -/
theorem reaches_statement
    {routines : Routines Cursor}
    {form? : Option StatementForm}
    {goal : Statement → Cursor → Prop}
    (here : start.At (token :: tokens) final opened)
    (introduces : token.kind.statementForm? = form?)
    (reached : (statementOf routines form? start).Reaches goal) :
    (statement routines start).Reaches goal := by
  apply reaches_closing
  rw [currentKind_bind_apply, here.current, introduces]
  split
  · exact reaches_emit_bind rfl reached
  · exact reached

theorem completes_binding
    {name sign : Token}
    {value : Expression}
    (kind : token.kind = .letWord)
    (named : name.kind = .identifier)
    (assigns : sign.kind = .assignment)
    (valueCompletes :
      Completes strictBlocks (.expression .equality) tokens value) :
    Completes strictBlocks .statement (token :: name :: sign :: tokens)
      (Statement.binding token (Name.ofToken name) value) := by
  intro levels opened start separator rest final fits here closes
  simp only [List.cons_append] at here
  have introduces : token.kind.statementForm? = some .binding := by
    rw [kind]
    rfl
  refine reaches_statement here introduces ?_
  rw [statementOf, binding, current_bind_apply, here.current]
  refine reaches_expect_bind here.before named fun middle here => ?_
  refine reaches_expect_bind here.before assigns fun middle here => ?_
  rw [advance_bind_apply]
  obtain ⟨notElse, notOperator⟩ := closes.ends
  have valueFound :=
    valueCompletes.finds_whole fits here.before.advance notElse notOperator
  refine valueFound.bind fun middle before => ?_
  refine (finds_skipSemicolon before closes).bind fun middle before => ?_
  exact reaches_mk.mpr ⟨rfl, before⟩

theorem completes_returning
    {value : Expression}
    (kind : token.kind = .returnWord)
    (valueCompletes :
      Completes strictBlocks (.expression .equality) tokens value) :
    Completes strictBlocks .statement (token :: tokens)
      (Statement.returning token value) := by
  intro levels opened start separator rest final fits here closes
  have introduces : token.kind.statementForm? = some .returning := by
    rw [kind]
    rfl
  refine reaches_statement here introduces ?_
  rw [statementOf, returning, advance_bind_apply, here.current]
  obtain ⟨notElse, notOperator⟩ := closes.ends
  have valueFound :=
    valueCompletes.finds_whole fits here.before.advance notElse notOperator
  refine valueFound.bind fun middle before => ?_
  refine (finds_skipSemicolon before closes).bind fun middle before => ?_
  exact reaches_mk.mpr ⟨rfl, before⟩

theorem completes_expressionStatement
    {value : Expression}
    (valueReading : Reads False (.expression .equality) (token :: tokens) value)
    (valueCompletes :
      Completes strictBlocks (.expression .equality) (token :: tokens) value) :
    Completes strictBlocks .statement (token :: tokens)
      (Statement.expression token value) := by
  intro levels opened start separator rest final fits here closes
  obtain ⟨first, others, shape, introduces⟩ := valueReading.head_operandForm
  obtain ⟨rfl, rfl⟩ := List.cons.inj shape
  have noForm : token.kind.statementForm? = none := by
    cases kind : token.kind <;>
      simp_all [TokenKind.operandForm?, TokenKind.statementForm?]
  refine reaches_statement here noForm ?_
  rw [statementOf, expressionStatement, current_bind_apply, here.current]
  obtain ⟨notElse, notOperator⟩ := closes.ends
  have valueFound := valueCompletes.finds_whole fits here notElse notOperator
  refine valueFound.bind fun middle before => ?_
  refine (finds_skipSemicolon before closes).bind fun middle before => ?_
  exact reaches_mk.mpr ⟨rfl, before⟩

/-- Between statements, the first one is closed by what separates it. -/
theorem closes_of_separates
    {restTokens : List Token}
    {others : List Statement}
    (separates : Separates separator restTokens)
    (othersReading : Reads False .statements restTokens others)
    (ends : (rest.headD final).kind.EndsStatement) :
    Closes separator ((restTokens ++ rest).headD final).kind := by
  cases separates with
  | semicolon kind =>
      exact .inr ⟨_, rfl, kind⟩
  | nothing distinct =>
      refine .inl ⟨rfl, ?_⟩
      cases restTokens with
      | nil =>
          exact ends
      | cons first further =>
          have starts : first.kind.StartsStatement :=
            othersReading.head_statements rfl
          exact starts.endsStatement (distinct first rfl)

theorem completes_noStatements :
    Completes strictBlocks .statements [] [] := by
  intro levels opened start closing rest final count fits here closes enough
  rw [List.nil_append] at here
  cases count with
  | zero =>
      rw [statements, pure_apply, reaches_mk]
      exact ⟨rfl, here⟩
  | succ count =>
      rw [statements, currentKind_bind_apply, here.current,
        if_pos (.inl closes), pure_apply, reaches_mk]
      exact ⟨rfl, here⟩

theorem completes_someStatements
    {restTokens : List Token}
    {first : Statement}
    {others : List Statement}
    (firstReading : Reads False .statement tokens first)
    (firstCompletes : Completes strictBlocks .statement tokens first)
    (separates : Separates separator restTokens)
    (othersReading : Reads False .statements restTokens others)
    (othersComplete : Completes strictBlocks .statements restTokens others) :
    Completes strictBlocks .statements (tokens ++ (separator ++ restTokens))
      (first :: others) := by
  intro levels opened start closing rest final count fits here closes enough
  obtain ⟨head, tail, rfl, starts⟩ := firstReading.head_statement
  simp only [List.append_assoc] at here
  cases count with
  | zero =>
      simp at enough
  | succ count =>
      rw [statements, currentKind_bind_apply, here.current,
        if_neg starts.goesOn]
      have firstFound :=
        firstCompletes fits here
          (closes_of_separates separates othersReading
            (by simp [closes, TokenKind.EndsStatement, TokenKind.operatorForm?]))
      apply reaches_bind
      apply reaches_attempt
      apply firstFound.mono
      rintro value middle ⟨rfl, before⟩
      have enoughOthers : restTokens.length ≤ count := by
        simp only [List.length_cons, List.length_append] at enough
        omega
      rw [advance_bind_apply, andSoOn_eq]
      apply reaches_map
      apply (othersComplete fits before.advance closes enoughOthers).mono
      rintro values after ⟨rfl, here⟩
      exact ⟨rfl, here⟩

theorem completes_block
    {closing : Token}
    {inner : List Statement}
    (opens : token.kind = .openCurly)
    (innerComplete : Completes strictBlocks .statements tokens inner)
    (closes : closing.kind = .closeCurly) :
    Completes strictBlocks .block (token :: (tokens ++ [closing]))
      ⟨token, inner⟩ := by
  refine ⟨token, _, rfl, opens, ?_⟩
  intro levels opened start rest final fits here
  rw [List.cons_append, List.append_assoc, List.singleton_append] at here
  have inside :
      (start.atDepth (start.depth + 1)).At
        (token :: (tokens ++ closing :: rest)) final (start.depth + 1) :=
    here.atDepth
  obtain ⟨ahead, last, rfl⟩ := here
  refine reaches_blockWithin fits fun fewer fitsInside => ?_
  rw [blockBody, advance_bind_apply, inside.current, rounds_bind_apply]
  have enough :
      tokens.length ≤
        (start.atDepth (start.depth + 1)).advance.stream.ahead.length := by
    rw [inside.before.advance.ahead, List.length_append]
    omega
  apply reaches_bind
  apply (innerComplete fitsInside inside.before.advance closes enough).mono
  rintro values after ⟨rfl, here⟩
  rw [current_bind_apply, here.current, if_neg (by simp [closes]), pure_apply,
    reaches_mk]
  exact ⟨rfl, here.before.atDepth⟩

/-- Whatever reads in the grammar leads the parser to the tree it reads as. -/
theorem completes_of_reads
    {phrase : Phrase}
    {tree : phrase.Tree}
    (reading : Reads False phrase tokens tree) :
    Completes strictBlocks phrase tokens tree := by
  induction reading with
  | identifier kind =>
      exact completes_identifier kind
  | integer kind text =>
      exact completes_integer kind text
  | string kind =>
      exact completes_string kind
  | boolean kind =>
      exact completes_boolean kind
  | grouping opens inner closes innerCompletes =>
      exact completes_grouping opens innerCompletes closes
  | conditional kind opens condition closes consequence alternative
      conditionCompletes consequenceCompletes alternativeCompletes =>
      exact completes_conditional kind opens conditionCompletes closes
        consequenceCompletes alternativeCompletes
  | function kind opens names closes body bodyCompletes =>
      exact completes_function kind opens names closes bodyCompletes
  | call callee opens arguments closes calleeCompletes argumentsComplete =>
      exact completes_call calleeCompletes opens argumentsComplete closes
  | prefixed kind right rightCompletes =>
      exact completes_prefixed kind rightCompletes
  | binary left kind right leftCompletes rightCompletes =>
      exact completes_binary leftCompletes kind rightCompletes
  | tighter ordered inner innerCompletes =>
      exact completes_tighter ordered innerCompletes
  | noArguments =>
      exact completes_noArguments
  | someArguments first others firstCompletes othersComplete =>
      exact completes_someArguments first firstCompletes others othersComplete
  | lastArgument =>
      exact completes_lastArgument
  | nextArgument separates first others firstCompletes othersComplete =>
      exact completes_nextArgument separates firstCompletes others othersComplete
  | noAlternative =>
      exact completes_noAlternative
  | someAlternative kind inner innerCompletes =>
      exact completes_someAlternative kind innerCompletes
  | block opens inner closes innerComplete =>
      exact completes_block opens innerComplete closes
  | binding kind named assigns value valueCompletes =>
      exact completes_binding kind named assigns valueCompletes
  | returning kind value valueCompletes =>
      exact completes_returning kind valueCompletes
  | expressionStatement value valueCompletes =>
      exact completes_expressionStatement value valueCompletes
  | noStatements =>
      exact completes_noStatements
  | someStatements first separates others firstCompletes othersComplete =>
      exact completes_someStatements first firstCompletes separates others
        othersComplete
  | gap loss others othersComplete =>
      exact loss.elim

end Statements

end Parse

end Scriptlet
