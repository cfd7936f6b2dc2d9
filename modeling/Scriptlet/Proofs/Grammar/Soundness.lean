import Scriptlet.Proofs.Parse.Levels
import Scriptlet.Proofs.Parse.Orderly

namespace Scriptlet

/-!
# What the parser reads is in the grammar

Every routine that ends with a tree has passed tokens that read as the tree.
The tokens passed are those ahead of the routine up to those ahead of where it
ends; where the end of input closes a block, the closing bracket is supplied.

A run that records nothing leaves no token out.  A run that records something
may have dropped statements, so its readings are lossy.  Both are the same
argument: readings are lossy exactly as far as runs are not quiet.
-/

/--
The tokens in front of `rest` are the ones read.  Closing curly brackets may be
missing from them at the end of input, unless blocks are strict.
-/
def Consumes
    (strictBlocks : Bool)
    (before rest read : List Token) :
    Prop :=
  rest <:+ before ∧
    ∃ missing,
      before ++ missing = read ++ rest ∧
        (∀ token ∈ missing, token.kind = .closeCurly) ∧
        (missing ≠ [] → strictBlocks = false ∧ rest = [])

namespace Consumes

variable {strictBlocks : Bool} {before middle rest first second : List Token}

theorem nil : Consumes strictBlocks before before [] :=
  ⟨List.suffix_rfl, [], by simp⟩

theorem one
    {token : Token} :
    Consumes strictBlocks (token :: rest) rest [token] :=
  ⟨List.suffix_cons token rest, [], by simp⟩

/-- At the end of input a block that is not strict is closed. -/
theorem closed
    {closing : Token}
    (permissive : strictBlocks = false)
    (kind : closing.kind = .closeCurly) :
    Consumes strictBlocks [] [] [closing] :=
  ⟨List.suffix_rfl, [closing], by simp [kind, permissive]⟩

theorem append
    (front : Consumes strictBlocks before middle first)
    (back : Consumes strictBlocks middle rest second) :
    Consumes strictBlocks before rest (first ++ second) := by
  obtain ⟨frontSuffix, frontMissing, frontEq, frontKinds, frontEnd⟩ := front
  obtain ⟨backSuffix, backMissing, backEq, backKinds, backEnd⟩ := back
  refine ⟨backSuffix.trans frontSuffix, frontMissing ++ backMissing, ?_, ?_, ?_⟩
  · rw [← List.append_assoc, frontEq, List.append_assoc, backEq,
      List.append_assoc]
  · intro token member
    rcases List.mem_append.mp member with inFront | inBack
    · exact frontKinds token inFront
    · exact backKinds token inBack
  · intro nonempty
    by_cases frontEmpty : frontMissing = []
    · exact backEnd (by simpa [frontEmpty] using nonempty)
    · obtain ⟨permissive, middleEnd⟩ := frontEnd frontEmpty
      rw [middleEnd] at backSuffix
      exact ⟨permissive, List.suffix_nil.mp backSuffix⟩

theorem head_eq
    {ahead token : Token}
    {others read : List Token}
    (consumed : Consumes strictBlocks (ahead :: others) rest (token :: read)) :
    token = ahead := by
  obtain ⟨-, missing, whole, -⟩ := consumed
  simp only [List.cons_append, List.cons.injEq] at whole
  exact whole.1.symm

/-- What is read starts with what was ahead, or with a supplied bracket. -/
theorem head_of_mem
    (consumed : Consumes strictBlocks before rest first)
    {token : Token}
    (head : token ∈ first.head?) :
    token ∈ before.head? ∨ token.kind = .closeCurly := by
  obtain ⟨-, missing, whole, kinds, -⟩ := consumed
  cases before with
  | nil =>
      refine .inr (kinds token ?_)
      rw [List.nil_append] at whole
      rw [whole]
      exact List.mem_append_left rest (List.mem_of_mem_head? head)
  | cons ahead others =>
      refine .inl ?_
      cases first with
      | nil =>
          simp at head
      | cons firstToken firstRest =>
          simp only [List.cons_append, List.cons.injEq] at whole
          simpa [whole.1] using head

end Consumes

namespace Cursor

variable (cursor : Cursor) (strictBlocks : Bool)

theorem consumes_current
    (inside : cursor.stream.current.kind ≠ .endOfInput) :
    Consumes strictBlocks cursor.stream.ahead cursor.stream.ahead.tail
      [cursor.stream.current] := by
  have ahead := ahead_of_current_kind_ne inside
  rw [ahead]
  exact .one

theorem consumes_peek
    (inside : cursor.stream.peek.kind ≠ .endOfInput) :
    Consumes strictBlocks cursor.stream.ahead.tail
      cursor.stream.ahead.tail.tail [cursor.stream.peek] := by
  rw [peek_eq_current_advance] at inside ⊢
  simpa only [ahead_advance] using
    cursor.advance.consumes_current strictBlocks inside

end Cursor

namespace Parse

variable
  {quiet : Prop}
  {strictBlocks : Bool}
  {levels : Nat}
  {routines : Routines Cursor}
  {start after : Cursor}

/-- The tokens passed from one cursor to another read as a tree. -/
def Understands
    (quiet : Prop)
    (strictBlocks : Bool)
    (start after : Cursor)
    (phrase : Phrase)
    (tree : phrase.Tree) :
    Prop :=
  ∃ read,
    Consumes strictBlocks start.stream.ahead after.stream.ahead.tail read ∧
      Reads (¬ quiet) phrase read tree

/-- The routines for what is nested pass tokens that read as what they give. -/
structure SoundRoutines
    (quiet : Prop)
    (strictBlocks : Bool)
    (levels : Nat)
    (routines : Routines Cursor) :
    Prop
    extends OrderlyRoutines levels routines where
  expressionSound :
    ∀ {bound start tree after},
      nestingLimit ≤ levels + start.depth →
      (routines.expression bound start).Gives quiet tree after →
        Understands quiet strictBlocks start after
            (.expression bound.stratumAbove) tree ∧
          after.stream.peek.kind.StopsAt bound
  blockSound :
    ∀ {start tree after},
      nestingLimit ≤ levels + start.depth →
      start.stream.current.kind = .openCurly →
      (routines.block start).Gives quiet tree after →
        Understands quiet strictBlocks start after .block tree

theorem Orderly.fits_of_gives
    {step : Parse α}
    [orderly : Orderly levels step]
    {value : α}
    (fits : nestingLimit ≤ levels + start.depth)
    (given : (step start).Gives quiet value after) :
    nestingLimit ≤ levels + after.depth := by
  rw [← given.2.1, orderly.depth start fits]
  exact fits

/--
An expression that may be the left operand of whatever operator follows it, of
the given stratum or a tighter one.
-/
def UnderstandsLeft
    (quiet : Prop)
    (strictBlocks : Bool)
    (start after : Cursor)
    (loosest : Stratum)
    (tree : Expression) :
    Prop :=
  ∃ stratum,
    Understands quiet strictBlocks start after (.expression stratum) tree ∧
      loosest.rank ≤ stratum.rank ∧
      ∀ form,
        after.stream.peek.kind.operatorForm? = some form →
          after.stream.peek.kind.precedence.rank ≤ stratum.rank

section Operands

variable
  (sound : SoundRoutines quiet strictBlocks levels routines)
  (fits : nestingLimit ≤ levels + start.depth)

theorem precedence_rank_le_call (kind : TokenKind) :
    kind.precedence.rank ≤ Stratum.call.rank := by
  cases kind <;> decide

theorem UnderstandsLeft.ofPrimary
    {tree : Expression}
    (understood :
      Understands quiet strictBlocks start after (.expression .primary) tree) :
    UnderstandsLeft quiet strictBlocks start after .prefixed tree :=
  ⟨.primary, understood, by decide,
    fun _ _ => Nat.le_succ_of_le (precedence_rank_le_call _)⟩

/-- The tokens of an operand are its first one and those that follow it. -/
theorem Understands.ofCurrent
    {phrase : Phrase}
    {tree : phrase.Tree}
    {read : List Token}
    (inside : start.stream.current.kind ≠ .endOfInput)
    (consumed :
      Consumes strictBlocks start.stream.ahead.tail
        after.stream.ahead.tail read)
    (reading : Reads (¬ quiet) phrase (start.stream.current :: read) tree) :
    Understands quiet strictBlocks start after phrase tree :=
  ⟨start.stream.current :: read,
    (start.consumes_current strictBlocks inside).append consumed, reading⟩

theorem sound_moreParameters
    {count : Nat}
    {names : List Name}
    (given : (moreParameters count start).Gives quiet names after) :
    ∃ read,
      Consumes strictBlocks start.stream.ahead.tail
          after.stream.ahead.tail read ∧
        ReadsFurtherNames read names := by
  induction count generalizing start names with
  | zero =>
      simp only [moreParameters, pure_apply, gives_mk] at given
      obtain ⟨rfl, rfl⟩ := given
      exact ⟨[], .nil, .done⟩
  | succ count inductionHypothesis =>
      simp only [moreParameters, peekKind_bind_apply, ite_apply] at given
      split at given
      · rename_i separates
        simp only [advance_bind_apply, gives_bind, gives_expect, andSoOn_eq,
          gives_map] at given
        obtain ⟨_, _, ⟨named, rfl, rfl⟩, others, givenOthers, rfl⟩ := given
        obtain ⟨read, consumed, reading⟩ := inductionHypothesis givenOthers
        refine ⟨_, ?_, .next separates named reading⟩
        have nameConsumed :=
          start.advance.consumes_peek strictBlocks (by simp [named])
        simp only [Cursor.ahead_advance] at consumed nameConsumed
        exact (start.consumes_peek strictBlocks (by simp [separates])).append
          (nameConsumed.append consumed)
      · simp only [pure_apply, gives_mk] at given
        obtain ⟨rfl, rfl⟩ := given
        exact ⟨[], .nil, .done⟩

theorem sound_parameters
    {names : List Name}
    (given : (parameters start).Gives quiet names after) :
    ∃ read closing,
      Consumes strictBlocks start.stream.ahead.tail
          after.stream.ahead.tail (read ++ [closing]) ∧
        ReadsNames read names ∧
        closing.kind = .closeParen := by
  simp only [parameters, peekKind_bind_apply, ite_apply] at given
  split at given
  · rename_i closes
    simp only [advance_bind_apply, pure_apply, gives_mk] at given
    obtain ⟨rfl, rfl⟩ := given
    refine ⟨[], _, ?_, .none, closes⟩
    rw [Cursor.ahead_advance]
    exact start.consumes_peek strictBlocks (by simp [closes])
  · simp only [gives_bind, gives_expect, rounds_bind_apply, pure_apply,
      gives_mk] at given
    obtain ⟨_, _, ⟨named, rfl, rfl⟩, rest, middle, givenRest,
      _, _, ⟨closes, rfl, rfl⟩, rfl, rfl⟩ := given
    obtain ⟨read, consumed, reading⟩ :
        ∃ read,
          Consumes strictBlocks start.advance.stream.ahead.tail
              middle.stream.ahead.tail read ∧
            ReadsFurtherNames read rest :=
      sound_moreParameters givenRest
    refine ⟨_, _, ?_, .some named reading, closes⟩
    simp only [Cursor.ahead_advance] at consumed ⊢
    exact (start.consumes_peek strictBlocks (by simp [named])).append
      (consumed.append (middle.consumes_peek strictBlocks (by simp [closes])))

include sound fits

theorem sound_prefixed
    {tree : Expression}
    (kind :
      start.stream.current.kind = .dash ∨ start.stream.current.kind = .not)
    (given : (prefixed routines start).Gives quiet tree after) :
    UnderstandsLeft quiet strictBlocks start after .prefixed tree := by
  unfold prefixed at given
  simp only [advance_bind_apply, gives_bind, pure_apply, gives_mk] at given
  obtain ⟨right, middle, givenRight, rfl, rfl⟩ := given
  obtain ⟨⟨read, consumed, reading⟩, stops⟩ :=
    sound.expressionSound (by simpa using fits) givenRight
  rw [Cursor.ahead_advance] at consumed
  have inside : start.stream.current.kind ≠ .endOfInput := by
    rcases kind with isDash | isNot
    · simp [isDash]
    · simp [isNot]
  exact ⟨.prefixed, .ofCurrent inside consumed (.prefixed kind reading),
    Nat.le_refl _, stops⟩

theorem sound_grouping
    {tree : Expression}
    (kind : start.stream.current.kind = .openParen)
    (given : (grouping routines start).Gives quiet tree after) :
    UnderstandsLeft quiet strictBlocks start after .prefixed tree := by
  unfold grouping at given
  simp only [advance_bind_apply, gives_bind, gives_expect, pure_apply,
    gives_mk] at given
  obtain ⟨inner, middle, givenInner, _, _, ⟨closes, rfl, rfl⟩, rfl, rfl⟩ := given
  obtain ⟨⟨read, consumed, reading⟩, -⟩ :=
    sound.expressionSound (by simpa using fits) givenInner
  rw [Cursor.ahead_advance] at consumed
  refine .ofPrimary (.ofCurrent (by simp [kind]) ?_ (.grouping kind reading closes))
  rw [Cursor.ahead_advance]
  exact consumed.append (middle.consumes_peek strictBlocks (by simp [closes]))

theorem sound_alternative
    {tree? : Option Block}
    (given : (alternative routines start).Gives quiet tree? after) :
    ∃ read,
      Consumes strictBlocks start.stream.ahead.tail
          after.stream.ahead.tail read ∧
        Reads (¬ quiet) .alternative read tree? := by
  unfold alternative at given
  simp only [peekKind_bind_apply, ite_apply] at given
  split at given
  · rename_i isElse
    simp only [advance_bind_apply, gives_bind, gives_expect, pure_apply,
      gives_mk] at given
    obtain ⟨_, _, ⟨opens, rfl, rfl⟩, inner, middle, givenInner, rfl, rfl⟩ := given
    rw [Cursor.peek_eq_current_advance] at opens
    obtain ⟨read, consumed, reading⟩ :=
      sound.blockSound (by simpa using fits) opens givenInner
    refine ⟨_, ?_, .someAlternative isElse reading⟩
    simp only [Cursor.ahead_advance] at consumed
    exact (start.consumes_peek strictBlocks (by simp [isElse])).append consumed
  · simp only [pure_apply, gives_mk] at given
    obtain ⟨rfl, rfl⟩ := given
    exact ⟨[], .nil, .noAlternative⟩

theorem sound_conditional
    {tree : Expression}
    (kind : start.stream.current.kind = .ifWord)
    (given : (conditional routines start).Gives quiet tree after) :
    UnderstandsLeft quiet strictBlocks start after .prefixed tree := by
  unfold conditional at given
  simp only [current_bind_apply, advance_bind_apply, gives_bind, gives_expect,
    pure_apply, gives_mk] at given
  obtain ⟨_, _, ⟨opens, rfl, rfl⟩, condition, afterCondition, givenCondition,
    _, _, ⟨closes, rfl, rfl⟩, _, _, ⟨opensBlock, rfl, rfl⟩,
    consequence, afterConsequence, givenConsequence,
    alternative?, afterAll, givenAlternative, rfl, rfl⟩ := given
  rw [Cursor.peek_eq_current_advance] at opensBlock
  have fitsCondition : nestingLimit ≤ levels + afterCondition.depth :=
    (sound.expression _).fits_of_gives (by simpa using fits) givenCondition
  have fitsConsequence : nestingLimit ≤ levels + afterConsequence.depth :=
    sound.block.fits_of_gives (by simpa using fitsCondition) givenConsequence
  obtain ⟨⟨conditionTokens, conditionConsumed, conditionReading⟩, -⟩ :=
    sound.expressionSound (by simpa using fits) givenCondition
  obtain ⟨consequenceTokens, consequenceConsumed, consequenceReading⟩ :=
    sound.blockSound (by simpa using fitsCondition) opensBlock givenConsequence
  obtain ⟨alternativeTokens, alternativeConsumed, alternativeReading⟩ :=
    sound_alternative sound fitsConsequence givenAlternative
  simp only [Cursor.ahead_advance] at conditionConsumed consequenceConsumed
  refine .ofPrimary (.ofCurrent (by simp [kind]) ?_
    (.conditional kind opens conditionReading closes consequenceReading
      alternativeReading))
  exact (start.consumes_peek strictBlocks (by simp [opens])).append
    (conditionConsumed.append
      ((afterCondition.consumes_peek strictBlocks (by simp [closes])).append
        (consequenceConsumed.append alternativeConsumed)))

theorem sound_function
    {tree : Expression}
    (kind : start.stream.current.kind = .fnWord)
    (given : (function routines start).Gives quiet tree after) :
    UnderstandsLeft quiet strictBlocks start after .prefixed tree := by
  unfold function at given
  simp only [current_bind_apply, gives_bind, gives_expect, pure_apply,
    gives_mk] at given
  obtain ⟨_, _, ⟨opens, rfl, rfl⟩, names, afterNames, givenNames,
    _, _, ⟨opensBody, rfl, rfl⟩, body, afterBody, givenBody, rfl, rfl⟩ := given
  rw [Cursor.peek_eq_current_advance] at opensBody
  have fitsNames : nestingLimit ≤ levels + afterNames.depth :=
    orderly_parameters.fits_of_gives (by simpa using fits) givenNames
  obtain ⟨nameTokens, closing, namesConsumed, namesReading, closes⟩ :=
    sound_parameters givenNames
  obtain ⟨bodyTokens, bodyConsumed, bodyReading⟩ :=
    sound.blockSound (by simpa using fitsNames) opensBody givenBody
  simp only [Cursor.ahead_advance] at namesConsumed bodyConsumed
  refine .ofPrimary (.ofCurrent (by simp [kind]) ?_
    (.function kind opens namesReading closes bodyReading))
  have inner := namesConsumed.append bodyConsumed
  rw [List.append_assoc] at inner
  exact (start.consumes_peek strictBlocks (by simp [opens])).append inner

/-- An operand is read as an expression that no binary operator is outermost in. -/
theorem sound_operand
    {tree : Expression}
    (given : (operand routines start).Gives quiet tree after) :
    UnderstandsLeft quiet strictBlocks start after .prefixed tree := by
  unfold operand at given
  rw [current_bind_apply] at given
  cases kind : start.stream.current.kind with
  | identifier =>
      simp only [kind, TokenKind.operandForm?, operandOf, identifier,
        current_bind_apply, pure_apply, gives_mk] at given
      obtain ⟨rfl, rfl⟩ := given
      exact .ofPrimary (.ofCurrent (by simp [kind]) .nil (.identifier kind))
  | number =>
      simp only [kind, TokenKind.operandForm?, operandOf, integer,
        current_bind_apply] at given
      cases text : Text.readInteger? start.stream.current.value with
      | none =>
          simp [text] at given
      | some value =>
          simp only [text, pure_apply, gives_mk] at given
          obtain ⟨rfl, rfl⟩ := given
          exact .ofPrimary (.ofCurrent (by simp [kind]) .nil (.integer kind text))
  | string =>
      simp only [kind, TokenKind.operandForm?, operandOf, string,
        current_bind_apply, pure_apply, gives_mk] at given
      obtain ⟨rfl, rfl⟩ := given
      exact .ofPrimary (.ofCurrent (by simp [kind]) .nil (.string kind))
  | trueWord =>
      simp only [kind, TokenKind.operandForm?, operandOf, boolean,
        current_bind_apply, pure_apply, gives_mk] at given
      obtain ⟨rfl, rfl⟩ := given
      exact .ofPrimary (.ofCurrent (by simp [kind]) .nil (.boolean kind))
  | falseWord =>
      simp only [kind, TokenKind.operandForm?, operandOf, boolean,
        current_bind_apply, pure_apply, gives_mk] at given
      obtain ⟨rfl, rfl⟩ := given
      exact .ofPrimary (.ofCurrent (by simp [kind]) .nil (.boolean kind))
  | not =>
      simp only [kind, TokenKind.operandForm?, operandOf] at given
      exact sound_prefixed sound fits (.inr kind) given
  | dash =>
      simp only [kind, TokenKind.operandForm?, operandOf] at given
      exact sound_prefixed sound fits (.inl kind) given
  | openParen =>
      simp only [kind, TokenKind.operandForm?, operandOf] at given
      exact sound_grouping sound fits kind given
  | ifWord =>
      simp only [kind, TokenKind.operandForm?, operandOf] at given
      exact sound_conditional sound fits kind given
  | fnWord =>
      simp only [kind, TokenKind.operandForm?, operandOf] at given
      exact sound_function sound fits kind given
  | _ =>
      simp [kind, TokenKind.operandForm?] at given

theorem sound_moreArguments
    {count : Nat}
    {values : List Expression}
    (given : (moreArguments routines count start).Gives quiet values after) :
    ∃ read,
      Consumes strictBlocks start.stream.ahead.tail
          after.stream.ahead.tail read ∧
        Reads (¬ quiet) .furtherArguments read values := by
  induction count generalizing start values with
  | zero =>
      simp only [moreArguments, pure_apply, gives_mk] at given
      obtain ⟨rfl, rfl⟩ := given
      exact ⟨[], .nil, .lastArgument⟩
  | succ count inductionHypothesis =>
      simp only [moreArguments, peekKind_bind_apply, ite_apply] at given
      split at given
      · rename_i separates
        simp only [advance_bind_apply, gives_bind, andSoOn_eq, gives_map] at given
        obtain ⟨first, middle, givenFirst, others, givenOthers, rfl⟩ := given
        have fitsOthers : nestingLimit ≤ levels + middle.depth :=
          (sound.expression _).fits_of_gives (by simpa using fits) givenFirst
        obtain ⟨⟨firstTokens, firstConsumed, firstReading⟩, -⟩ :=
          sound.expressionSound (by simpa using fits) givenFirst
        obtain ⟨read, consumed, reading⟩ :=
          inductionHypothesis fitsOthers givenOthers
        simp only [Cursor.ahead_advance] at firstConsumed
        refine ⟨_, ?_, .nextArgument separates firstReading reading⟩
        exact (start.consumes_peek strictBlocks (by simp [separates])).append
          (firstConsumed.append consumed)
      · simp only [pure_apply, gives_mk] at given
        obtain ⟨rfl, rfl⟩ := given
        exact ⟨[], .nil, .lastArgument⟩

theorem sound_arguments
    {values : List Expression}
    (given : (arguments routines start).Gives quiet values after) :
    ∃ read closing,
      Consumes strictBlocks start.stream.ahead.tail
          after.stream.ahead.tail (read ++ [closing]) ∧
        Reads (¬ quiet) .arguments read values ∧
        closing.kind = .closeParen := by
  simp only [arguments, peekKind_bind_apply, ite_apply] at given
  split at given
  · rename_i closes
    simp only [advance_bind_apply, pure_apply, gives_mk] at given
    obtain ⟨rfl, rfl⟩ := given
    refine ⟨[], _, ?_, .noArguments, closes⟩
    rw [Cursor.ahead_advance]
    exact start.consumes_peek strictBlocks (by simp [closes])
  · simp only [advance_bind_apply, gives_bind, gives_expect,
      rounds_bind_apply, pure_apply, gives_mk] at given
    obtain ⟨first, middle, givenFirst, rest, afterRest, givenRest,
      _, _, ⟨closes, rfl, rfl⟩, rfl, rfl⟩ := given
    have fitsRest : nestingLimit ≤ levels + middle.depth :=
      (sound.expression _).fits_of_gives (by simpa using fits) givenFirst
    obtain ⟨⟨firstTokens, firstConsumed, firstReading⟩, -⟩ :=
      sound.expressionSound (by simpa using fits) givenFirst
    obtain ⟨restTokens, restConsumed, restReading⟩ :=
      sound_moreArguments sound fitsRest givenRest
    refine ⟨_, _, ?_, .someArguments firstReading restReading, closes⟩
    simp only [Cursor.ahead_advance] at firstConsumed ⊢
    rw [List.append_assoc]
    exact firstConsumed.append
      (restConsumed.append
        (afterRest.consumes_peek strictBlocks (by simp [closes])))

end Operands

section Operators

variable
  {origin : Cursor}
  {left tree : Expression}
  {loosest stratum : Stratum}

/-- A binary operator takes the expression to its left as an operand. -/
theorem sound_binary
    (sound : SoundRoutines quiet strictBlocks levels routines)
    (fits : nestingLimit ≤ levels + start.depth)
    (understood :
      Understands quiet strictBlocks origin start (.expression stratum) left)
    (kind : start.stream.peek.kind ∈ stratum.operators)
    (same : stratum.rank = start.stream.peek.kind.precedence.rank)
    (ordered : loosest.rank ≤ stratum.rank)
    (given :
      (binary routines left start.stream.peek.kind.precedence
        start.advance).Gives quiet tree after) :
    UnderstandsLeft quiet strictBlocks origin after loosest tree := by
  unfold binary at given
  simp only [advance_bind_apply, gives_bind, pure_apply, gives_mk,
    ← Cursor.peek_eq_current_advance] at given
  obtain ⟨right, middle, givenRight, rfl, rfl⟩ := given
  obtain ⟨leftTokens, leftConsumed, leftReading⟩ := understood
  obtain ⟨⟨rightTokens, rightConsumed, rightReading⟩, stops⟩ :=
    sound.expressionSound (by simpa using fits) givenRight
  rw [Precedence.stratumAbove_of_rank_eq kind same] at rightReading
  simp only [Cursor.ahead_advance] at rightConsumed
  have inside : start.stream.peek.kind ≠ .endOfInput := by
    intro ends
    cases stratum <;> simp [ends, Stratum.operators] at kind
  refine ⟨stratum, ⟨_, ?_, .binary leftReading kind rightReading⟩, ordered, ?_⟩
  · exact leftConsumed.append
      ((start.consumes_peek strictBlocks inside).append rightConsumed)
  · intro form isOperator
    rw [same]
    exact stops form isOperator

/-- A call takes the expression to its left as its callee. -/
theorem sound_call
    (sound : SoundRoutines quiet strictBlocks levels routines)
    (fits : nestingLimit ≤ levels + start.depth)
    (understood :
      Understands quiet strictBlocks origin start (.expression .call) left)
    (opens : start.stream.peek.kind = .openParen)
    (ordered : loosest.rank ≤ Stratum.call.rank)
    (given : (call routines left start.advance).Gives quiet tree after) :
    UnderstandsLeft quiet strictBlocks origin after loosest tree := by
  unfold call at given
  simp only [current_bind_apply, gives_bind, pure_apply, gives_mk,
    ← Cursor.peek_eq_current_advance] at given
  obtain ⟨values, middle, givenValues, rfl, rfl⟩ := given
  obtain ⟨leftTokens, leftConsumed, leftReading⟩ := understood
  obtain ⟨read, closing, consumed, reading, closes⟩ :=
    sound_arguments sound (by simpa using fits) givenValues
  rw [Cursor.ahead_advance] at consumed
  refine ⟨.call, ⟨_, ?_, .call leftReading opens reading closes⟩, ordered,
    fun _ _ => precedence_rank_le_call _⟩
  exact leftConsumed.append
    ((start.consumes_peek strictBlocks (by simp [opens])).append consumed)

end Operators

section Statements

/-- The tokens passed read as a statement and what separates it from the next. -/
def UnderstandsStatement
    (quiet : Prop)
    (strictBlocks : Bool)
    (start after : Cursor)
    (tree : Statement) :
    Prop :=
  ∃ read separator,
    Consumes strictBlocks start.stream.ahead after.stream.ahead.tail
        (read ++ separator) ∧
      Reads (¬ quiet) .statement read tree ∧
      ∀ following,
        (∀ token ∈ following.head?,
          token ∈ after.stream.ahead.tail.head? ∨ token.kind = .closeCurly) →
        Separates separator following

/-- Behind a whole expression a semicolon may be passed. -/
theorem UnderstandsStatement.ofExpression
    {middle : Cursor}
    {tree : Statement}
    {read : List Token}
    (consumed :
      Consumes strictBlocks start.stream.ahead middle.stream.ahead.tail read)
    (reading : Reads (¬ quiet) .statement read tree)
    (stops : middle.stream.peek.kind.StopsAt .lowest)
    (passed :
      after =
        if middle.stream.peek.kind = .semicolon then
          middle.advance
        else
          middle) :
    UnderstandsStatement quiet strictBlocks start after tree := by
  split at passed
  · rename_i isSemicolon
    subst passed
    refine ⟨read, _, ?_, reading, fun _ _ => .semicolon isSemicolon⟩
    rw [Cursor.ahead_advance]
    exact consumed.append
      (middle.consumes_peek strictBlocks (by simp [isSemicolon]))
  · subst passed
    refine ⟨read, [], by simpa using consumed, reading, fun following heads => ?_⟩
    refine .nothing fun token head => ?_
    rcases heads token head with isNext | isBracket
    · have same : after.stream.peek = token := by
        rw [Cursor.peek_eq_current_advance, TokenStream.current,
          Cursor.ahead_advance]
        simp [Option.mem_def.mp isNext]
      rw [← same]
      exact stops.distinct
    · simp [isBracket]

variable
  (sound : SoundRoutines quiet strictBlocks levels routines)
  (fits : nestingLimit ≤ levels + start.depth)

include sound fits

theorem sound_binding
    {tree : Statement}
    (kind : start.stream.current.kind = .letWord)
    (given : (binding routines start).Gives quiet tree after) :
    UnderstandsStatement quiet strictBlocks start after tree := by
  unfold binding at given
  simp only [current_bind_apply, advance_bind_apply, gives_bind, gives_expect,
    gives_skipSemicolon, pure_apply, gives_mk] at given
  obtain ⟨_, _, ⟨named, rfl, rfl⟩, _, _, ⟨assigns, rfl, rfl⟩,
    value, middle, givenValue, _, _, passed, rfl, rfl⟩ := given
  obtain ⟨⟨read, consumed, reading⟩, stops⟩ :=
    sound.expressionSound (by simpa using fits) givenValue
  have signConsumed :=
    start.advance.consumes_peek strictBlocks (by simp [assigns])
  simp only [Cursor.ahead_advance] at consumed signConsumed
  refine .ofExpression ?_ (.binding kind named assigns reading) stops passed
  exact (start.consumes_current strictBlocks (by simp [kind])).append
    ((start.consumes_peek strictBlocks (by simp [named])).append
      (signConsumed.append consumed))

theorem sound_returning
    {tree : Statement}
    (kind : start.stream.current.kind = .returnWord)
    (given : (returning routines start).Gives quiet tree after) :
    UnderstandsStatement quiet strictBlocks start after tree := by
  unfold returning at given
  simp only [advance_bind_apply, gives_bind, gives_skipSemicolon, pure_apply,
    gives_mk] at given
  obtain ⟨value, middle, givenValue, _, _, passed, rfl, rfl⟩ := given
  obtain ⟨⟨read, consumed, reading⟩, stops⟩ :=
    sound.expressionSound (by simpa using fits) givenValue
  rw [Cursor.ahead_advance] at consumed
  refine .ofExpression ?_ (.returning kind reading) stops passed
  exact (start.consumes_current strictBlocks (by simp [kind])).append consumed

theorem sound_expressionStatement
    {tree : Statement}
    (inside : start.stream.current.kind ≠ .endOfInput)
    (given : (expressionStatement routines start).Gives quiet tree after) :
    UnderstandsStatement quiet strictBlocks start after tree := by
  unfold expressionStatement at given
  simp only [current_bind_apply, gives_bind, gives_skipSemicolon, pure_apply,
    gives_mk] at given
  obtain ⟨value, middle, givenValue, _, _, passed, rfl, rfl⟩ := given
  obtain ⟨⟨read, consumed, reading⟩, stops⟩ :=
    sound.expressionSound fits givenValue
  obtain ⟨first, others, rfl, -⟩ := reading.head_operandForm
  have isFirst : first = start.stream.current := by
    rw [Cursor.ahead_of_current_kind_ne inside] at consumed
    exact consumed.head_eq
  subst isFirst
  exact .ofExpression consumed (.expressionStatement reading) stops passed

/-- A statement, through its semicolon if it has one. -/
theorem sound_statement
    {tree : Statement}
    (inside : start.stream.current.kind ≠ .endOfInput)
    (given : (statement routines start).Gives quiet tree after) :
    UnderstandsStatement quiet strictBlocks start after tree := by
  have stated := gives_statement given
  cases kind : start.stream.current.kind with
  | letWord =>
      rw [kind] at stated
      exact sound_binding sound fits kind stated
  | returnWord =>
      rw [kind] at stated
      exact sound_returning sound fits kind stated
  | _ =>
      rw [kind] at stated
      exact sound_expressionStatement sound fits inside stated

/--
One round of reading statements.  A statement that could not be read leaves a
gap, and a quiet run has none.
-/
theorem sound_attempt_statement
    {statement? : Option Statement}
    {others : List Statement}
    {rest othersTokens : List Token}
    (inside : start.stream.current.kind ≠ .endOfInput)
    (given :
      (attempt (statement routines) start).Gives quiet statement? after)
    (othersConsumed :
      Consumes strictBlocks after.stream.ahead.tail rest othersTokens)
    (othersReading : Reads (¬ quiet) .statements othersTokens others) :
    ∃ read,
      Consumes strictBlocks start.stream.ahead rest read ∧
        Reads (¬ quiet) .statements read (statement?.toList ++ others) := by
  have routinesOrderly := sound.toOrderlyRoutines
  have orderly : Orderly levels (statement routines) :=
    inferInstance
  rw [gives_attempt] at given
  cases statement? with
  | none =>
      have loud : ¬ quiet := fun asked =>
        orderly.reports start fits given.1 (given.2.2 asked)
      have onward := orderly.ahead start fits
      rw [given.2.1] at onward
      obtain ⟨skipped, whole⟩ := (List.tail_suffix _).trans onward
      have skips :
          Consumes strictBlocks start.stream.ahead
            after.stream.ahead.tail skipped :=
        ⟨⟨skipped, whole⟩, [], by simp [whole]⟩
      exact ⟨skipped ++ othersTokens, skips.append othersConsumed,
        .gap loud othersReading⟩
  | some tree =>
      obtain ⟨read, separator, consumed, reading, separates⟩ :=
        sound_statement sound fits inside given
      refine ⟨read ++ (separator ++ othersTokens), ?_,
        .someStatements reading (separates othersTokens ?_) othersReading⟩
      · rw [← List.append_assoc]
        exact consumed.append othersConsumed
      · intro token head
        exact othersConsumed.head_of_mem head

/-- The statements of a block, up to its closing bracket or the end of input. -/
theorem sound_statements
    {count : Nat}
    {trees : List Statement}
    (enough : start.stream.ahead.length ≤ count)
    (given : (statements routines count start).Gives quiet trees after) :
    (∃ read,
      Consumes strictBlocks start.stream.ahead after.stream.ahead read ∧
        Reads (¬ quiet) .statements read trees) ∧
      (after.stream.current.kind = .closeCurly ∨ after.stream.ahead = []) := by
  have routinesOrderly := sound.toOrderlyRoutines
  induction count generalizing start trees with
  | zero =>
      simp only [statements, pure_apply, gives_mk] at given
      obtain ⟨rfl, rfl⟩ := given
      exact ⟨⟨[], .nil, .noStatements⟩,
        .inr (List.length_eq_zero_iff.mp (by omega))⟩
  | succ count inductionHypothesis =>
      simp only [statements, currentKind_bind_apply, ite_apply] at given
      split at given
      · rename_i ends
        simp only [pure_apply, gives_mk] at given
        obtain ⟨rfl, rfl⟩ := given
        refine ⟨⟨[], .nil, .noStatements⟩, ends.imp_right ?_⟩
        exact (after.stream.current_kind_eq_endOfInput_iff).mp
      · rename_i goesOn
        simp only [gives_bind, advance_bind_apply, andSoOn_eq, gives_map] at given
        obtain ⟨statement?, middle, attempted, others, givenOthers, rfl⟩ := given
        have inside : start.stream.current.kind ≠ .endOfInput :=
          fun ends => goesOn (.inr ends)
        have orderly : Orderly levels (attempt (statement routines)) :=
          inferInstance
        have fitsOthers := orderly.fits_of_gives fits attempted
        have onward := orderly.ahead start fits
        rw [attempted.2.1] at onward
        have shorter : middle.stream.ahead.tail.length ≤ count := by
          have bounded := onward.length_le
          have ahead := Cursor.ahead_of_current_kind_ne inside
          have positive : 0 < start.stream.ahead.length := by
            rw [ahead]
            simp
          rw [List.length_tail]
          omega
        obtain ⟨⟨read, consumed, reading⟩, stops⟩ :=
          inductionHypothesis (by simpa using fitsOthers)
            (by simpa using shorter) givenOthers
        rw [Cursor.ahead_advance] at consumed
        exact ⟨sound_attempt_statement sound fits inside attempted consumed
          reading, stops⟩

/-- The closing bracket of a block may be missing where blocks are not strict. -/
theorem sound_blockBody
    {tree : Block}
    (kind : start.stream.current.kind = .openCurly)
    (given : (blockBody strictBlocks routines start).Gives quiet tree after) :
    Understands quiet strictBlocks start after .block tree := by
  unfold blockBody at given
  simp only [advance_bind_apply, rounds_bind_apply, current_bind_apply,
    gives_bind, ite_apply] at given
  obtain ⟨inner, final, givenInner, finished⟩ := given
  obtain ⟨⟨read, consumed, reading⟩, stops⟩ :=
    sound_statements sound (by simpa using fits) (Nat.le_refl _) givenInner
  rw [Cursor.ahead_advance] at consumed
  split at finished
  · exact (not_gives_reject finished).elim
  · rename_i accepted
    simp only [pure_apply, gives_mk] at finished
    obtain ⟨rfl, rfl⟩ := finished
    obtain ⟨closing, closes, closed⟩ :
        ∃ closing : Token,
          closing.kind = .closeCurly ∧
            Consumes strictBlocks after.stream.ahead
              after.stream.ahead.tail [closing] := by
      rcases stops with closes | ends
      · exact ⟨_, closes,
          after.consumes_current strictBlocks (by simp [closes])⟩
      · have permissive : strictBlocks = false := by
          have isEnd :=
            (after.stream.current_kind_eq_endOfInput_iff).mpr ends
          cases strictBlocks with
          | false => rfl
          | true => exact (accepted ⟨rfl, isEnd⟩).elim
        refine ⟨⟨.closeCurly, "\x7d", Span.null⟩, rfl, ?_⟩
        rw [ends]
        exact .closed permissive rfl
    exact .ofCurrent (by simp [kind]) (consumed.append closed)
      (.block kind reading closes)

end Statements

section Nesting

/-- One operator, applied to the expression to its left. -/
theorem sound_operatorOf
    {origin : Cursor}
    {bound : Precedence}
    {left tree : Expression}
    {form : OperatorForm}
    (sound : SoundRoutines quiet strictBlocks levels routines)
    (fits : nestingLimit ≤ levels + start.depth)
    (understood :
      UnderstandsLeft quiet strictBlocks origin start bound.stratumAbove left)
    (isOperator : start.stream.peek.kind.operatorForm? = some form)
    (tighter : bound.rank < start.stream.peek.kind.precedence.rank)
    (given :
      (operatorOf routines left start.stream.peek.kind.precedence form
        start.advance).Gives quiet tree after) :
    UnderstandsLeft quiet strictBlocks origin after bound.stratumAbove tree := by
  obtain ⟨stratum, ⟨read, consumed, reading⟩, -, follows⟩ := understood
  have ordered := follows form isOperator
  cases form with
  | binary =>
      obtain ⟨own, member, same⟩ := TokenKind.operatorForm?_binary isOperator
      rw [← same] at ordered tighter
      exact sound_binary sound fits ⟨read, consumed, reading.loosen ordered⟩
        member same (Precedence.stratumAbove_rank_le (.inl tighter)) given
  | call =>
      have opens := TokenKind.operatorForm?_call isOperator
      rw [opens] at ordered
      exact sound_call sound fits ⟨read, consumed, reading.loosen ordered⟩
        opens (Precedence.stratumAbove_rank_le (.inr (by decide))) given

/-- An expression to which no operator is applied any more is complete. -/
theorem UnderstandsLeft.complete
    {bound : Precedence}
    {tree : Expression}
    (understood :
      UnderstandsLeft quiet strictBlocks start after bound.stratumAbove tree) :
    Understands quiet strictBlocks start after
      (.expression bound.stratumAbove) tree := by
  obtain ⟨stratum, ⟨read, consumed, reading⟩, ordered, -⟩ := understood
  exact ⟨read, consumed, reading.loosen ordered⟩

/--
Within their levels, all routines pass tokens that read as what they give.
Operators are applied one after the other to an expression that may be the left
operand of whatever follows it.
-/
theorem sound_within :
    SoundRoutines quiet strictBlocks levels
        (routinesWithin strictBlocks levels) ∧
      ∀ {bound origin start left tree after},
        nestingLimit ≤ levels + start.depth →
        UnderstandsLeft quiet strictBlocks origin start
          bound.stratumAbove left →
        (operatorsWithin strictBlocks levels bound left start).Gives
          quiet tree after →
          Understands quiet strictBlocks origin after
              (.expression bound.stratumAbove) tree ∧
            after.stream.peek.kind.StopsAt bound := by
  induction levels using Nat.strongRecOn with
  | ind levels inductionHypothesis =>
      refine ⟨⟨orderly_within.1, ?_, ?_⟩, ?_⟩
      · intro bound start tree after fits given
        obtain ⟨fewer, left, middle, inner, rfl, read, applied, rfl⟩ :=
          gives_expressionWithin given
        obtain ⟨sound, operatorsSound⟩ := inductionHypothesis fewer (by omega)
        have orderly := sound.toOrderlyRoutines
        have fitsInner := fits_inside fits
        have fitsMiddle := (orderly_operand).fits_of_gives fitsInner read
        obtain ⟨stratum, understood, tight, follows⟩ :=
          sound_operand sound fitsInner read
        have whole := operatorsSound fitsMiddle
          ⟨stratum, understood,
            Precedence.stratumAbove_rank_le (.inr tight), follows⟩ applied
        exact whole
      · intro start tree after fits kind given
        obtain ⟨fewer, inner, rfl, body, rfl⟩ := gives_blockWithin given
        have sound := (inductionHypothesis fewer (by omega)).1
        have fitsInner := fits_inside fits
        have whole := sound_blockBody sound fitsInner kind body
        exact whole
      · intro bound origin start left tree after fits understood given
        rcases gives_operatorsWithin given with
          ⟨stops, rfl, rfl⟩ |
          ⟨fewer, form, bigger, middle, rfl, isOperator, tighter, once, others⟩
        · exact ⟨understood.complete, stops⟩
        · obtain ⟨sound, operatorsSound⟩ := inductionHypothesis fewer (by omega)
          have orderly := sound.toOrderlyRoutines
          have fitsInner := fits_inside fits
          have fitsMiddle :=
            (orderly_operatorOf).fits_of_gives (by simpa using fitsInner) once
          have understoodBigger :
              UnderstandsLeft quiet strictBlocks origin middle
                bound.stratumAbove bigger :=
            sound_operatorOf sound fitsInner understood isOperator tighter once
          exact operatorsSound fitsMiddle understoodBigger others

end Nesting

end Parse

end Scriptlet
