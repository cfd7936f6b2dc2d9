import Scriptlet.Grammar
import Scriptlet.Syntax
import Scriptlet.Text.Decimal

namespace Scriptlet

/-!
# The grammar of programs

Which token lists read as which trees.  Expressions are layered: each stratum
of binary operators takes its left operand from the same stratum and its right
operand from the next tighter one, so operators of one stratum associate to the
left.  Prefix operators bind tighter than all binary ones, calls tighter still,
and a parenthesised expression stands wherever a primary one may.

A tree keeps the tokens that introduce its nodes, so a reading also says which
token of the list each node belongs to.  Lossy readings may leave out tokens
between statements; they describe what is kept of a program with faults in it.
-/

/-- The strata of expressions, from the loosest to the tightest. -/
inductive Stratum where
  | equality
  | relational
  | additive
  | multiplicative
  | prefixed
  | call
  | primary
  deriving Repr, DecidableEq

namespace Stratum

/-- Strata are ordered by how tightly they bind. -/
def rank : Stratum → Nat
  | .equality => 1
  | .relational => 2
  | .additive => 3
  | .multiplicative => 4
  | .prefixed => 5
  | .call => 6
  | .primary => 7

/-- The next tighter stratum; there is none above the primary expressions. -/
def next : Stratum → Stratum
  | .equality => .relational
  | .relational => .additive
  | .additive => .multiplicative
  | .multiplicative => .prefixed
  | .prefixed => .call
  | .call => .primary
  | .primary => .primary

/-- The binary operators of a stratum. -/
def operators : Stratum → List TokenKind
  | .equality => [.equals, .notEquals]
  | .relational => [.less, .greater]
  | .additive => [.plus, .dash]
  | .multiplicative => [.star, .slash]
  | .prefixed | .call | .primary => []

/-- The stratum a binary operator belongs to. -/
def ofOperator : TokenKind → Stratum
  | .equals | .notEquals => .equality
  | .less | .greater => .relational
  | .plus | .dash => .additive
  | .star | .slash => .multiplicative
  | _ => .primary

theorem rank_le_rank_primary (stratum : Stratum) :
    stratum.rank ≤ Stratum.primary.rank := by
  cases stratum <;> decide

theorem eq_of_rank_eq
    {left right : Stratum}
    (same : left.rank = right.rank) :
    left = right := by
  cases left <;> cases right <;> simp_all [rank]

/-- What binds at least as tightly as the next stratum binds tighter. -/
theorem rank_lt_of_rank_next_le
    {stratum other : Stratum}
    {kind : TokenKind}
    (member : kind ∈ stratum.operators)
    (ordered : stratum.next.rank ≤ other.rank) :
    stratum.rank < other.rank := by
  cases stratum <;> simp [rank, next, operators] at member ordered ⊢ <;> omega

theorem rank_le_rank_next (stratum : Stratum) :
    stratum.rank ≤ stratum.next.rank := by
  cases stratum <;> decide

theorem rank_next_le (stratum : Stratum) :
    stratum.next.rank ≤ stratum.rank + 1 := by
  cases stratum <;> decide

theorem rank_lt_rank_call_of_mem
    {stratum : Stratum}
    {kind : TokenKind}
    (member : kind ∈ stratum.operators) :
    stratum.rank < Stratum.call.rank := by
  cases stratum <;> simp [rank, operators] at member ⊢

/-- The stratum of a binary operator is that of its precedence. -/
theorem precedence_of_mem
    {stratum : Stratum}
    {kind : TokenKind}
    (member : kind ∈ stratum.operators) :
    kind.operatorForm? = some .binary ∧ stratum.rank = kind.precedence.rank := by
  cases stratum <;> simp [operators] at member <;>
    rcases member with rfl | rfl <;> decide

theorem ofOperator_of_mem
    {stratum : Stratum}
    {kind : TokenKind}
    (member : kind ∈ stratum.operators) :
    ofOperator kind = stratum := by
  cases stratum <;> simp [operators] at member <;>
    rcases member with rfl | rfl <;> rfl

end Stratum

/-- The stratum of the outermost form of an expression. -/
def Expression.stratum : Expression → Stratum
  | .binary operator _ _ _ => .ofOperator operator.kind
  | .prefixed .. => .prefixed
  | .call .. => .call
  | _ => .primary

/-- The kinds of phrase that tokens are read as. -/
inductive Phrase where
  | expression (stratum : Stratum)
  | arguments
  | furtherArguments
  | alternative
  | block
  | statement
  | statements
  deriving Repr, DecidableEq

/-- What a phrase reads as. -/
@[reducible]
def Phrase.Tree : Phrase → Type
  | .expression _ => Expression
  | .arguments => List Expression
  | .furtherArguments => List Expression
  | .alternative => Option Block
  | .block => Block
  | .statement => Statement
  | .statements => List Statement

/-- Parameters after the first one, each behind a comma. -/
inductive ReadsFurtherNames : List Token → List Name → Prop where
  | done : ReadsFurtherNames [] []
  | next
      {comma name : Token}
      {rest : List Token}
      {names : List Name}
      (separates : comma.kind = .comma)
      (named : name.kind = .identifier)
      (others : ReadsFurtherNames rest names) :
      ReadsFurtherNames (comma :: name :: rest) (Name.ofToken name :: names)

/-- The parameters of a function, without the parentheses around them. -/
inductive ReadsNames : List Token → List Name → Prop where
  | none : ReadsNames [] []
  | some
      {name : Token}
      {rest : List Token}
      {names : List Name}
      (named : name.kind = .identifier)
      (others : ReadsFurtherNames rest names) :
      ReadsNames (name :: rest) (Name.ofToken name :: names)

/--
What may stand between a statement and the tokens of those that follow it.  The
semicolon may be missing unless the next statement could be taken for a call of
what precedes it, or for a subtraction from it.
-/
inductive Separates : List Token → List Token → Prop where
  | semicolon
      {token : Token}
      {rest : List Token}
      (kind : token.kind = .semicolon) :
      Separates [token] rest
  | nothing
      {rest : List Token}
      (distinct :
        ∀ token ∈ rest.head?,
          token.kind ≠ .openParen ∧ token.kind ≠ .dash) :
      Separates [] rest

/-- A token list reads as a tree of the given kind of phrase. -/
inductive Reads (lossy : Prop) :
    (phrase : Phrase) → List Token → phrase.Tree → Prop where
  | identifier
      {token : Token}
      (kind : token.kind = .identifier) :
      Reads lossy (.expression .primary) [token]
        (Expression.identifier (Name.ofToken token))
  | integer
      {token : Token}
      {value : Int64}
      (kind : token.kind = .number)
      (text : Text.readInteger? token.value = some value) :
      Reads lossy (.expression .primary) [token]
        (Expression.integer token value)
  | string
      {token : Token}
      (kind : token.kind = .string) :
      Reads lossy (.expression .primary) [token]
        (Expression.string token token.value)
  | boolean
      {token : Token}
      {value : Bool}
      (kind : token.kind = if value then .trueWord else .falseWord) :
      Reads lossy (.expression .primary) [token]
        (Expression.boolean token value)
  | grouping
      {opening closing : Token}
      {tokens : List Token}
      {inner : Expression}
      (opens : opening.kind = .openParen)
      (reading : Reads lossy (.expression .equality) tokens inner)
      (closes : closing.kind = .closeParen) :
      Reads lossy (.expression .primary) (opening :: (tokens ++ [closing])) inner
  | conditional
      {word opening closing : Token}
      {conditionTokens consequenceTokens alternativeTokens : List Token}
      {condition : Expression}
      {consequence : Block}
      {alternative? : Option Block}
      (kind : word.kind = .ifWord)
      (opens : opening.kind = .openParen)
      (conditionReading :
        Reads lossy (.expression .equality) conditionTokens condition)
      (closes : closing.kind = .closeParen)
      (consequenceReading : Reads lossy .block consequenceTokens consequence)
      (alternativeReading :
        Reads lossy .alternative alternativeTokens alternative?) :
      Reads lossy (.expression .primary)
        (word :: opening ::
          (conditionTokens ++
            closing :: (consequenceTokens ++ alternativeTokens)))
        (Expression.conditional word condition consequence alternative?)
  | function
      {word opening closing : Token}
      {nameTokens bodyTokens : List Token}
      {names : List Name}
      {body : Block}
      (kind : word.kind = .fnWord)
      (opens : opening.kind = .openParen)
      (namesReading : ReadsNames nameTokens names)
      (closes : closing.kind = .closeParen)
      (bodyReading : Reads lossy .block bodyTokens body) :
      Reads lossy (.expression .primary)
        (word :: opening :: (nameTokens ++ closing :: bodyTokens))
        (Expression.function word names body)
  | call
      {opening closing : Token}
      {calleeTokens argumentTokens : List Token}
      {callee : Expression}
      {values : List Expression}
      (calleeReading : Reads lossy (.expression .call) calleeTokens callee)
      (opens : opening.kind = .openParen)
      (argumentsReading : Reads lossy .arguments argumentTokens values)
      (closes : closing.kind = .closeParen) :
      Reads lossy (.expression .call)
        (calleeTokens ++ opening :: (argumentTokens ++ [closing]))
        (Expression.call opening callee values)
  | prefixed
      {operator : Token}
      {tokens : List Token}
      {right : Expression}
      (kind : operator.kind = .dash ∨ operator.kind = .not)
      (reading : Reads lossy (.expression .prefixed) tokens right) :
      Reads lossy (.expression .prefixed) (operator :: tokens)
        (Expression.prefixed operator operator.value right)
  | binary
      {stratum : Stratum}
      {operator : Token}
      {leftTokens rightTokens : List Token}
      {left right : Expression}
      (leftReading : Reads lossy (.expression stratum) leftTokens left)
      (kind : operator.kind ∈ stratum.operators)
      (rightReading : Reads lossy (.expression stratum.next) rightTokens right) :
      Reads lossy (.expression stratum) (leftTokens ++ operator :: rightTokens)
        (Expression.binary operator left operator.value right)
  | tighter
      {looser stratum : Stratum}
      {tokens : List Token}
      {inner : Expression}
      (ordered : looser.rank < stratum.rank)
      (reading : Reads lossy (.expression stratum) tokens inner) :
      Reads lossy (.expression looser) tokens inner
  | noArguments : Reads lossy .arguments [] []
  | someArguments
      {firstTokens restTokens : List Token}
      {first : Expression}
      {rest : List Expression}
      (firstReading : Reads lossy (.expression .equality) firstTokens first)
      (restReading : Reads lossy .furtherArguments restTokens rest) :
      Reads lossy .arguments (firstTokens ++ restTokens) (first :: rest)
  | lastArgument : Reads lossy .furtherArguments [] []
  | nextArgument
      {comma : Token}
      {firstTokens restTokens : List Token}
      {first : Expression}
      {rest : List Expression}
      (separates : comma.kind = .comma)
      (firstReading : Reads lossy (.expression .equality) firstTokens first)
      (restReading : Reads lossy .furtherArguments restTokens rest) :
      Reads lossy .furtherArguments (comma :: (firstTokens ++ restTokens))
        (first :: rest)
  | noAlternative : Reads lossy .alternative [] none
  | someAlternative
      {word : Token}
      {tokens : List Token}
      {inner : Block}
      (kind : word.kind = .elseWord)
      (reading : Reads lossy .block tokens inner) :
      Reads lossy .alternative (word :: tokens) (some inner)
  | block
      {opening closing : Token}
      {tokens : List Token}
      {inner : List Statement}
      (opens : opening.kind = .openCurly)
      (reading : Reads lossy .statements tokens inner)
      (closes : closing.kind = .closeCurly) :
      Reads lossy .block (opening :: (tokens ++ [closing])) ⟨opening, inner⟩
  | binding
      {word name sign : Token}
      {tokens : List Token}
      {value : Expression}
      (kind : word.kind = .letWord)
      (named : name.kind = .identifier)
      (assigns : sign.kind = .assignment)
      (reading : Reads lossy (.expression .equality) tokens value) :
      Reads lossy .statement (word :: name :: sign :: tokens)
        (Statement.binding word (Name.ofToken name) value)
  | returning
      {word : Token}
      {tokens : List Token}
      {value : Expression}
      (kind : word.kind = .returnWord)
      (reading : Reads lossy (.expression .equality) tokens value) :
      Reads lossy .statement (word :: tokens) (Statement.returning word value)
  | expressionStatement
      {first : Token}
      {tokens : List Token}
      {value : Expression}
      (reading : Reads lossy (.expression .equality) (first :: tokens) value) :
      Reads lossy .statement (first :: tokens) (Statement.expression first value)
  | noStatements : Reads lossy .statements [] []
  | someStatements
      {firstTokens separator restTokens : List Token}
      {first : Statement}
      {rest : List Statement}
      (firstReading : Reads lossy .statement firstTokens first)
      (separates : Separates separator restTokens)
      (restReading : Reads lossy .statements restTokens rest) :
      Reads lossy .statements (firstTokens ++ (separator ++ restTokens))
        (first :: rest)
  | gap
      {skipped tokens : List Token}
      {rest : List Statement}
      (loss : lossy)
      (reading : Reads lossy .statements tokens rest) :
      Reads lossy .statements (skipped ++ tokens) rest

namespace Reads

variable {lossy : Prop}

/-- What reads at a stratum reads at every looser one. -/
theorem loosen
    {looser stratum : Stratum}
    {tokens : List Token}
    {tree : Expression}
    (reading : Reads lossy (.expression stratum) tokens tree)
    (ordered : looser.rank ≤ stratum.rank) :
    Reads lossy (.expression looser) tokens tree := by
  rcases Nat.eq_or_lt_of_le ordered with same | closer
  · rw [Stratum.eq_of_rank_eq same]
    exact reading
  · exact .tighter closer reading

/-- The first token of an expression introduces an operand. -/
theorem head_operandForm
    {stratum : Stratum}
    {tokens : List Token}
    {tree : Expression}
    (reading : Reads lossy (.expression stratum) tokens tree) :
    ∃ first others,
      tokens = first :: others ∧ first.kind.operandForm? ≠ none := by
  cases reading with
  | identifier kind =>
      exact ⟨_, _, rfl, by simp [kind, TokenKind.operandForm?]⟩
  | integer kind text =>
      exact ⟨_, _, rfl, by simp [kind, TokenKind.operandForm?]⟩
  | string kind =>
      exact ⟨_, _, rfl, by simp [kind, TokenKind.operandForm?]⟩
  | boolean kind =>
      refine ⟨_, _, rfl, ?_⟩
      rw [kind]
      split
      · simp [TokenKind.operandForm?]
      · simp [TokenKind.operandForm?]
  | grouping opens inner closes =>
      exact ⟨_, _, rfl, by simp [opens, TokenKind.operandForm?]⟩
  | conditional kind opens condition closes consequence alternative =>
      exact ⟨_, _, rfl, by simp [kind, TokenKind.operandForm?]⟩
  | function kind opens names closes body =>
      exact ⟨_, _, rfl, by simp [kind, TokenKind.operandForm?]⟩
  | call callee opens arguments closes =>
      obtain ⟨first, others, rfl, form⟩ := head_operandForm callee
      exact ⟨first, _, rfl, form⟩
  | prefixed kind right =>
      refine ⟨_, _, rfl, ?_⟩
      rcases kind with isDash | isNot
      · simp [isDash, TokenKind.operandForm?]
      · simp [isNot, TokenKind.operandForm?]
  | binary left kind right =>
      obtain ⟨first, others, rfl, form⟩ := head_operandForm left
      exact ⟨first, _, rfl, form⟩
  | tighter ordered inner =>
      rename_i closer
      have bounded := closer.rank_le_rank_primary
      exact head_operandForm inner
termination_by (tokens.length, Stratum.primary.rank - stratum.rank)
decreasing_by
  · subst_vars
    exact Prod.Lex.left _ _ (by simp)
  · subst_vars
    exact Prod.Lex.left _ _ (by simp)
  · exact Prod.Lex.right _ (by omega)

/-- The tokens are those of an expression between parentheses of its own. -/
def Parenthesised
    (lossy : Prop)
    (tokens : List Token)
    (tree : Expression) :
    Prop :=
  ∃ opening inner closing,
    tokens = opening :: (inner ++ [closing]) ∧
      opening.kind = .openParen ∧
      closing.kind = .closeParen ∧
      Reads lossy (.expression .equality) inner tree

/--
An expression read at a stratum binds at least as tightly as the stratum does,
unless it stands in parentheses.
-/
theorem parenthesised_or_rank_le
    {stratum : Stratum}
    {tokens : List Token}
    {tree : Expression}
    (reading : Reads lossy (.expression stratum) tokens tree) :
    Parenthesised lossy tokens tree ∨ stratum.rank ≤ tree.stratum.rank := by
  cases reading with
  | identifier kind =>
      exact .inr (Nat.le_refl _)
  | integer kind text =>
      exact .inr (Nat.le_refl _)
  | string kind =>
      exact .inr (Nat.le_refl _)
  | boolean kind =>
      exact .inr (Nat.le_refl _)
  | grouping opens inner closes =>
      exact .inl ⟨_, _, _, rfl, opens, closes, inner⟩
  | conditional kind opens conditionReading closes consequence alternative =>
      exact .inr (Nat.le_refl _)
  | function kind opens names closes body =>
      exact .inr (Nat.le_refl _)
  | call callee opens arguments closes =>
      exact .inr (Nat.le_refl _)
  | prefixed kind right =>
      exact .inr (Nat.le_refl _)
  | binary left kind right =>
      refine .inr (Nat.le_of_eq ?_)
      rw [Expression.stratum, Stratum.ofOperator_of_mem kind]
  | tighter ordered inner =>
      rename_i closer
      have bounded := closer.rank_le_rank_primary
      rcases parenthesised_or_rank_le inner with enclosed | tight
      · exact .inl enclosed
      · exact .inr (Nat.le_trans (Nat.le_of_lt ordered) tight)
termination_by Stratum.primary.rank - stratum.rank

/--
How the operands of an expression stand to its operator, as far as they are not
in parentheses: a left operand binds no looser than the operator, a right one
tighter; the operand of a prefix operator is no binary expression, and a callee
neither a binary nor a prefixed one.
-/
def OperandsFit
    (lossy : Prop)
    (tokens : List Token) :
    Expression → Prop
  | .binary operator left _ right =>
      ∃ leftTokens rightTokens,
        tokens = leftTokens ++ operator :: rightTokens ∧
          (Parenthesised lossy leftTokens left ∨
            (Stratum.ofOperator operator.kind).rank ≤ left.stratum.rank) ∧
          (Parenthesised lossy rightTokens right ∨
            (Stratum.ofOperator operator.kind).rank < right.stratum.rank)
  | .prefixed operator _ right =>
      ∃ rightTokens,
        tokens = operator :: rightTokens ∧
          (Parenthesised lossy rightTokens right ∨
            Stratum.prefixed.rank ≤ right.stratum.rank)
  | .call opening callee _ =>
      ∃ calleeTokens rest,
        tokens = calleeTokens ++ opening :: rest ∧
          (Parenthesised lossy calleeTokens callee ∨
            Stratum.call.rank ≤ callee.stratum.rank)
  | _ => True

/-- In every reading the operands fit their operators. -/
theorem parenthesised_or_operandsFit
    {stratum : Stratum}
    {tokens : List Token}
    {tree : Expression}
    (reading : Reads lossy (.expression stratum) tokens tree) :
    Parenthesised lossy tokens tree ∨ OperandsFit lossy tokens tree := by
  cases reading with
  | identifier kind =>
      exact .inr trivial
  | integer kind text =>
      exact .inr trivial
  | string kind =>
      exact .inr trivial
  | boolean kind =>
      exact .inr trivial
  | grouping opens inner closes =>
      exact .inl ⟨_, _, _, rfl, opens, closes, inner⟩
  | conditional kind opens conditionReading closes consequence alternative =>
      exact .inr trivial
  | function kind opens names closes body =>
      exact .inr trivial
  | call callee opens arguments closes =>
      exact .inr ⟨_, _, rfl, callee.parenthesised_or_rank_le⟩
  | prefixed kind right =>
      exact .inr ⟨_, rfl, right.parenthesised_or_rank_le⟩
  | binary left kind right =>
      refine .inr ⟨_, _, rfl, ?_, ?_⟩
      · rw [Stratum.ofOperator_of_mem kind]
        exact left.parenthesised_or_rank_le
      · rw [Stratum.ofOperator_of_mem kind]
        exact right.parenthesised_or_rank_le.imp_right fun tight =>
          Stratum.rank_lt_of_rank_next_le kind tight
  | tighter ordered inner =>
      rename_i closer
      have bounded := closer.rank_le_rank_primary
      exact parenthesised_or_operandsFit inner
termination_by Stratum.primary.rank - stratum.rank

end Reads

namespace TokenKind

/-- A token in operator position that does not continue what is bound by `bound`. -/
def StopsAt (kind : TokenKind) (bound : Precedence) : Prop :=
  ∀ form, kind.operatorForm? = some form → kind.precedence.rank ≤ bound.rank

theorem operatorForm?_binary
    {kind : TokenKind}
    (form : kind.operatorForm? = some .binary) :
    ∃ stratum : Stratum,
      kind ∈ stratum.operators ∧ stratum.rank = kind.precedence.rank := by
  cases kind <;> simp [operatorForm?] at form
  · exact ⟨.equality, by decide⟩
  · exact ⟨.equality, by decide⟩
  · exact ⟨.relational, by decide⟩
  · exact ⟨.relational, by decide⟩
  · exact ⟨.additive, by decide⟩
  · exact ⟨.additive, by decide⟩
  · exact ⟨.multiplicative, by decide⟩
  · exact ⟨.multiplicative, by decide⟩

theorem operatorForm?_call
    {kind : TokenKind}
    (form : kind.operatorForm? = some .call) :
    kind = .openParen := by
  cases kind <;> simp [operatorForm?] at form
  rfl

/-- What stops a whole expression starts a statement of its own. -/
theorem StopsAt.distinct
    {kind : TokenKind}
    (stops : kind.StopsAt .lowest) :
    kind ≠ .openParen ∧ kind ≠ .dash := by
  constructor
  · rintro rfl
    exact absurd (stops .call rfl) (by decide)
  · rintro rfl
    exact absurd (stops .binary rfl) (by decide)

end TokenKind

namespace Precedence

/-- The stratum of the expressions that bind tighter than a precedence. -/
def stratumAbove : Precedence → Stratum
  | .lowest => .equality
  | .equality => .relational
  | .relational => .additive
  | .additive => .multiplicative
  | .multiplicative | .unary | .call => .prefixed

theorem stratumAbove_rank_le
    {bound : Precedence}
    {stratum : Stratum}
    (tighter : bound.rank < stratum.rank ∨ Stratum.prefixed.rank ≤ stratum.rank) :
    bound.stratumAbove.rank ≤ stratum.rank := by
  cases bound <;> simp [stratumAbove, Stratum.rank, rank] at tighter ⊢ <;> omega

/-- The right operand of a binary operator is of the next stratum. -/
theorem stratumAbove_of_rank_eq
    {precedence : Precedence}
    {stratum : Stratum}
    {kind : TokenKind}
    (member : kind ∈ stratum.operators)
    (same : stratum.rank = precedence.rank) :
    precedence.stratumAbove = stratum.next := by
  cases stratum <;> cases precedence <;>
    simp_all [Stratum.operators, Stratum.rank, rank, stratumAbove, Stratum.next]

end Precedence

end Scriptlet
