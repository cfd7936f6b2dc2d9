import Scriptlet.Proofs.Grammar.Reading

namespace Scriptlet

/-!
# The grammar of canonical forms

Canonical forms leave no choice of parentheses: a prefixed or binary expression
always stands in a pair of them, and nothing else does.  So their grammar needs
no strata.  Every operand, callee, argument, condition and value is an expression
that can be told from its surroundings, and every statement but the last one is
followed by a semicolon.

What reads in this grammar reads in the grammar of programs.
-/

/-- The tokens are those of the canonical form of a tree. -/
inductive Prints : (phrase : Phrase) → List Token → phrase.Tree → Prop where
  | identifier
      {token : Token}
      (kind : token.kind = .identifier) :
      Prints (.expression .call) [token]
        (Expression.identifier (Name.ofToken token))
  | integer
      {token : Token}
      {value : Int64}
      (kind : token.kind = .number)
      (text : Text.readInteger? token.value = some value) :
      Prints (.expression .call) [token] (Expression.integer token value)
  | string
      {token : Token}
      (kind : token.kind = .string) :
      Prints (.expression .call) [token] (Expression.string token token.value)
  | boolean
      {token : Token}
      {value : Bool}
      (kind : token.kind = if value then .trueWord else .falseWord) :
      Prints (.expression .call) [token] (Expression.boolean token value)
  | prefixed
      {opening operator closing : Token}
      {tokens : List Token}
      {right : Expression}
      (opens : opening.kind = .openParen)
      (kind : operator.kind = .dash ∨ operator.kind = .not)
      (printed : Prints (.expression .call) tokens right)
      (closes : closing.kind = .closeParen) :
      Prints (.expression .call) (opening :: operator :: (tokens ++ [closing]))
        (Expression.prefixed operator operator.value right)
  | binary
      {stratum : Stratum}
      {opening operator closing : Token}
      {leftTokens rightTokens : List Token}
      {left right : Expression}
      (opens : opening.kind = .openParen)
      (leftPrinted : Prints (.expression .call) leftTokens left)
      (kind : operator.kind ∈ stratum.operators)
      (rightPrinted : Prints (.expression .call) rightTokens right)
      (closes : closing.kind = .closeParen) :
      Prints (.expression .call)
        (opening :: (leftTokens ++ operator :: (rightTokens ++ [closing])))
        (Expression.binary operator left operator.value right)
  | conditional
      {word opening closing : Token}
      {conditionTokens consequenceTokens alternativeTokens : List Token}
      {condition : Expression}
      {consequence : Block}
      {alternative? : Option Block}
      (kind : word.kind = .ifWord)
      (opens : opening.kind = .openParen)
      (conditionPrinted : Prints (.expression .call) conditionTokens condition)
      (closes : closing.kind = .closeParen)
      (consequencePrinted : Prints .block consequenceTokens consequence)
      (alternativePrinted :
        Prints .alternative alternativeTokens alternative?) :
      Prints (.expression .call)
        (word :: opening ::
          (conditionTokens ++
            closing :: (consequenceTokens ++ alternativeTokens)))
        (Expression.conditional word condition consequence alternative?)
  | function
      {word opening closing : Token}
      {nameTokens bodyTokens : List Token}
      {names : List Name}
      {body : Block}
      (kind : word.kind = .fnWord)
      (opens : opening.kind = .openParen)
      (namesReading : ReadsNames nameTokens names)
      (closes : closing.kind = .closeParen)
      (bodyPrinted : Prints .block bodyTokens body) :
      Prints (.expression .call)
        (word :: opening :: (nameTokens ++ closing :: bodyTokens))
        (Expression.function word names body)
  | call
      {opening closing : Token}
      {calleeTokens argumentTokens : List Token}
      {callee : Expression}
      {values : List Expression}
      (calleePrinted : Prints (.expression .call) calleeTokens callee)
      (opens : opening.kind = .openParen)
      (argumentsPrinted : Prints .arguments argumentTokens values)
      (closes : closing.kind = .closeParen) :
      Prints (.expression .call)
        (calleeTokens ++ opening :: (argumentTokens ++ [closing]))
        (Expression.call opening callee values)
  | noArguments : Prints .arguments [] []
  | someArguments
      {firstTokens restTokens : List Token}
      {first : Expression}
      {rest : List Expression}
      (firstPrinted : Prints (.expression .call) firstTokens first)
      (restPrinted : Prints .furtherArguments restTokens rest) :
      Prints .arguments (firstTokens ++ restTokens) (first :: rest)
  | lastArgument : Prints .furtherArguments [] []
  | nextArgument
      {comma : Token}
      {firstTokens restTokens : List Token}
      {first : Expression}
      {rest : List Expression}
      (separates : comma.kind = .comma)
      (firstPrinted : Prints (.expression .call) firstTokens first)
      (restPrinted : Prints .furtherArguments restTokens rest) :
      Prints .furtherArguments (comma :: (firstTokens ++ restTokens))
        (first :: rest)
  | noAlternative : Prints .alternative [] none
  | someAlternative
      {word : Token}
      {tokens : List Token}
      {inner : Block}
      (kind : word.kind = .elseWord)
      (printed : Prints .block tokens inner) :
      Prints .alternative (word :: tokens) (some inner)
  | block
      {opening closing : Token}
      {tokens : List Token}
      {inner : List Statement}
      (opens : opening.kind = .openCurly)
      (printed : Prints .statements tokens inner)
      (closes : closing.kind = .closeCurly) :
      Prints .block (opening :: (tokens ++ [closing])) ⟨opening, inner⟩
  | binding
      {word name sign : Token}
      {tokens : List Token}
      {value : Expression}
      (kind : word.kind = .letWord)
      (named : name.kind = .identifier)
      (assigns : sign.kind = .assignment)
      (printed : Prints (.expression .call) tokens value) :
      Prints .statement (word :: name :: sign :: tokens)
        (Statement.binding word (Name.ofToken name) value)
  | returning
      {word : Token}
      {tokens : List Token}
      {value : Expression}
      (kind : word.kind = .returnWord)
      (printed : Prints (.expression .call) tokens value) :
      Prints .statement (word :: tokens) (Statement.returning word value)
  | expressionStatement
      {first : Token}
      {tokens : List Token}
      {value : Expression}
      (printed : Prints (.expression .call) (first :: tokens) value) :
      Prints .statement (first :: tokens) (Statement.expression first value)
  | noStatements : Prints .statements [] []
  | lastStatement
      {tokens : List Token}
      {statement : Statement}
      (printed : Prints .statement tokens statement) :
      Prints .statements tokens [statement]
  | someStatements
      {semicolon : Token}
      {firstTokens restTokens : List Token}
      {first : Statement}
      {rest : List Statement}
      (firstPrinted : Prints .statement firstTokens first)
      (separates : semicolon.kind = .semicolon)
      (restPrinted : Prints .statements restTokens rest) :
      Prints .statements (firstTokens ++ semicolon :: restTokens)
        (first :: rest)

/-- What reads as a canonical form reads in the grammar. -/
theorem Prints.reads
    {phrase : Phrase}
    {tokens : List Token}
    {tree : phrase.Tree}
    (printed : Prints phrase tokens tree) :
    Reads False phrase tokens tree := by
  induction printed with
  | identifier kind =>
      exact (Reads.identifier kind).loosen (by decide)
  | integer kind text =>
      exact (Reads.integer kind text).loosen (by decide)
  | string kind =>
      exact (Reads.string kind).loosen (by decide)
  | boolean kind =>
      exact (Reads.boolean kind).loosen (by decide)
  | prefixed opens kind _ closes rightReading =>
      have inner := Reads.prefixed kind (rightReading.loosen (by decide))
      have whole := Reads.grouping opens (inner.loosen (by decide)) closes
      exact whole.loosen (by decide)
  | binary opens leftPrinted kind rightPrinted closes leftReading rightReading =>
      rename_i stratum _ _ _ _ _ _ _
      have loose := Stratum.rank_lt_rank_call_of_mem kind
      have nextLoose := Nat.le_trans stratum.rank_next_le loose
      have loosest : Stratum.equality.rank ≤ stratum.rank := by
        cases stratum <;> decide
      have inner :=
        Reads.binary (leftReading.loosen (Nat.le_of_lt loose)) kind
          (rightReading.loosen nextLoose)
      have whole := Reads.grouping opens (inner.loosen loosest) closes
      rw [List.append_assoc, List.cons_append] at whole
      exact whole.loosen (by decide)
  | conditional kind opens _ closes _ _ condition consequence alternative =>
      have whole :=
        Reads.conditional kind opens (condition.loosen (by decide)) closes
          consequence alternative
      exact whole.loosen (by decide)
  | function kind opens names closes _ body =>
      exact (Reads.function kind opens names closes body).loosen (by decide)
  | call _ opens _ closes callee arguments =>
      exact .call callee opens arguments closes
  | noArguments =>
      exact .noArguments
  | someArguments _ _ first rest =>
      exact .someArguments (first.loosen (by decide)) rest
  | lastArgument =>
      exact .lastArgument
  | nextArgument separates _ _ first rest =>
      exact .nextArgument separates (first.loosen (by decide)) rest
  | noAlternative =>
      exact .noAlternative
  | someAlternative kind _ inner =>
      exact .someAlternative kind inner
  | block opens _ closes inner =>
      exact .block opens inner closes
  | binding kind named assigns _ value =>
      exact .binding kind named assigns (value.loosen (by decide))
  | returning kind _ value =>
      exact .returning kind (value.loosen (by decide))
  | expressionStatement _ value =>
      exact .expressionStatement (value.loosen (by decide))
  | noStatements =>
      exact .noStatements
  | lastStatement _ statement =>
      have separates : Separates [] [] :=
        .nothing (by simp)
      have whole := Reads.someStatements statement separates .noStatements
      rwa [List.append_nil, List.append_nil] at whole
  | someStatements _ separates _ first rest =>
      exact .someStatements first (.semicolon separates) rest

end Scriptlet
