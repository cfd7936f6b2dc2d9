import Scriptlet.Proofs.Canonical.RoundTrip
import Scriptlet.Proofs.Meaning.Bare

namespace Scriptlet

/-!
# Canonical forms tell programs apart

A canonical form may nest too deep to be read as a program, so the reader of
programs cannot be what tells two of them apart.  Much less will do.  In the grammar
of canonical forms one or two tokens decide how to go on, and the reader below
relies on that: it checks nothing and knows no limit, and all it does is to recover,
from the tokens of a canonical form and whatever follows them, the tree that they
were printed from.

So no list of tokens is the canonical form of two trees.  Two programs with one
canonical form are printed from one tree, hence they have the same shape.
-/

/-- The kinds of token that a canonical expression can begin with. -/
def TokenKind.startsPrinted : TokenKind → Bool
  | .dash | .not => false
  | kind => kind.operandForm?.isSome

theorem Stratum.ne_of_mem_operators
    {stratum : Stratum}
    {kind : TokenKind}
    (member : kind ∈ stratum.operators) :
    kind ≠ .openParen ∧ kind ≠ .elseWord := by
  constructor
  · rintro rfl
    cases stratum <;> simp [operators] at member
  · rintro rfl
    cases stratum <;> simp [operators] at member

/-- A canonical expression begins with a token that no operator is. -/
theorem Prints.startsPrinted
    {phrase : Phrase}
    {tokens : List Token}
    {tree : phrase.Tree}
    (printed : Prints phrase tokens tree)
    {stratum : Stratum}
    (isExpression : phrase = .expression stratum) :
    ∃ first rest, tokens = first :: rest ∧ first.kind.startsPrinted = true := by
  induction printed with
  | identifier kind =>
      exact ⟨_, _, rfl, by rw [kind]; rfl⟩
  | integer kind text =>
      exact ⟨_, _, rfl, by rw [kind]; rfl⟩
  | string kind =>
      exact ⟨_, _, rfl, by rw [kind]; rfl⟩
  | @boolean _ value kind =>
      exact ⟨_, _, rfl, by cases value <;> rw [kind] <;> rfl⟩
  | prefixed opens _ _ _ =>
      exact ⟨_, _, rfl, by rw [opens]; rfl⟩
  | binary opens _ _ _ _ =>
      exact ⟨_, _, rfl, by rw [opens]; rfl⟩
  | conditional kind _ _ _ _ _ =>
      exact ⟨_, _, rfl, by rw [kind]; rfl⟩
  | function kind _ _ _ _ =>
      exact ⟨_, _, rfl, by rw [kind]; rfl⟩
  | call _ _ _ _ callee =>
      obtain ⟨first, rest, rfl, starts⟩ := callee isExpression
      exact ⟨first, _, rfl, starts⟩
  | _ =>
      cases isExpression

/-- A step that takes tokens from the front of a list. -/
abbrev Taking (α : Type) : Type :=
  StateT (List Token) Option α

namespace Taking

/-- Take the first token. -/
def take : Taking Token
  | [] => none
  | token :: rest => some (token, rest)

/-- The kind of the first token, which is left where it is. -/
def nextKind : Taking (Option TokenKind) :=
  fun tokens => some (tokens.head?.map Token.kind, tokens)

/-- The first token, left where it is. -/
def look : Taking Token
  | [] => none
  | token :: rest => some (token, token :: rest)

/-- The names up to a closing parenthesis. -/
def names : Taking (List Name) :=
  fun tokens =>
    let inside := tokens.takeWhile fun token => token.kind ≠ .closeParen
    let named := inside.filter fun token => token.kind ≠ .comma
    some (named.map Name.ofToken,
      tokens.dropWhile fun token => token.kind ≠ .closeParen)

/--
What stands between parentheses: an operator with its operand, or an operator
between two of them.  The closing parenthesis is taken, too.
-/
def parenthesised (inner : Taking Expression) : Taking Expression := do
  let next? ← nextKind
  if next? = some .dash ∨ next? = some .not then
    let operator ← take
    let right ← inner
    let _ ← take
    return .prefixed operator operator.value right
  else
    let left ← inner
    let operator ← take
    let right ← inner
    let _ ← take
    return .binary operator left operator.value right

/-- An expression without the calls of it, given how to read its parts. -/
def operand (inner : (phrase : Phrase) → Taking phrase.Tree) :
    Taking Expression := do
  let token ← take
  match token.kind with
  | .identifier =>
      return .identifier (Name.ofToken token)
  | .number =>
      return .integer token (← Text.readInteger? token.value)
  | .string =>
      return .string token token.value
  | .trueWord =>
      return .boolean token true
  | .falseWord =>
      return .boolean token false
  | .openParen =>
      parenthesised (inner (.expression .call))
  | .ifWord =>
      let _ ← take
      let condition ← inner (.expression .call)
      let _ ← take
      let consequence ← inner .block
      let alternative? ← inner .alternative
      return .conditional token condition consequence alternative?
  | .fnWord =>
      let _ ← take
      let parameters ← names
      let _ ← take
      let body ← inner .block
      return .function token parameters body
  | _ =>
      failure

mutual

/-- The tree of a canonical form, with so many rounds of recursion at most. -/
def tree : Nat → (phrase : Phrase) → Taking phrase.Tree
  | 0, _ =>
      failure
  | rounds + 1, .expression _ => do
      let callee ← operand (tree rounds)
      calls rounds callee
  | rounds + 1, .arguments => do
      if (← nextKind) = some .closeParen then
        return []
      else
        let first ← tree rounds (.expression .call)
        let rest ← tree rounds .furtherArguments
        return first :: rest
  | rounds + 1, .furtherArguments => do
      if (← nextKind) = some .comma then
        let _ ← take
        let first ← tree rounds (.expression .call)
        let rest ← tree rounds .furtherArguments
        return first :: rest
      else
        return []
  | rounds + 1, .alternative => do
      if (← nextKind) = some .elseWord then
        let _ ← take
        let block ← tree rounds .block
        return some block
      else
        return none
  | rounds + 1, .block => do
      let opening ← take
      let statements ← tree rounds .statements
      let _ ← take
      return ⟨opening, statements⟩
  | rounds + 1, .statement => do
      let token ← look
      if token.kind = .letWord then
        let word ← take
        let name ← take
        let _ ← take
        let value ← tree rounds (.expression .call)
        return .binding word (Name.ofToken name) value
      else if token.kind = .returnWord then
        let word ← take
        let value ← tree rounds (.expression .call)
        return .returning word value
      else
        let value ← tree rounds (.expression .call)
        return .expression token value
  | rounds + 1, .statements => do
      let next? ← nextKind
      if next? = none ∨ next? = some .closeCurly then
        return []
      else
        let first ← tree rounds .statement
        if (← nextKind) = some .semicolon then
          let _ ← take
          let rest ← tree rounds .statements
          return first :: rest
        else
          return [first]

/-- The calls of an expression that has been read. -/
def calls : Nat → Expression → Taking Expression
  | 0, _ =>
      failure
  | rounds + 1, callee => do
      if (← nextKind) = some .openParen then
        let opening ← take
        let values ← tree rounds .arguments
        let _ ← take
        calls rounds (.call opening callee values)
      else
        return callee

end

/-- With enough rounds, the step comes to a value and leaves the rest. -/
def Finds
    (step : Nat → Taking α)
    (tokens : List Token)
    (value : α)
    (rest : List Token) :
    Prop :=
  ∃ enough, ∀ rounds ≥ enough, step rounds tokens = some (value, rest)

/-- What the kind of the first token is, if there is one. -/
def Follows (allowed : TokenKind → Prop) (rest : List Token) : Prop :=
  ∀ token ∈ rest.head?, allowed token.kind

@[simp]
theorem follows_nil {allowed : TokenKind → Prop} : Follows allowed [] := by
  simp [Follows]

@[simp]
theorem follows_cons
    {allowed : TokenKind → Prop}
    {token : Token}
    {rest : List Token} :
    Follows allowed (token :: rest) ↔ allowed token.kind := by
  simp [Follows]

theorem Follows.mono
    {allowed other : TokenKind → Prop}
    {rest : List Token}
    (follows : Follows allowed rest)
    (weaker : ∀ kind, allowed kind → other kind) :
    Follows other rest :=
  fun token first => weaker token.kind (follows token first)

theorem Follows.ne
    {kind : TokenKind}
    {rest : List Token}
    (follows : Follows (· ≠ kind) rest) :
    rest.head?.map Token.kind ≠ some kind := by
  intro same
  obtain ⟨token, first, isKind⟩ := Option.map_eq_some_iff.mp same
  exact follows token first isKind

section Steps

variable
  {step : Nat → Taking α}
  {next : Nat → α → Taking β}
  {tokens middle rest : List Token}
  {value : α}
  {result : β}

namespace Finds

theorem done : Finds (fun _ => pure value) tokens value tokens :=
  ⟨0, fun _ _ => rfl⟩

theorem andThen
    (first : Finds step tokens value middle)
    (second : Finds (fun rounds => next rounds value) middle result rest) :
    Finds (fun rounds => step rounds >>= next rounds) tokens result rest := by
  obtain ⟨enough, found⟩ := first
  obtain ⟨enoughLater, foundLater⟩ := second
  refine ⟨max enough enoughLater, fun rounds le => ?_⟩
  have ran := found rounds (Nat.le_trans (Nat.le_max_left _ _) le)
  have ranLater := foundLater rounds (Nat.le_trans (Nat.le_max_right _ _) le)
  simp only [bind, StateT.bind, ran, Option.bind_some]
  exact ranLater

/-- A round of the recursion may be spent. -/
theorem round
    (later : Finds (fun rounds => step (rounds + 1)) tokens value rest) :
    Finds step tokens value rest := by
  obtain ⟨enough, found⟩ := later
  refine ⟨enough + 1, fun rounds le => ?_⟩
  cases rounds with
  | zero =>
      contradiction
  | succ fewer =>
      exact found fewer (Nat.le_of_succ_le_succ le)

theorem take
    {token : Token}
    {next : Nat → Token → Taking β}
    (later : Finds (fun rounds => next rounds token) tokens result rest) :
    Finds (fun rounds => Taking.take >>= next rounds) (token :: tokens) result
      rest :=
  later

theorem look
    {token : Token}
    {next : Nat → Token → Taking β}
    (later :
      Finds (fun rounds => next rounds token) (token :: tokens) result rest) :
    Finds (fun rounds => Taking.look >>= next rounds) (token :: tokens) result
      rest :=
  later

theorem nextKind
    {next : Nat → Option TokenKind → Taking β}
    (later :
      Finds (fun rounds => next rounds (tokens.head?.map Token.kind)) tokens
        result rest) :
    Finds (fun rounds => Taking.nextKind >>= next rounds) tokens result rest :=
  later

theorem nextKind_cons
    {token : Token}
    {next : Nat → Option TokenKind → Taking β}
    (later :
      Finds (fun rounds => next rounds (some token.kind)) (token :: tokens)
        result rest) :
    Finds (fun rounds => Taking.nextKind >>= next rounds) (token :: tokens)
      result rest :=
  later

/-- A step comes to one end only. -/
theorem unique
    {other : α}
    {otherRest : List Token}
    (found : Finds step tokens value rest)
    (otherFound : Finds step tokens other otherRest) :
    value = other := by
  obtain ⟨enough, ran⟩ := found
  obtain ⟨enoughOther, ranOther⟩ := otherFound
  have same := ran _ (Nat.le_max_left enough enoughOther)
  rw [ranOther _ (Nat.le_max_right enough enoughOther)] at same
  cases same
  rfl

end Finds

end Steps

/-- After an expression has been read, its calls are, and this comes to a result. -/
def GoesOn
    (callee : Expression)
    (tokens : List Token)
    (result : Expression)
    (rest : List Token) :
    Prop :=
  Finds (fun rounds => calls rounds callee) tokens result rest

/--
The tokens are recovered as a tree, whatever comes after them in a canonical form.
An expression is recovered together with the calls of it that follow.
-/
def Recovers : (phrase : Phrase) → List Token → phrase.Tree → Prop
  | .expression stratum, tokens, found =>
      ∀ after result rest,
        Follows (· ≠ .elseWord) after →
        GoesOn found after result rest →
          Finds (fun rounds => tree rounds (.expression stratum))
            (tokens ++ after) result rest
  | .arguments, tokens, found =>
      ∀ closing rest,
        closing.kind = .closeParen →
          Finds (fun rounds => tree rounds .arguments)
            (tokens ++ closing :: rest) found (closing :: rest)
  | .furtherArguments, tokens, found =>
      ∀ closing rest,
        closing.kind = .closeParen →
          Finds (fun rounds => tree rounds .furtherArguments)
            (tokens ++ closing :: rest) found (closing :: rest)
  | .alternative, tokens, found =>
      ∀ rest,
        Follows (· ≠ .elseWord) rest →
          Finds (fun rounds => tree rounds .alternative) (tokens ++ rest) found
            rest
  | .block, tokens, found =>
      ∀ rest,
        Finds (fun rounds => tree rounds .block) (tokens ++ rest) found rest
  | .statement, tokens, found =>
      ∀ rest,
        Follows (fun kind => kind = .semicolon ∨ kind = .closeCurly) rest →
          Finds (fun rounds => tree rounds .statement) (tokens ++ rest) found
            rest
  | .statements, tokens, found =>
      ∀ rest,
        Follows (· = .closeCurly) rest →
          Finds (fun rounds => tree rounds .statements) (tokens ++ rest) found
            rest

theorem goesOn_of_follows
    {callee : Expression}
    {rest : List Token}
    (follows : Follows (· ≠ .openParen) rest) :
    GoesOn callee rest callee rest := by
  refine .round ?_
  simp only [calls]
  refine .nextKind ?_
  simp only [if_neg follows.ne]
  exact .done

/-- What neither is called nor has an alternative is recovered as it is. -/
theorem Recovers.alone
    {stratum : Stratum}
    {tokens : List Token}
    {found : Expression}
    (recovers : Recovers (.expression stratum) tokens found)
    {rest : List Token}
    (follows :
      Follows (fun kind => kind ≠ .openParen ∧ kind ≠ .elseWord) rest) :
    Finds (fun rounds => tree rounds (.expression stratum)) (tokens ++ rest)
      found rest :=
  recovers rest found rest (follows.mono fun _ => And.right)
    (goesOn_of_follows (follows.mono fun _ => And.left))

theorem Finds.expression
    {stratum : Stratum}
    {tokens middle rest : List Token}
    {callee result : Expression}
    (found : Finds (fun rounds => operand (tree rounds)) tokens callee middle)
    (goesOn : GoesOn callee middle result rest) :
    Finds (fun rounds => tree rounds (.expression stratum)) tokens result rest := by
  refine .round ?_
  simp only [tree]
  exact found.andThen goesOn

section Operands

variable {token opening operator closing : Token} {tokens : List Token}

theorem recovers_identifier
    (kind : token.kind = .identifier) :
    Recovers (.expression .call) [token]
      (Expression.identifier (Name.ofToken token)) := by
  intro after result rest _ goesOn
  refine .expression (.take ?_) goesOn
  simp only [kind]
  exact .done

theorem recovers_integer
    {value : Int64}
    (kind : token.kind = .number)
    (text : Text.readInteger? token.value = some value) :
    Recovers (.expression .call) [token] (Expression.integer token value) := by
  intro after result rest _ goesOn
  refine .expression (.take ?_) goesOn
  simp only [kind, text]
  exact .done

theorem recovers_string
    (kind : token.kind = .string) :
    Recovers (.expression .call) [token]
      (Expression.string token token.value) := by
  intro after result rest _ goesOn
  refine .expression (.take ?_) goesOn
  simp only [kind]
  exact .done

theorem recovers_boolean
    {value : Bool}
    (kind : token.kind = if value then .trueWord else .falseWord) :
    Recovers (.expression .call) [token] (Expression.boolean token value) := by
  intro after result rest _ goesOn
  refine .expression (.take ?_) goesOn
  cases value with
  | true =>
      simp only [kind, ↓reduceIte]
      exact .done
  | false =>
      simp only [kind, Bool.false_eq_true, ↓reduceIte]
      exact .done

theorem recovers_prefixed
    {right : Expression}
    (opens : opening.kind = .openParen)
    (kind : operator.kind = .dash ∨ operator.kind = .not)
    (closes : closing.kind = .closeParen)
    (recovers : Recovers (.expression .call) tokens right) :
    Recovers (.expression .call) (opening :: operator :: (tokens ++ [closing]))
      (Expression.prefixed operator operator.value right) := by
  intro after result rest _ goesOn
  refine .expression (.take ?_) goesOn
  simp only [opens, parenthesised]
  refine .nextKind_cons ?_
  simp only [Option.some.injEq, if_pos kind]
  refine .take ?_
  rw [List.append_eq, List.append_assoc]
  exact (recovers.alone (by simp [closes])).andThen (.take .done)

theorem recovers_binary
    {stratum : Stratum}
    {leftTokens rightTokens : List Token}
    {left right : Expression}
    (opens : opening.kind = .openParen)
    (leftPrinted : Prints (.expression .call) leftTokens left)
    (kind : operator.kind ∈ stratum.operators)
    (closes : closing.kind = .closeParen)
    (recoversLeft : Recovers (.expression .call) leftTokens left)
    (recoversRight : Recovers (.expression .call) rightTokens right) :
    Recovers (.expression .call)
      (opening :: (leftTokens ++ operator :: (rightTokens ++ [closing])))
      (Expression.binary operator left operator.value right) := by
  intro after result rest _ goesOn
  refine .expression (.take ?_) goesOn
  simp only [opens, parenthesised]
  rw [List.append_eq, List.append_assoc, List.cons_append, List.append_assoc]
  have found :=
    recoversLeft.alone
      (follows_cons.mpr (Stratum.ne_of_mem_operators kind) :
        Follows _ (operator :: (rightTokens ++ ([closing] ++ after))))
  obtain ⟨first, others, rfl, starts⟩ := leftPrinted.startsPrinted rfl
  refine .nextKind_cons ?_
  have noOperator : ¬ (first.kind = .dash ∨ first.kind = .not) := by
    rintro (isDash | isNot)
    · simp [isDash, TokenKind.startsPrinted] at starts
    · simp [isNot, TokenKind.startsPrinted] at starts
  simp only [Option.some.injEq, if_neg noOperator]
  refine found.andThen (.take ?_)
  exact (recoversRight.alone (by simp [closes])).andThen (.take .done)

theorem recovers_conditional
    {word : Token}
    {conditionTokens consequenceTokens alternativeTokens : List Token}
    {condition : Expression}
    {consequence : Block}
    {alternative? : Option Block}
    (kind : word.kind = .ifWord)
    (closes : closing.kind = .closeParen)
    (recoversCondition : Recovers (.expression .call) conditionTokens condition)
    (recoversConsequence : Recovers .block consequenceTokens consequence)
    (recoversAlternative : Recovers .alternative alternativeTokens alternative?) :
    Recovers (.expression .call)
      (word :: opening ::
        (conditionTokens ++
          closing :: (consequenceTokens ++ alternativeTokens)))
      (Expression.conditional word condition consequence alternative?) := by
  intro after result rest noElse goesOn
  refine .expression (.take ?_) goesOn
  simp only [kind]
  refine .take ?_
  rw [List.append_eq, List.append_assoc, List.cons_append, List.append_assoc]
  refine (recoversCondition.alone (by simp [closes])).andThen (.take ?_)
  exact (recoversConsequence _).andThen
    ((recoversAlternative after noElse).andThen .done)

theorem names_of_reads
    {names : List Name}
    {rest : List Token}
    (reads : ReadsNames tokens names)
    (closes : closing.kind = .closeParen) :
    Taking.names (tokens ++ closing :: rest) = some (names, closing :: rest) := by
  have further {tokens : List Token} {names : List Name}
      (reads : ReadsFurtherNames tokens names) :
      Taking.names (tokens ++ closing :: rest) = some (names, closing :: rest) := by
    induction reads with
    | done =>
        simp [Taking.names, closes]
    | next separates named others inductionHypothesis =>
        simp_all [Taking.names]
  cases reads with
  | none =>
      exact further .done
  | some named others =>
      have found := further others
      simp_all [Taking.names]

theorem recovers_function
    {word : Token}
    {nameTokens bodyTokens : List Token}
    {names : List Name}
    {body : Block}
    (kind : word.kind = .fnWord)
    (namesReading : ReadsNames nameTokens names)
    (closes : closing.kind = .closeParen)
    (recoversBody : Recovers .block bodyTokens body) :
    Recovers (.expression .call)
      (word :: opening :: (nameTokens ++ closing :: bodyTokens))
      (Expression.function word names body) := by
  intro after result rest _ goesOn
  refine .expression (.take ?_) goesOn
  simp only [kind]
  refine .take ?_
  rw [List.append_eq, List.append_assoc, List.cons_append]
  have found :
      Finds (fun _ => Taking.names)
        (nameTokens ++ closing :: (bodyTokens ++ after)) names
        (closing :: (bodyTokens ++ after)) :=
    ⟨0, fun _ _ => names_of_reads namesReading closes⟩
  exact found.andThen (.take ((recoversBody after).andThen .done))

theorem recovers_call
    {calleeTokens argumentTokens : List Token}
    {callee : Expression}
    {values : List Expression}
    (opens : opening.kind = .openParen)
    (closes : closing.kind = .closeParen)
    (recoversCallee : Recovers (.expression .call) calleeTokens callee)
    (recoversArguments : Recovers .arguments argumentTokens values) :
    Recovers (.expression .call)
      (calleeTokens ++ opening :: (argumentTokens ++ [closing]))
      (Expression.call opening callee values) := by
  intro after result rest _ goesOn
  rw [List.append_assoc, List.cons_append, List.append_assoc]
  refine recoversCallee _ result rest (by simp [opens]) ?_
  refine .round ?_
  simp only [calls]
  refine .nextKind_cons ?_
  simp only [opens, ↓reduceIte]
  exact .take ((recoversArguments closing after closes).andThen (.take goesOn))

end Operands

section Arguments

variable {tokens firstTokens restTokens : List Token}

theorem recovers_noArguments : Recovers .arguments [] [] := by
  intro closing rest closes
  refine .round ?_
  simp only [tree]
  refine .nextKind_cons ?_
  simp only [closes, ↓reduceIte]
  exact .done

/-- What follows an argument ends it. -/
theorem follows_argument
    {rest : List Expression}
    {closing : Token}
    (restPrinted : Prints .furtherArguments restTokens rest)
    (closes : closing.kind = .closeParen)
    (after : List Token) :
    Follows (fun kind => kind ≠ .openParen ∧ kind ≠ .elseWord)
      (restTokens ++ closing :: after) := by
  cases restPrinted with
  | lastArgument =>
      simp [closes]
  | nextArgument separates _ _ =>
      simp [separates]

theorem recovers_someArguments
    {first : Expression}
    {rest : List Expression}
    (firstPrinted : Prints (.expression .call) firstTokens first)
    (restPrinted : Prints .furtherArguments restTokens rest)
    (recoversFirst : Recovers (.expression .call) firstTokens first)
    (recoversRest : Recovers .furtherArguments restTokens rest) :
    Recovers .arguments (firstTokens ++ restTokens) (first :: rest) := by
  intro closing after closes
  refine .round ?_
  simp only [tree]
  rw [List.append_assoc]
  have found := recoversFirst.alone (follows_argument restPrinted closes after)
  obtain ⟨token, others, rfl, starts⟩ := firstPrinted.startsPrinted rfl
  refine .nextKind_cons ?_
  have noEnd : token.kind ≠ .closeParen := by
    intro isEnd
    simp [isEnd, TokenKind.startsPrinted, TokenKind.operandForm?] at starts
  simp only [Option.some.injEq, if_neg noEnd]
  exact found.andThen ((recoversRest closing after closes).andThen .done)

theorem recovers_lastArgument : Recovers .furtherArguments [] [] := by
  intro closing rest closes
  refine .round ?_
  simp only [tree]
  refine .nextKind_cons ?_
  simp only [closes, Option.some.injEq, reduceCtorEq, ↓reduceIte]
  exact .done

theorem recovers_nextArgument
    {comma : Token}
    {first : Expression}
    {rest : List Expression}
    (separates : comma.kind = .comma)
    (restPrinted : Prints .furtherArguments restTokens rest)
    (recoversFirst : Recovers (.expression .call) firstTokens first)
    (recoversRest : Recovers .furtherArguments restTokens rest) :
    Recovers .furtherArguments (comma :: (firstTokens ++ restTokens))
      (first :: rest) := by
  intro closing after closes
  refine .round ?_
  simp only [tree]
  refine .nextKind_cons ?_
  simp only [separates, ↓reduceIte]
  refine .take ?_
  rw [List.append_eq, List.append_assoc]
  have found := recoversFirst.alone (follows_argument restPrinted closes after)
  exact found.andThen ((recoversRest closing after closes).andThen .done)

end Arguments

section Blocks

variable {tokens firstTokens restTokens : List Token}

theorem recovers_noAlternative : Recovers .alternative [] none := by
  intro rest noElse
  refine .round ?_
  simp only [tree]
  refine .nextKind ?_
  simp only [List.nil_append, if_neg noElse.ne]
  exact .done

theorem recovers_someAlternative
    {word : Token}
    {inner : Block}
    (kind : word.kind = .elseWord)
    (recovers : Recovers .block tokens inner) :
    Recovers .alternative (word :: tokens) (some inner) := by
  intro rest _
  refine .round ?_
  simp only [tree]
  refine .nextKind_cons ?_
  simp only [kind, ↓reduceIte]
  exact .take ((recovers rest).andThen .done)

theorem recovers_block
    {opening closing : Token}
    {inner : List Statement}
    (closes : closing.kind = .closeCurly)
    (recovers : Recovers .statements tokens inner) :
    Recovers .block (opening :: (tokens ++ [closing])) ⟨opening, inner⟩ := by
  intro rest
  refine .round ?_
  simp only [tree]
  refine .take ?_
  rw [List.append_eq, List.append_assoc]
  exact (recovers _ (by simp [closes])).andThen (.take .done)

end Blocks

section Statements

variable {tokens firstTokens restTokens : List Token} {value : Expression}

theorem Follows.endsStatement
    (follows :
      Follows (fun kind => kind = .semicolon ∨ kind = .closeCurly) tokens) :
    Follows (fun kind => kind ≠ .openParen ∧ kind ≠ .elseWord) tokens := by
  refine follows.mono ?_
  rintro kind (rfl | rfl)
  · decide
  · decide

theorem recovers_binding
    {word name sign : Token}
    (kind : word.kind = .letWord)
    (recovers : Recovers (.expression .call) tokens value) :
    Recovers .statement (word :: name :: sign :: tokens)
      (Statement.binding word (Name.ofToken name) value) := by
  intro rest follows
  refine .round ?_
  simp only [tree]
  refine .look ?_
  simp only [kind, ↓reduceIte]
  refine .take (.take (.take ?_))
  exact (recovers.alone follows.endsStatement).andThen .done

theorem recovers_returning
    {word : Token}
    (kind : word.kind = .returnWord)
    (recovers : Recovers (.expression .call) tokens value) :
    Recovers .statement (word :: tokens) (Statement.returning word value) := by
  intro rest follows
  refine .round ?_
  simp only [tree]
  refine .look ?_
  simp only [kind, reduceCtorEq, ↓reduceIte]
  refine .take ?_
  exact (recovers.alone follows.endsStatement).andThen .done

theorem recovers_expressionStatement
    {first : Token}
    (printed : Prints (.expression .call) (first :: tokens) value)
    (recovers : Recovers (.expression .call) (first :: tokens) value) :
    Recovers .statement (first :: tokens) (Statement.expression first value) := by
  intro rest follows
  refine .round ?_
  simp only [tree]
  refine .look ?_
  obtain ⟨_, _, ⟨⟩, starts⟩ := printed.startsPrinted rfl
  have noBinding : first.kind ≠ .letWord := by
    intro isWord
    simp [isWord, TokenKind.startsPrinted, TokenKind.operandForm?] at starts
  have noReturn : first.kind ≠ .returnWord := by
    intro isWord
    simp [isWord, TokenKind.startsPrinted, TokenKind.operandForm?] at starts
  simp only [noBinding, noReturn, ↓reduceIte]
  exact (recovers.alone follows.endsStatement).andThen .done

theorem recovers_noStatements : Recovers .statements [] [] := by
  intro rest follows
  refine .round ?_
  simp only [tree]
  refine .nextKind ?_
  have ends :
      rest.head?.map Token.kind = none ∨
        rest.head?.map Token.kind = some .closeCurly := by
    cases rest with
    | nil =>
        exact .inl rfl
    | cons token others =>
        exact .inr (congrArg some (follows_cons.mp follows))
  simp only [List.nil_append, if_pos ends]
  exact .done

/-- A statement does not begin as the end of a block does. -/
theorem exists_first_of_statement
    {statement : Statement}
    (printed : Prints .statement tokens statement) :
    ∃ first rest, tokens = first :: rest ∧ first.kind ≠ .closeCurly := by
  cases printed with
  | binding kind _ _ _ =>
      exact ⟨_, _, rfl, by simp [kind]⟩
  | returning kind _ =>
      exact ⟨_, _, rfl, by simp [kind]⟩
  | expressionStatement printed =>
      obtain ⟨first, rest, same, starts⟩ := printed.startsPrinted rfl
      refine ⟨first, rest, same, ?_⟩
      intro isEnd
      simp [isEnd, TokenKind.startsPrinted, TokenKind.operandForm?] at starts

theorem recovers_lastStatement
    {statement : Statement}
    (printed : Prints .statement tokens statement)
    (recovers : Recovers .statement tokens statement) :
    Recovers .statements tokens [statement] := by
  intro rest follows
  refine .round ?_
  simp only [tree]
  have found := recovers rest (follows.mono fun _ => .inr)
  obtain ⟨first, others, rfl, noEnd⟩ := exists_first_of_statement printed
  refine .nextKind_cons ?_
  simp only [reduceCtorEq, Option.some.injEq, noEnd, or_self, ↓reduceIte]
  refine found.andThen (.nextKind ?_)
  have noSemicolon : Follows (· ≠ .semicolon) rest := by
    refine follows.mono ?_
    rintro kind rfl
    decide
  simp only [if_neg noSemicolon.ne]
  exact .done

theorem recovers_someStatements
    {semicolon : Token}
    {first : Statement}
    {rest : List Statement}
    (firstPrinted : Prints .statement firstTokens first)
    (separates : semicolon.kind = .semicolon)
    (recoversFirst : Recovers .statement firstTokens first)
    (recoversRest : Recovers .statements restTokens rest) :
    Recovers .statements (firstTokens ++ semicolon :: restTokens)
      (first :: rest) := by
  intro after follows
  refine .round ?_
  simp only [tree]
  rw [List.append_assoc, List.cons_append]
  have found :=
    recoversFirst (semicolon :: (restTokens ++ after)) (by simp [separates])
  obtain ⟨token, others, rfl, noEnd⟩ := exists_first_of_statement firstPrinted
  refine .nextKind_cons ?_
  simp only [reduceCtorEq, Option.some.injEq, noEnd, or_self, ↓reduceIte]
  refine found.andThen (.nextKind_cons ?_)
  simp only [separates, ↓reduceIte]
  exact .take ((recoversRest after follows).andThen .done)

end Statements

/-- What is printed from a tree is recovered as the tree. -/
theorem recovers_of_prints
    {phrase : Phrase}
    {tokens : List Token}
    {printedTree : phrase.Tree}
    (printed : Prints phrase tokens printedTree) :
    Recovers phrase tokens printedTree := by
  induction printed with
  | identifier kind =>
      exact recovers_identifier kind
  | integer kind text =>
      exact recovers_integer kind text
  | string kind =>
      exact recovers_string kind
  | boolean kind =>
      exact recovers_boolean kind
  | prefixed opens kind _ closes right =>
      exact recovers_prefixed opens kind closes right
  | binary opens leftPrinted kind _ closes left right =>
      exact recovers_binary opens leftPrinted kind closes left right
  | conditional kind _ _ closes _ _ condition consequence alternative =>
      exact recovers_conditional kind closes condition consequence alternative
  | function kind _ names closes _ body =>
      exact recovers_function kind names closes body
  | call _ opens _ closes callee arguments =>
      exact recovers_call opens closes callee arguments
  | noArguments =>
      exact recovers_noArguments
  | someArguments firstPrinted restPrinted first rest =>
      exact recovers_someArguments firstPrinted restPrinted first rest
  | lastArgument =>
      exact recovers_lastArgument
  | nextArgument separates _ restPrinted first rest =>
      exact recovers_nextArgument separates restPrinted first rest
  | noAlternative =>
      exact recovers_noAlternative
  | someAlternative kind _ inner =>
      exact recovers_someAlternative kind inner
  | block _ _ closes inner =>
      exact recovers_block closes inner
  | binding kind _ _ _ value =>
      exact recovers_binding kind value
  | returning kind _ value =>
      exact recovers_returning kind value
  | expressionStatement printed value =>
      exact recovers_expressionStatement printed value
  | noStatements =>
      exact recovers_noStatements
  | lastStatement printed statement =>
      exact recovers_lastStatement printed statement
  | someStatements firstPrinted separates _ first rest =>
      exact recovers_someStatements firstPrinted separates first rest

end Taking

/-- No list of tokens is printed from two lists of statements. -/
theorem Prints.statements_unambiguous
    {tokens : List Token}
    {trees others : List Statement}
    (printed : Prints .statements tokens trees)
    (otherPrinted : Prints .statements tokens others) :
    trees = others := by
  have found := Taking.recovers_of_prints printed [] Taking.follows_nil
  have otherFound := Taking.recovers_of_prints otherPrinted [] Taking.follows_nil
  exact found.unique otherFound

section Programs

variable {trees others : List Statement}

/--
The tokens of the canonical form of statements from source text are printed from
some tree, which has the shape of the statements and the same bare tree.
-/
theorem Statement.exists_printed_canonicals
    (sourced : Statement.SourcedAll trees)
    (file : String) :
    ∃ same,
      Prints .statements
          (TokenStream.beforeEnd
            (tokenize (String.join (Statement.canonicals trees)) file)) same ∧
        Statement.sameShapes same trees = true ∧
        Statement.bareAll same = Statement.bareAll trees := by
  obtain ⟨same, printed, shape, -⟩ :=
    (Statement.renders_all trees sourced).prints file
  have given :
      SourceTokens
        (TokenStream.beforeEnd
          (tokenize (String.join (Statement.canonicals trees)) file)) :=
    fun token member _ => Token.admits_of_mem_tokenize member
  have sameSourced := sourced_of_reads printed.reads given
  exact ⟨same, printed, shape,
    Statement.bareAll_eq same trees sameSourced sourced shape⟩

/-- Statements printed alike have the same shapes. -/
theorem Statement.sameShapes_of_canonicals_eq
    (sourced : Statement.SourcedAll trees)
    (otherSourced : Statement.SourcedAll others)
    (sameForm :
      String.join (Statement.canonicals trees) =
        String.join (Statement.canonicals others)) :
    Statement.sameShapes trees others = true := by
  obtain ⟨tree, printed, -, bare⟩ :=
    Statement.exists_printed_canonicals sourced ""
  obtain ⟨otherTree, otherPrinted, shape, -⟩ :=
    Statement.exists_printed_canonicals otherSourced ""
  rw [← sameForm] at otherPrinted
  obtain rfl := printed.statements_unambiguous otherPrinted
  rw [← Statement.sameShapes_bare, ← bare, Statement.sameShapes_bare]
  exact shape

/-- Statements of the same shapes are printed alike. -/
theorem Statement.canonicals_eq_of_sameShapes
    (sourced : Statement.SourcedAll trees)
    (otherSourced : Statement.SourcedAll others)
    (shape : Statement.sameShapes trees others = true) :
    Statement.canonicals trees = Statement.canonicals others := by
  rw [← Statement.canonicals_bareAll trees,
    Statement.bareAll_eq trees others sourced otherSourced shape,
    Statement.canonicals_bareAll]

theorem Program.canonical_eq_iff
    {program other : Program}
    (sourced : Statement.SourcedAll program.statements)
    (otherSourced : Statement.SourcedAll other.statements) :
    program.canonical = other.canonical ↔ program.sameShape other = true := by
  constructor
  · intro sameForm
    exact Statement.sameShapes_of_canonicals_eq sourced otherSourced sameForm
  · intro shape
    exact congrArg String.join
      (Statement.canonicals_eq_of_sameShapes sourced otherSourced shape)

end Programs

/--
Canonical forms tell programs apart: two programs, each read from some source text,
whole or not, have the same canonical form exactly when they have the same shape.
Nothing is asked of how deep the canonical forms nest.
-/
theorem Parsed.canonical_eq_iff_sameShape
    (strictBlocks otherStrict : Bool)
    (source other file otherFile : String) :
    let program := (ofSource strictBlocks source file).program
    let otherProgram := (ofSource otherStrict other otherFile).program
    program.canonical = otherProgram.canonical ↔
      program.sameShape otherProgram = true := by
  have sourced := sourced_ofSource strictBlocks source file
  have otherSourced := sourced_ofSource otherStrict other otherFile
  -- With the programs at hand, a check of these facts would run the parser.
  generalize (ofSource strictBlocks source file).program = program at sourced ⊢
  generalize (ofSource otherStrict other otherFile).program = otherProgram
    at otherSourced ⊢
  exact Program.canonical_eq_iff sourced otherSourced

end Scriptlet
