import Scriptlet.Proofs.Canonical.Texts
import Scriptlet.Proofs.Grammar.Accepted

namespace Scriptlet

/-!
# Trees that come from source text

What a program is read from leaves its mark on the tree: names are words that
are not reserved, numbers are not negative, no string has a quote in it, and the
operators and words of the nodes are those of the language.  Every program read
from source text is such a tree, also when parts of the text were dropped.
-/

mutual

/-- An expression as it comes from source text. -/
def Expression.Sourced : Expression → Prop
  | .identifier name =>
      TokenKind.IsName name.value
  | .integer _ value =>
      0 ≤ value.toInt
  | .string _ value =>
      '"' ∉ value.toList
  | .boolean _ _ =>
      True
  | .prefixed token operator right =>
      (token.kind = .dash ∨ token.kind = .not) ∧
        token.kind.Admits operator ∧
        right.Sourced
  | .binary token left operator right =>
      (∃ stratum : Stratum, token.kind ∈ stratum.operators) ∧
        token.kind.Admits operator ∧
        left.Sourced ∧
        right.Sourced
  | .conditional token condition consequence alternative? =>
      token.value = "if" ∧
        condition.Sourced ∧
        consequence.Sourced ∧
        Block.Sourced? alternative?
  | .function token parameters body =>
      token.value = "fn" ∧
        (∀ name ∈ parameters, TokenKind.IsName name.value) ∧
        body.Sourced
  | .call _ callee arguments =>
      callee.Sourced ∧ Expression.SourcedAll arguments

/-- Expressions as they come from source text. -/
def Expression.SourcedAll : List Expression → Prop
  | [] =>
      True
  | first :: rest =>
      first.Sourced ∧ Expression.SourcedAll rest

/-- A statement as it comes from source text; no block is one of its own. -/
def Statement.Sourced : Statement → Prop
  | .binding token name value =>
      token.value = "let" ∧ TokenKind.IsName name.value ∧ value.Sourced
  | .returning token value =>
      token.value = "return" ∧ value.Sourced
  | .expression _ inner =>
      inner.Sourced
  | .block _ =>
      False

/-- Statements as they come from source text. -/
def Statement.SourcedAll : List Statement → Prop
  | [] =>
      True
  | first :: rest =>
      first.Sourced ∧ Statement.SourcedAll rest

/-- A block as it comes from source text. -/
def Block.Sourced : Block → Prop
  | ⟨_, statements⟩ =>
      Statement.SourcedAll statements

/-- A block that may be missing, as it comes from source text. -/
def Block.Sourced? : Option Block → Prop
  | none =>
      True
  | some inner =>
      inner.Sourced

end

/-- A tree as it comes from source text. -/
def Phrase.Sourced : (phrase : Phrase) → phrase.Tree → Prop
  | .expression _, tree => tree.Sourced
  | .arguments, trees => Expression.SourcedAll trees
  | .furtherArguments, trees => Expression.SourcedAll trees
  | .alternative, tree? => Block.Sourced? tree?
  | .block, tree => tree.Sourced
  | .statement, tree => tree.Sourced
  | .statements, trees => Statement.SourcedAll trees

/--
Tokens as they come from source text.  Closing brackets leave no mark on trees,
so that they may have been supplied.
-/
def SourceTokens (tokens : List Token) : Prop :=
  ∀ token ∈ tokens,
    token.kind ≠ .closeCurly → token.kind.Admits token.value

section Readings

variable {tokens others : List Token} {token : Token}

theorem SourceTokens.head
    (given : SourceTokens (token :: tokens))
    {kind : TokenKind}
    (isKind : token.kind = kind)
    (visible : kind ≠ .closeCurly) :
    kind.Admits token.value := by
  rw [← isKind] at visible ⊢
  exact given token (by simp) visible

theorem SourceTokens.tail
    (given : SourceTokens (token :: tokens)) :
    SourceTokens tokens :=
  fun later member => given later (by simp [member])

theorem SourceTokens.left
    (given : SourceTokens (tokens ++ others)) :
    SourceTokens tokens :=
  fun token member => given token (by simp [member])

theorem SourceTokens.right
    (given : SourceTokens (tokens ++ others)) :
    SourceTokens others :=
  fun token member => given token (by simp [member])

theorem sourced_furtherNames
    {names : List Name}
    (reading : ReadsFurtherNames tokens names)
    (given : SourceTokens tokens) :
    ∀ name ∈ names, TokenKind.IsName name.value := by
  induction reading with
  | done =>
      simp
  | next separates named further inductionHypothesis =>
      intro name member
      rcases List.mem_cons.mp member with rfl | later
      · exact given.tail.head named (by decide)
      · exact inductionHypothesis given.tail.tail name later

theorem sourced_names
    {names : List Name}
    (reading : ReadsNames tokens names)
    (given : SourceTokens tokens) :
    ∀ name ∈ names, TokenKind.IsName name.value := by
  cases reading with
  | none =>
      simp
  | some named further =>
      intro name member
      rcases List.mem_cons.mp member with rfl | later
      · exact given.head named (by decide)
      · exact sourced_furtherNames further given.tail name later

/-- What source tokens read as comes from source text. -/
theorem sourced_of_reads
    {lossy : Prop}
    {phrase : Phrase}
    {tree : phrase.Tree}
    (reading : Reads lossy phrase tokens tree)
    (given : SourceTokens tokens) :
    phrase.Sourced tree := by
  induction reading with
  | identifier kind =>
      exact given.head kind (by decide)
  | integer kind text =>
      exact toInt_nonneg_of_readInteger? (given.head kind (by decide)) text
  | string kind =>
      exact given.head kind (by decide)
  | boolean kind =>
      exact trivial
  | grouping opens inner closes innerSourced =>
      exact innerSourced given.tail.left
  | conditional kind opens condition closes consequence alternative
      conditionSourced consequenceSourced alternativeSourced =>
      have word := given.head kind (by decide)
      have inside := given.tail.tail
      exact ⟨(Option.some.inj word).symm, conditionSourced inside.left,
        consequenceSourced inside.right.tail.left,
        alternativeSourced inside.right.tail.right⟩
  | function kind opens names closes body bodySourced =>
      have word := given.head kind (by decide)
      have inside := given.tail.tail
      exact ⟨(Option.some.inj word).symm, sourced_names names inside.left,
        bodySourced inside.right.tail⟩
  | call callee opens arguments closes calleeSourced argumentsSourced =>
      exact ⟨calleeSourced given.left,
        argumentsSourced given.right.tail.left⟩
  | prefixed kind right rightSourced =>
      rename_i operator _ _
      have visible : operator.kind ≠ .closeCurly := by
        rcases kind with isDash | isNot
        · simp [isDash]
        · simp [isNot]
      exact ⟨kind, given.head rfl visible, rightSourced given.tail⟩
  | binary left kind right leftSourced rightSourced =>
      rename_i operator _ _ _ _
      have visible : operator.kind ≠ .closeCurly := by
        intro isClosing
        have isOperator := (Stratum.precedence_of_mem kind).1
        rw [isClosing] at isOperator
        contradiction
      exact ⟨⟨_, kind⟩, given.right.head rfl visible, leftSourced given.left,
        rightSourced given.right.tail⟩
  | tighter ordered inner innerSourced =>
      exact innerSourced given
  | noArguments =>
      exact trivial
  | someArguments first others firstSourced othersSourced =>
      exact ⟨firstSourced given.left, othersSourced given.right⟩
  | lastArgument =>
      exact trivial
  | nextArgument separates first others firstSourced othersSourced =>
      exact ⟨firstSourced given.tail.left, othersSourced given.tail.right⟩
  | noAlternative =>
      exact trivial
  | someAlternative kind inner innerSourced =>
      exact innerSourced given.tail
  | block opens inner closes innerSourced =>
      exact innerSourced given.tail.left
  | binding kind named assigns value valueSourced =>
      have word := given.head kind (by decide)
      exact ⟨(Option.some.inj word).symm, given.tail.head named (by decide),
        valueSourced given.tail.tail.tail⟩
  | returning kind value valueSourced =>
      have word := given.head kind (by decide)
      exact ⟨(Option.some.inj word).symm, valueSourced given.tail⟩
  | expressionStatement value valueSourced =>
      exact valueSourced given
  | noStatements =>
      exact trivial
  | someStatements first separates others firstSourced othersSourced =>
      exact ⟨firstSourced given.left, othersSourced given.right.right⟩
  | gap loss others othersSourced =>
      exact othersSourced given.right

end Readings

namespace Parsed

/-- What is read from source tokens comes from source text, whole or not. -/
theorem sourced_ofTokens
    (strictBlocks : Bool)
    {tokens : List Token}
    (given : SourceTokens (TokenStream.beforeEnd tokens)) :
    Statement.SourcedAll (ofTokens strictBlocks tokens).program.statements := by
  obtain ⟨missing, brackets, -, reading⟩ := reads_ofTokens strictBlocks tokens
  apply sourced_of_reads reading
  intro token member visible
  rcases List.mem_append.mp member with inside | supplied
  · exact given token inside visible
  · exact (visible (brackets token supplied)).elim

/-- Every program read from source text comes from source text, whole or not. -/
theorem sourced_ofSource (strictBlocks : Bool) (source file : String) :
    Statement.SourcedAll
      (ofSource strictBlocks source file).program.statements := by
  have given :
      SourceTokens (TokenStream.beforeEnd (tokenize source file)) :=
    fun token member visible => Token.admits_of_mem_tokenize member
  -- Without a name for the tokens, the scanner is run on an unknown text.
  rw [ofSource]
  generalize tokenize source file = tokens at given ⊢
  exact sourced_ofTokens strictBlocks given

end Parsed

end Scriptlet
