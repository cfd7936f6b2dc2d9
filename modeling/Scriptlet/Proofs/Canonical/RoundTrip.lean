import Scriptlet.Proofs.Canonical.Rendering
import Scriptlet.Proofs.Canonical.Sourced
import Scriptlet.Proofs.Grammar.Recognised

namespace Scriptlet

/-!
# Canonical forms read back

The canonical form of a tree that comes from source text renders the tree.  So
the canonical form of a program is read as the program again, without a
diagnostic, unless it nests too deep.
-/

mutual

/-- Canonical forms of expressions render them, as callees and as operands. -/
theorem Expression.renders :
    (tree : Expression) →
      tree.Sourced →
        Renders (.expression .call) tree.canonical tree
  | .identifier _, sourced => by
      rw [Expression.canonical]
      exact .identifier sourced
  | .integer _ _, sourced => by
      rw [Expression.canonical]
      exact .integer sourced
  | .string _ _, sourced => by
      rw [Expression.canonical]
      exact .string sourced
  | .boolean _ _, _ => by
      rw [Expression.canonical]
      exact .boolean
  | .prefixed _ _ right, ⟨kind, admitted, rightSourced⟩ => by
      rw [Expression.canonical]
      exact .prefixed kind admitted (right.renders rightSourced)
  | .binary _ left _ right,
      ⟨⟨_, kind⟩, admitted, leftSourced, rightSourced⟩ => by
      rw [Expression.canonical]
      exact .binary kind admitted (left.renders leftSourced)
        (right.renders rightSourced)
  | .conditional _ condition consequence none,
      ⟨word, conditionSourced, consequenceSourced, _⟩ => by
      have rendered :=
        Renders.conditional word (condition.renders conditionSourced)
          (consequence.renders consequenceSourced) .noAlternative
          (by simp [Apart])
      rw [String.append_empty] at rendered
      rw [Expression.canonical]
      exact rendered
  | .conditional _ condition consequence (some alternative),
      ⟨word, conditionSourced, consequenceSourced, alternativeSourced⟩ => by
      have rendered :=
        Renders.conditional word (condition.renders conditionSourced)
          (consequence.renders consequenceSourced)
          (.someAlternative (alternative.renders alternativeSourced))
          (by
            rw [String.toList_append]
            exact apart_cons (by decide) (by decide))
      rw [← String.append_assoc] at rendered
      rw [Expression.canonical]
      exact rendered
  | .function _ _ body, ⟨word, named, bodySourced⟩ => by
      rw [Expression.canonical]
      exact .function word named (body.renders bodySourced)
  | .call _ callee arguments, ⟨calleeSourced, argumentsSourced⟩ => by
      rw [Expression.canonical]
      exact .call (callee.renders calleeSourced)
        (Expression.renders_arguments arguments argumentsSourced)

theorem Expression.renders_arguments :
    (trees : List Expression) →
      Expression.SourcedAll trees →
        Renders .arguments
          (String.intercalate ", " (Expression.canonicals trees)) trees
  | [], _ =>
      .noArguments
  | first :: rest, ⟨firstSourced, restSourced⟩ =>
      .someArguments (first.renders firstSourced)
        (Expression.renders_furtherArguments rest restSourced)

theorem Expression.renders_furtherArguments :
    (trees : List Expression) →
      Expression.SourcedAll trees →
        Renders .furtherArguments
          (furtherTexts (Expression.canonicals trees)) trees
  | [], _ =>
      .lastArgument
  | first :: rest, ⟨firstSourced, restSourced⟩ =>
      .nextArgument (first.renders firstSourced)
        (Expression.renders_furtherArguments rest restSourced)

/-- A statement is rendered by its canonical form, but for a semicolon. -/
theorem Statement.renders :
    (tree : Statement) →
      tree.Sourced →
        ∃ text,
          Renders .statement text tree ∧
            (tree.canonical = text ∨ tree.canonical = text ++ ";") ∧
            ∀ next later,
              tree.canonical ++ tree.separator (next :: later) = text ++ "; "
  | .binding _ _ value, ⟨word, named, valueSourced⟩ => by
      refine ⟨_, .binding word named (value.renders valueSourced),
        .inr (by rw [Statement.canonical]), ?_⟩
      intro next later
      rw [Statement.canonical, String.append_assoc]
      rfl
  | .returning _ value, ⟨word, valueSourced⟩ => by
      refine ⟨_, .returning word (value.renders valueSourced),
        .inr (by rw [Statement.canonical]), ?_⟩
      intro next later
      rw [Statement.canonical, String.append_assoc]
      rfl
  | .expression _ inner, sourced => by
      refine ⟨_, .expressionStatement (inner.renders sourced),
        .inl (by rw [Statement.canonical]), ?_⟩
      intro next later
      rw [Statement.canonical]
      rfl
  | .block _, sourced =>
      sourced.elim

/-- The canonical forms of statements, one after the other, render them. -/
theorem Statement.renders_all :
    (trees : List Statement) →
      Statement.SourcedAll trees →
        Renders .statements (String.join (Statement.canonicals trees)) trees
  | [], _ =>
      .noStatements
  | [last], ⟨lastSourced, _⟩ => by
      obtain ⟨text, rendered, form | form, -⟩ := last.renders lastSourced
      · have whole := rendered.lastStatement
        rw [← form] at whole
        simpa [Statement.canonicals, Statement.separator] using whole
      · have whole := rendered.closedStatement
        rw [← form] at whole
        simpa [Statement.canonicals, Statement.separator] using whole
  | first :: next :: later, ⟨firstSourced, restSourced⟩ => by
      obtain ⟨text, rendered, -, form⟩ := first.renders firstSourced
      have others := Statement.renders_all (next :: later) restSourced
      rw [Statement.canonicals, String.join_cons, form]
      exact rendered.nextStatement others

/-- The canonical form of a block renders it. -/
theorem Block.renders :
    (tree : Block) →
      tree.Sourced →
        Renders .block tree.canonical tree
  | ⟨_, []⟩, _ =>
      .emptyBlock
  | ⟨_, first :: rest⟩, sourced =>
      .block (Statement.renders_all (first :: rest) sourced)

end

/-- The tokens of a text that renders a tree print one alike. -/
theorem Renders.prints
    (file : String)
    {phrase : Phrase}
    {text : String}
    {tree : phrase.Tree}
    (rendered : Renders phrase text tree) :
    ∃ same,
      Prints phrase (TokenStream.beforeEnd (tokenize text file)) same ∧
        phrase.Alike same tree := by
  obtain ⟨-, words, scanned, worded⟩ := rendered
  have whole := scanned [] (by simp [Apart])
  rw [List.append_nil, readings_nil, List.append_nil] at whole
  have spelled := Token.map_reading_tokenize text file
  rw [whole] at spelled
  exact worded _ spelled

namespace Parsed

/-- A text that renders statements is read as them, or nests too deep. -/
theorem ofSource_of_renders
    (strictBlocks : Bool)
    (file : String)
    {text : String}
    {trees : List Statement}
    (rendered : Renders .statements text trees) :
    (∃ diagnostic ∈ (ofSource strictBlocks text file).diagnostics,
      diagnostic.fault = .nestingTooDeep nestingLimit) ∨
      ((ofSource strictBlocks text file).diagnostics = [] ∧
        Phrase.statements.Alike
          (ofSource strictBlocks text file).program.statements trees) := by
  obtain ⟨same, printed, alike⟩ := rendered.prints file
  refine (statements_of_reads strictBlocks printed.reads).imp_right ?_
  rintro ⟨quiet, rfl⟩
  exact ⟨quiet, alike⟩

/--
The canonical form of a program that was read from source text, whole or not,
is read without a diagnostic as a program of the same shape and with the same
canonical form, or it nests too deep.
-/
theorem canonical_round_trip
    (strictBlocks again : Bool)
    (source file otherFile : String) :
    let program := (ofSource strictBlocks source file).program
    let reread := ofSource again program.canonical otherFile
    (∃ diagnostic ∈ reread.diagnostics,
      diagnostic.fault = .nestingTooDeep nestingLimit) ∨
      (reread.diagnostics = [] ∧
        reread.program.sameShape program = true ∧
        reread.program.canonical = program.canonical) := by
  intro program reread
  have rendered :
      Renders .statements program.canonical program.statements :=
    Statement.renders_all _ (sourced_ofSource strictBlocks source file)
  refine (ofSource_of_renders again otherFile rendered).imp_right ?_
  rintro ⟨quiet, shape, forms⟩
  exact ⟨quiet, shape, congrArg String.join forms⟩

end Parsed

end Scriptlet
