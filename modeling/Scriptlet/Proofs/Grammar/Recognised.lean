import Scriptlet.Proofs.Grammar.Accepted
import Scriptlet.Proofs.Grammar.Completeness
import Scriptlet.Syntax.Shape

namespace Scriptlet

/-!
# Recognised programs

A token list that spells a program, with parentheses and semicolons beyond the
needed ones or without, is read as that program unless it nests too deep.
-/

/-- The tokens read as a program of the given shape. -/
def Spells (tokens : List Token) (program : Program) : Prop :=
  ∃ same : Program,
    Reads False .statements tokens same.statements ∧
      same.sameShape program = true

namespace Parse

variable
  {strictBlocks : Bool}
  {start : Cursor}
  {tokens : List Token}
  {final : Token}
  {opened : Nat}

/-- At the end of input no statement is left. -/
theorem reaches_programStatements_nil
    {count : Nat}
    (here : start.At [] final opened) :
    (programStatements strictBlocks count start).Reaches
      fun value _ => value = [] := by
  cases count with
  | zero =>
      rw [programStatements, pure_apply, reaches_mk]
  | succ count =>
      have ends :=
        (start.stream.current_kind_eq_endOfInput_iff).mpr here.ahead
      rw [programStatements, current_bind_apply, if_pos ends, pure_apply,
        reaches_mk]

/-- One statement after the other, a program is read up to its end. -/
theorem reaches_programStatements
    {trees : List Statement}
    {count : Nat}
    (reading : Reads False .statements tokens trees)
    (here : start.At tokens final opened)
    (enough : tokens.length ≤ count) :
    (programStatements strictBlocks count start).Reaches
      fun value _ => value = trees := by
  induction count generalizing start tokens trees opened with
  | zero =>
      cases reading with
      | noStatements =>
          exact reaches_programStatements_nil here
      | someStatements first separates others =>
          obtain ⟨head, tail, rfl, -⟩ := first.head_statement
          simp at enough
      | gap loss others =>
          exact loss.elim
  | succ count inductionHypothesis =>
      cases reading with
      | noStatements =>
          exact reaches_programStatements_nil here
      | gap loss others =>
          exact loss.elim
      | someStatements first separates others =>
          rename_i firstTokens separator restTokens statement statements
          obtain ⟨head, tail, rfl, starts⟩ := first.head_statement
          have inside : head.kind ≠ .endOfInput := fun isEnd =>
            starts.goesOn (.inr isEnd)
          rw [programStatements, current_bind_apply, here.current,
            if_neg inside]
          apply reaches_emit_bind rfl
          rw [setDepth_bind_apply]
          have ends : final.kind.EndsStatement := by
            rw [← here.last, start.stream.last_kind]
            simp [TokenKind.EndsStatement, TokenKind.operatorForm?]
          have closes :
              Closes separator ((restTokens ++ []).headD final).kind :=
            closes_of_separates separates others ends
          rw [List.append_nil] at closes
          have completes : Completes strictBlocks .statement _ statement :=
            completes_of_reads first
          have found :=
            completes (Nat.le_add_right nestingLimit 0) here.atDepth closes
          apply reaches_bind
          apply reaches_attempt
          apply found.mono
          rintro value middle ⟨rfl, before⟩
          have enoughOthers : restTokens.length ≤ count := by
            simp only [List.length_cons, List.length_append] at enough
            omega
          rw [advance_bind_apply, andSoOn_eq]
          apply reaches_map
          apply (inductionHypothesis others before.advance enoughOthers).mono
          rintro values after rfl
          rfl

end Parse

namespace Parsed

/-- Tokens that read as statements are read as them, or nest too deep. -/
theorem statements_of_reads
    (strictBlocks : Bool)
    {tokens : List Token}
    {trees : List Statement}
    (reading : Reads False .statements (TokenStream.beforeEnd tokens) trees) :
    (∃ diagnostic ∈ (ofTokens strictBlocks tokens).diagnostics,
      diagnostic.fault = .nestingTooDeep nestingLimit) ∨
      ((ofTokens strictBlocks tokens).diagnostics = [] ∧
        (ofTokens strictBlocks tokens).program.statements = trees) := by
  have here :
      (Cursor.ofStream (TokenStream.ofTokens tokens)).At
        (TokenStream.beforeEnd tokens) (TokenStream.endOf tokens) 0 :=
    ⟨rfl, rfl, rfl⟩
  obtain ⟨after, ends, -, -⟩ := gives_statements strictBlocks tokens
  rw [diagnostics_ofTokens] at *
  rcases Parse.reaches_programStatements reading here (Nat.le_refl _) with
    tooDeep | ⟨value, after, ⟨same, -, quiet⟩, rfl⟩
  · exact .inl tooDeep
  · refine .inr ⟨quiet trivial, ?_⟩
    exact Option.some.inj (ends.symm.trans same)

/-- A token list that spells a program is read as it, or nests too deep. -/
theorem spelled_program_recognised
    (strictBlocks : Bool)
    (tokens : List Token)
    (program : Program)
    (spelled : Spells (TokenStream.beforeEnd tokens) program) :
    (∃ diagnostic ∈ (ofTokens strictBlocks tokens).diagnostics,
      diagnostic.fault = .nestingTooDeep nestingLimit) ∨
      ((ofTokens strictBlocks tokens).diagnostics = [] ∧
        (ofTokens strictBlocks tokens).program.sameShape program = true) := by
  obtain ⟨same, reading, shape⟩ := spelled
  refine (statements_of_reads strictBlocks reading).imp_right ?_
  rintro ⟨quiet, kept⟩
  refine ⟨quiet, ?_⟩
  rw [Program.sameShape, kept]
  exact shape

/-- Redundant parentheses, a call of a call, and a semicolon that is needed. -/
theorem spelled_program_recognised_redundant :
    Spells
        (TokenStream.beforeEnd (tokenize "let a = ((1)) f(a)(2); -a" "text"))
        (ofSource true "let a = 1; (f(a))(2); -(a);" "other").program ∧
      ((∃ diagnostic ∈
          (ofSource false "let a = ((1)) f(a)(2); -a" "text").diagnostics,
        diagnostic.fault = .nestingTooDeep nestingLimit) ∨
        ((ofSource false "let a = ((1)) f(a)(2); -a" "text").diagnostics = [] ∧
          (ofSource false "let a = ((1)) f(a)(2); -a" "text").program.sameShape
              (ofSource true "let a = 1; (f(a))(2); -(a);" "other").program =
            true)) := by
  have spelled :
      Spells
        (TokenStream.beforeEnd (tokenize "let a = ((1)) f(a)(2); -a" "text"))
        (ofSource true "let a = 1; (f(a))(2); -(a);" "other").program := by
    obtain ⟨missing, -, none, reading⟩ :=
      reads_ofTokens true (tokenize "let a = ((1)) f(a)(2); -a" "text")
    have quiet :
        ((ofTokens true
          (tokenize "let a = ((1)) f(a)(2); -a" "text")).diagnostics ≠ []) =
            False := by
      decide +kernel
    rw [none rfl, List.append_nil, quiet] at reading
    exact ⟨_, reading, by decide +kernel⟩
  exact ⟨spelled, spelled_program_recognised false _ _ spelled⟩

end Parsed

end Scriptlet
