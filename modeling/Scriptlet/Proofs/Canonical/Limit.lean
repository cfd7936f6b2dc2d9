import Scriptlet.Proofs.Canonical.RoundTrip
import Scriptlet.Proofs.Canonical.Settled

namespace Scriptlet

/-!
# Canonical forms and the nesting limit

The limit counts what a source text opens.  Its canonical form opens other
levels: parentheses around every sign and operator, whether the text had them or
not.  So the limit may reject the canonical form of a program it has accepted.
It does so exactly when the canonical form is deeper than the limit.
-/

/-- Printed statements are none, or a first one and what follows it. -/
theorem Prints.statements_cases
    {tokens : List Token}
    {trees : List Statement}
    (printed : Prints .statements tokens trees) :
    (tokens = [] ∧ trees = []) ∨
      ∃ firstTokens separator restTokens first others,
        tokens = firstTokens ++ (separator ++ restTokens) ∧
          trees = first :: others ∧
          Prints .statement firstTokens first ∧
          Separates separator restTokens ∧
          Prints .statements restTokens others := by
  cases printed with
  | noStatements =>
      exact .inl ⟨rfl, rfl⟩
  | lastStatement last =>
      refine .inr ⟨tokens, [], [], _, [], ?_, rfl, last, ?_, .noStatements⟩
      · rw [List.append_nil, List.append_nil]
      · exact .nothing (by simp)
  | someStatements first separates others =>
      exact .inr ⟨_, _, _, _, _, rfl, rfl, first, .semicolon separates, others⟩

namespace Parse

variable
  {start : Cursor}
  {tokens : List Token}
  {final : Token}
  {opened : Nat}

/-- One statement after the other, a printed program is read up to its end. -/
theorem settles_programStatements
    (strictBlocks : Bool)
    {trees : List Statement}
    {count : Nat}
    (printed : Prints .statements tokens trees)
    (here : start.At tokens final opened)
    (enough : tokens.length ≤ count) :
    (programStatements strictBlocks count start).Settles
      (Statement.printedDepths trees ≤ nestingLimit - 0)
      fun value _ => value = trees := by
  induction count generalizing start tokens trees opened with
  | zero =>
      obtain rfl := List.length_eq_zero_iff.mp (Nat.le_zero.mp enough)
      rcases printed.statements_cases with
        ⟨-, rfl⟩ | ⟨_, _, _, _, _, shape, -, first, -, -⟩
      · rw [programStatements_of_ended here.ahead, Statement.printedDepths]
        exact settles_flat rfl
      · obtain ⟨head, tail, rfl, -⟩ := first.reads.head_statement
        contradiction
  | succ count inductionHypothesis =>
      rcases printed.statements_cases with
        ⟨rfl, rfl⟩ |
          ⟨_, separator, restTokens, tree, _, rfl, rfl, first, separates, others⟩
      · rw [programStatements_of_ended here.ahead, Statement.printedDepths]
        exact settles_flat rfl
      · obtain ⟨head, tail, rfl, starts⟩ := first.reads.head_statement
        have inside : head.kind ≠ .endOfInput := fun isEnd =>
          starts.goesOn (.inr isEnd)
        have ends : final.kind.EndsStatement := by
          rw [← here.last, start.stream.last_kind]
          simp [TokenKind.EndsStatement, TokenKind.operatorForm?]
        have closes :
            Closes separator ((restTokens ++ []).headD final).kind :=
          closes_of_separates separates others.reads ends
        rw [List.append_nil] at closes
        have settled : Settled strictBlocks .statement _ tree :=
          settled_of_prints first
        have landed :
            Lands (withRoutines strictBlocks statement) (start.atDepth 0)
              tree.printedDepth restTokens final 0 tree := by
          rw [Lands, withRoutines, Cursor.place_depth, Cursor.depth_atDepth, Nat.sub_zero]
          exact settled (Nat.le_add_right nestingLimit 0) here.atDepth closes
        rw [programStatements, current_bind_apply, here.current,
          if_neg inside]
        apply settles_emit_bind rfl
        rw [setDepth_bind_apply, Statement.printedDepths]
        refine landed.attempt.bind_max fun middle before => ?_
        have enoughOthers : restTokens.length ≤ count := by
          simp only [List.length_cons, List.length_append] at enough
          omega
        rw [advance_bind_apply, andSoOn_eq]
        apply settles_map
        apply (inductionHypothesis others before.advance enoughOthers).mono
        rintro values after rfl
        rfl

end Parse

/-- The number one, with some signs in front of it. -/
def negated (signs : Nat) : String :=
  String.ofList (List.replicate signs '-' ++ ['1'])

namespace Parsed

/-- A text that renders statements is too deep exactly when their form is. -/
theorem meetsLimit_iff_of_renders
    (strictBlocks : Bool)
    (file : String)
    {text : String}
    {trees : List Statement}
    (rendered : Renders .statements text trees) :
    (∃ diagnostic ∈ (ofSource strictBlocks text file).diagnostics,
      diagnostic.fault = .nestingTooDeep nestingLimit) ↔
      nestingLimit < Statement.printedDepths trees := by
  obtain ⟨same, printed, shape, -⟩ := rendered.prints file
  have here :
      (Cursor.ofStream (TokenStream.ofTokens (tokenize text file))).At
        (TokenStream.beforeEnd (tokenize text file))
        (TokenStream.endOf (tokenize text file)) 0 :=
    ⟨rfl, rfl, rfl⟩
  have settled :=
    Parse.settles_programStatements strictBlocks printed here (Nat.le_refl _)
  rw [Statement.printedDepths_eq same trees shape] at settled
  rw [ofSource, diagnostics_ofTokens]
  constructor
  · intro tooDeep
    exact Nat.lt_of_not_le fun fits => settled.not_meetsLimit fits tooDeep
  · intro deeper
    exact settled.beyond (Nat.not_le_of_lt deeper)

/-- A canonical form meets the limit when it is deeper than the limit. -/
theorem meetsLimit_canonical_iff
    (strictBlocks again : Bool)
    (source file otherFile : String) :
    (∃ diagnostic ∈
        (ofSource again
          (ofSource strictBlocks source file).program.canonical
          otherFile).diagnostics,
      diagnostic.fault = .nestingTooDeep nestingLimit) ↔
      nestingLimit <
        (ofSource strictBlocks source file).program.printedDepth :=
  meetsLimit_iff_of_renders again otherFile
    (Statement.renders_all _ (sourced_ofSource strictBlocks source file))

/--
The canonical form of a program that was read from source text, whole or not,
nests too deep when it is read again exactly if it is deeper than the limit.
Otherwise it is read without a diagnostic.
-/
theorem canonical_meets_limit_iff
    (strictBlocks again : Bool)
    (source file otherFile : String) :
    let program := (ofSource strictBlocks source file).program
    let reread := ofSource again program.canonical otherFile
    ((∃ diagnostic ∈ reread.diagnostics,
      diagnostic.fault = .nestingTooDeep nestingLimit) ↔
      nestingLimit < program.printedDepth) ∧
      (reread.diagnostics = [] ↔ program.printedDepth ≤ nestingLimit) := by
  intro program reread
  have tooDeep :=
    meetsLimit_canonical_iff strictBlocks again source file otherFile
  refine ⟨tooDeep, ?_, ?_⟩
  · intro quiet
    refine Nat.le_of_not_lt fun deeper => ?_
    obtain ⟨diagnostic, member, -⟩ := tooDeep.mpr deeper
    rw [quiet] at member
    exact (List.not_mem_nil member).elim
  · intro fits
    have rendered :=
      Statement.renders_all _ (sourced_ofSource strictBlocks source file)
    rcases ofSource_of_renders again otherFile rendered with
      meets | ⟨quiet, -⟩
    · exact (Nat.not_lt_of_le fits (tooDeep.mp meets)).elim
    · exact quiet

/-- The limit accepts half as many signs as it allows levels, but not their form. -/
theorem canonical_exceeds_limit :
    (ofSource true (negated 128) "text").diagnostics = [] ∧
      ∃ diagnostic ∈
          (ofSource true (ofSource true (negated 128) "text").program.canonical
            "text").diagnostics,
        diagnostic.fault = .nestingTooDeep nestingLimit := by
  have accepted :
      (ofSource true (negated 128) "text").diagnostics = [] ∧
        nestingLimit <
          (ofSource true (negated 128) "text").program.printedDepth := by
    decide +kernel
  exact accepted.imp_right
    (meetsLimit_canonical_iff true true (negated 128) "text" "text").mpr

end Parsed

end Scriptlet
