import Scriptlet.Proofs.Grammar.Soundness

namespace Scriptlet

/-!
# Accepted programs

What is kept of a token list reads in the grammar.  Of a list without faults
everything is kept, so that its tokens in front of the end of input are the
tokens of the program, each of them once and in order.  Only where blocks are
not strict may the closing brackets of the blocks that are still open at the
end be missing.
-/

namespace Parse

variable
  {quiet : Prop}
  {strictBlocks : Bool}
  {start after : Cursor}

/-- The statements of a program, up to the end of input. -/
theorem sound_programStatements
    {count : Nat}
    {trees : List Statement}
    (enough : start.stream.ahead.length ≤ count)
    (given :
      (programStatements strictBlocks count start).Gives quiet trees after) :
    ∃ read,
      Consumes strictBlocks start.stream.ahead [] read ∧
        Reads (¬ quiet) .statements read trees := by
  induction count generalizing start trees with
  | zero =>
      rcases gives_programStatements given with
        ⟨rfl, -⟩ | ⟨fewer, _, _, _, impossible, _⟩
      · rw [List.length_eq_zero_iff.mp (Nat.le_zero.mp enough)]
        exact ⟨[], .nil, .noStatements⟩
      · omega
  | succ count inductionHypothesis =>
      rcases gives_programStatements given with
        ⟨rfl, ends⟩ |
        ⟨fewer, statement?, middle, others, same, inside, attempted,
          givenOthers, rfl⟩
      · rw [ends.resolve_left (by omega)]
        exact ⟨[], .nil, .noStatements⟩
      · obtain rfl : count = fewer := by
          omega
        have sound :
            SoundRoutines quiet strictBlocks nestingLimit
              (routinesWithin strictBlocks nestingLimit) :=
          sound_within.1
        have routinesOrderly := sound.toOrderlyRoutines
        have orderly :
            Orderly nestingLimit
              (attempt
                (statement (routinesWithin strictBlocks nestingLimit))) :=
          inferInstance
        have fits : nestingLimit ≤ nestingLimit + (start.atDepth 0).depth :=
          Nat.le_add_right _ _
        have onward := orderly.ahead (start.atDepth 0) fits
        rw [attempted.2.1, Cursor.stream_atDepth] at onward
        have shorter : middle.advance.stream.ahead.length ≤ count := by
          have bounded := onward.length_le
          rw [Cursor.ahead_of_current_kind_ne inside, List.length_cons] at enough
          rw [Cursor.ahead_of_current_kind_ne inside, List.length_cons] at bounded
          rw [Cursor.ahead_advance, List.length_tail]
          omega
        obtain ⟨read, consumed, reading⟩ :=
          inductionHypothesis shorter givenOthers
        rw [Cursor.ahead_advance] at consumed
        have whole :=
          sound_attempt_statement sound fits inside attempted consumed reading
        exact whole

end Parse

namespace Parsed

/--
What is kept of a program reads in the grammar.  Tokens may be left out only
where something was recorded.
-/
theorem reads_ofTokens (strictBlocks : Bool) (tokens : List Token) :
    ∃ missing,
      (∀ token ∈ missing, token.kind = .closeCurly) ∧
        (strictBlocks = true → missing = []) ∧
        Reads ((ofTokens strictBlocks tokens).diagnostics ≠ []) .statements
          (TokenStream.beforeEnd tokens ++ missing)
          (ofTokens strictBlocks tokens).program.statements := by
  obtain ⟨after, given⟩ := gives_statements strictBlocks tokens
  have ahead :
      (Cursor.ofStream (TokenStream.ofTokens tokens)).stream.ahead =
        TokenStream.beforeEnd tokens :=
    rfl
  obtain ⟨read, ⟨-, missing, whole, brackets, permissive⟩, reading⟩ :=
    Parse.sound_programStatements (Nat.le_of_eq (by rw [ahead])) given
  refine ⟨missing, brackets, fun strict => ?_, ?_⟩
  · cases missing with
    | nil =>
        rfl
    | cons bracket others =>
        have notStrict := (permissive (by simp)).1
        rw [strict] at notStrict
        contradiction
  · rw [List.append_nil] at whole
    rw [← ahead, whole]
    exact reading

/--
The tokens of a program without faults are exactly a reading of it, and in all
readings the operands fit their operators.
-/
theorem accepted_program_reads
    (strictBlocks : Bool)
    (tokens : List Token)
    (accepted : (ofTokens strictBlocks tokens).diagnostics = []) :
    (∃ missing,
      (∀ token ∈ missing, token.kind = .closeCurly) ∧
        (strictBlocks = true → missing = []) ∧
        Reads False .statements (TokenStream.beforeEnd tokens ++ missing)
          (ofTokens strictBlocks tokens).program.statements) ∧
      ∀ stratum part tree,
        Reads False (.expression stratum) part tree →
          Reads.Parenthesised False part tree ∨
            Reads.OperandsFit False part tree := by
  refine ⟨?_, fun _ _ _ reading => reading.parenthesised_or_operandsFit⟩
  obtain ⟨missing, brackets, strict, reading⟩ :=
    reads_ofTokens strictBlocks tokens
  have lossless : ((ofTokens strictBlocks tokens).diagnostics ≠ []) = False := by
    simp [accepted]
  rw [lossless] at reading
  exact ⟨missing, brackets, strict, reading⟩

/-- A block that the end of input closes is accepted where it is not strict. -/
theorem accepted_program_reads_open_block :
    (ofSource false "if (a) \x7b -b * f(1) + 2" "open").diagnostics = [] ∧
      ∃ missing,
        (∀ token ∈ missing, token.kind = .closeCurly) ∧
          (false = true → missing = []) ∧
          Reads False .statements
            (TokenStream.beforeEnd
              (tokenize "if (a) \x7b -b * f(1) + 2" "open") ++ missing)
            (ofSource false "if (a) \x7b -b * f(1) + 2"
              "open").program.statements := by
  have accepted :
      (ofTokens false
        (tokenize "if (a) \x7b -b * f(1) + 2" "open")).diagnostics = [] := by
    decide +kernel
  exact ⟨accepted, (accepted_program_reads false _ accepted).1⟩

end Parsed

end Scriptlet
