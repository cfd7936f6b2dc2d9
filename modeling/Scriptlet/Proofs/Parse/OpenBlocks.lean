import Scriptlet.Proofs.Parse.Unclosed

namespace Scriptlet

/-!
# Supplying brackets repairs a program

Where nothing is wrong with a program but that blocks are left open, the strict
parse records each of them.  It can be repaired by closing brackets at its end,
as many as were recorded; and then it is the program that the permissive parse
gives as it stands.
-/

namespace Parse

section Programs

variable {count : Nat} {left : Cursor}

/-- A statement given quietly is all that comes of reading it. -/
theorem Outcome.Gives.single_eq
    {outcome : Outcome Cursor Statement}
    {tree : Statement}
    {after : Cursor}
    (given : outcome.Gives True tree after) :
    outcome.single = ⟨[tree], []⟩ := by
  obtain ⟨gave, -, quiet⟩ := given
  rw [Outcome.single, gave, quiet trivial]
  rfl

/--
A program read quietly left some number of blocks open.  With as many brackets
the strict run reads the same program; with fewer it records those that lack
theirs.
-/
structure SealsProgram
    (count : Nat)
    (left : Cursor)
    (trees : List Statement)
    (opened : Nat) :
    Prop where
  enough :
    ∀ further brackets right, left.Extended brackets right →
      brackets.size = opened →
        (programStatements true (count + further) right).harvest = ⟨trees, []⟩
  short :
    ∀ further brackets right, left.Extended brackets right →
      brackets.size ≤ opened →
        (programStatements true (count + further) right).harvest.diagnostics.map
            Diagnostic.fault =
          List.replicate (opened - brackets.size) lackingBracket

theorem sealsProgram_of_ended
    (ended : left.stream.ahead = []) :
    SealsProgram count left [] 0 := by
  have noneLeft
      {brackets : Brackets}
      {right : Cursor}
      (extended : left.Extended brackets right)
      (le : brackets.size ≤ 0) :
      right.stream.ahead = [] := by
    rw [extended.ahead, ended, List.length_eq_zero_iff.mp (Nat.le_zero.mp le)]
    rfl
  constructor
  · intro further brackets right extended exactly
    rw [programStatements_of_ended (noneLeft extended (Nat.le_of_eq exactly))]
    rfl
  · intro further brackets right extended le
    rw [programStatements_of_ended (noneLeft extended le), Nat.le_zero.mp le]
    rfl

/-- A statement that strict runs give too, and what follows it. -/
theorem SealsProgram.prepend
    {tree : Statement}
    {others : List Statement}
    {middle : Cursor}
    {opened : Nat}
    (rest : SealsProgram count middle.advance others opened)
    (ahead : left.stream.ahead ≠ [])
    (inside : middle.stream.ahead ≠ [])
    (same :
      ∀ brackets right, (left.atDepth 0).Extended brackets right →
        ∃ final,
          (statement (routinesWithin true nestingLimit) right).Gives True tree
              final ∧
            middle.Extended brackets final) :
    SealsProgram (count + 1) left (tree :: others) opened := by
  -- One round of the strict run.
  have round
      (further : Nat)
      {brackets : Brackets}
      {right : Cursor}
      (extended : left.Extended brackets right) :
      ∃ final,
        middle.advance.Extended brackets final ∧
          (programStatements true (count + 1 + further) right).harvest =
            Harvest.andThen ⟨[tree], []⟩
              (programStatements true (count + further) final).harvest := by
    obtain ⟨final, given, extendedFinal⟩ := same brackets _ (extended.atDepth 0)
    refine ⟨final.advance, extendedFinal.advance inside, ?_⟩
    have aheadRight : right.stream.ahead ≠ [] := by
      rw [extended.ahead]
      exact List.append_ne_nil_of_left_ne_nil ahead _
    rw [Nat.succ_add, harvest_programStatements_succ aheadRight rfl,
      given.single_eq, given.2.1]
  constructor
  · intro further brackets right extended exactly
    obtain ⟨final, extendedFinal, ran⟩ := round further extended
    rw [ran, rest.enough further brackets final extendedFinal exactly]
    rfl
  · intro further brackets right extended le
    obtain ⟨final, extendedFinal, ran⟩ := round further extended
    rw [ran]
    exact rest.short further brackets final extendedFinal le

/-- A last statement with open blocks, of which strict runs close some. -/
theorem sealsProgram_of_closes
    {tree : Statement}
    {middle : Cursor}
    {around : Nat}
    (ahead : left.stream.ahead ≠ [])
    (atEnd : middle.stream.ahead = [])
    (closes :
      ∀ brackets right, (left.atDepth 0).Extended brackets right →
        (statement (routinesWithin true nestingLimit) right).Closes around
          brackets tree middle) :
    SealsProgram (count + 1) left [tree] (around + 1) := by
  have aheadRight
      {brackets : Brackets}
      {right : Cursor}
      (extended : left.Extended brackets right) :
      right.stream.ahead ≠ [] := by
    rw [extended.ahead]
    exact List.append_ne_nil_of_left_ne_nil ahead _
  have enough
      (further : Nat)
      (brackets : Brackets)
      (right : Cursor)
      (extended : left.Extended brackets right)
      (exactly : brackets.size = around + 1) :
      (programStatements true (count + 1 + further) right).harvest =
        ⟨[tree], []⟩ := by
    obtain ⟨final, given, extendedFinal⟩ :=
      (closes brackets _ (extended.atDepth 0)).moves_on atEnd (by omega)
    have used : (brackets.drop (around + 1)).tokens = [] :=
      List.drop_eq_nil_of_le (Nat.le_of_eq exactly)
    have atEndFinal : final.advance.stream.ahead = [] := by
      rw [extendedFinal.ahead, atEnd, used, List.append_nil]
    rw [Nat.succ_add, harvest_programStatements_succ (aheadRight extended) rfl,
      given.single_eq, given.2.1, programStatements_of_ended atEndFinal]
    rfl
  refine ⟨enough, fun further brackets right extended le => ?_⟩
  rcases Nat.lt_or_eq_of_le le with few | exactly
  · obtain ⟨failed, atEndRight, faults⟩ :=
      (closes brackets _ (extended.atDepth 0)).short (Nat.le_of_lt_succ few)
    have atEndNext :
        (statement (routinesWithin true nestingLimit)
          (right.atDepth 0)).cursor.advance.stream.ahead = [] := by
      rw [Cursor.ahead_advance, atEndRight, List.tail_nil]
    rw [Nat.succ_add, harvest_programStatements_succ (aheadRight extended) rfl,
      programStatements_of_ended atEndNext]
    simpa [Outcome.single, Outcome.harvest, Harvest.andThen, Event.faults,
      Event.diagnostics] using faults
  · rw [enough further brackets right extended exactly, exactly, Nat.sub_self]
    rfl

theorem sealsProgram_of_gives
    {trees : List Statement}
    {after : Cursor}
    (length_le : left.stream.ahead.length ≤ count)
    (given : (programStatements false count left).Gives True trees after) :
    ∃ opened, SealsProgram count left trees opened := by
  induction count generalizing left trees with
  | zero =>
      have ended := List.length_eq_zero_iff.mp (Nat.le_zero.mp length_le)
      rw [programStatements_of_ended ended] at given
      obtain ⟨rfl, rfl⟩ := gives_mk.mp given
      exact ⟨0, sealsProgram_of_ended ended⟩
  | succ count inductionHypothesis =>
      by_cases ended : left.stream.ahead = []
      · rw [programStatements_of_ended ended] at given
        obtain ⟨rfl, -⟩ := gives_mk.mp given
        exact ⟨0, sealsProgram_of_ended ended⟩
      · have orderly :
            OrderlyRoutines nestingLimit (routinesWithin false nestingLimit) :=
          orderly_within.1
        have stated :
            Orderly nestingLimit (statement (routinesWithin false nestingLimit)) :=
          inferInstance
        have fits : nestingLimit ≤ nestingLimit + (left.atDepth 0).depth :=
          Nat.le_refl _
        obtain ⟨-, none | atEnd⟩ |
            ⟨fewer, tree?, middle, others, rounds, -, attempted, givenOthers,
              rfl⟩ :=
          gives_programStatements given
        · cases none
        · exact (ended atEnd).elim
        · obtain rfl := Nat.succ.inj rounds
          obtain ⟨tree, rfl, givenTree⟩ := gives_of_quiet_attempt fits attempted
          have starts : (left.atDepth 0).stream.ahead ≠ [] := ended
          cases sealed_statement (sealed_within nestingLimit).1 starts fits tree
              middle givenTree with
          | whole inside same =>
              have shorter : middle.advance.stream.ahead.length ≤ count := by
                have suffix := stated.ahead _ fits
                rw [givenTree.2.1] at suffix
                have le := suffix.length_le
                rw [Cursor.ahead_advance, List.length_tail]
                simp only [Cursor.stream_atDepth] at le
                omega
              obtain ⟨opened, rest⟩ := inductionHypothesis shorter givenOthers
              exact ⟨opened, rest.prepend ended inside same⟩
          | opened around atEnd closes =>
              have atEndNext : middle.advance.stream.ahead = [] := by
                rw [Cursor.ahead_advance, atEnd, List.tail_nil]
              rw [programStatements_of_ended atEndNext] at givenOthers
              obtain ⟨rfl, -⟩ := gives_mk.mp givenOthers
              exact ⟨around + 1, sealsProgram_of_closes ended atEnd closes⟩

end Programs

end Parse

namespace Parsed

open Parse (lackingBracket)

/--
Reading a program quietly where blocks are not strict, and strictly with as many
brackets behind it as it has blocks open.
-/
theorem exists_opened
    {tokens : List Token}
    (noEnd : ∀ token ∈ tokens, token.kind ≠ .endOfInput)
    (quiet : (ofTokens false tokens).diagnostics = []) :
    ∃ opened,
      (ofTokens true tokens).diagnostics.map Diagnostic.fault =
          List.replicate opened lackingBracket ∧
        ∀ brackets : Brackets, brackets.size = opened →
          (ofTokens true (tokens ++ brackets.tokens)).harvest =
            (ofTokens false tokens).harvest := by
  let start := Cursor.ofStream (TokenStream.ofTokens tokens)
  obtain ⟨after, given⟩ := gives_statements false tokens
  rw [quiet, eq_self] at given
  have length_le :
      start.stream.ahead.length ≤ (TokenStream.beforeEnd tokens).length :=
    Nat.le_refl _
  obtain ⟨opened, enough, short⟩ := Parse.sealsProgram_of_gives length_le given
  refine ⟨opened, ?_, fun brackets exactly => ?_⟩
  · have unsupplied : start.Extended Brackets.none start :=
      ⟨(List.append_nil _).symm, rfl, rfl⟩
    rw [diagnostics_ofTokens]
    exact short 0 Brackets.none start unsupplied (Nat.zero_le _)
  · have noEndBrackets :
        ∀ token ∈ brackets.tokens, token.kind ≠ .endOfInput := by
      intro token member
      rw [brackets.kind token member]
      nofun
    have ahead :
        TokenStream.beforeEnd (tokens ++ brackets.tokens) =
          TokenStream.beforeEnd tokens ++ brackets.tokens := by
      rw [TokenStream.beforeEnd_append noEnd, TokenStream.beforeEnd_eq noEnd,
        TokenStream.beforeEnd_eq noEndBrackets]
    have last :
        TokenStream.endOf (tokens ++ brackets.tokens) =
          TokenStream.endOf tokens := by
      have implied := TokenStream.endOf_append noEnd []
      have impliedBrackets := TokenStream.endOf_append noEndBrackets []
      rw [List.append_nil] at implied impliedBrackets
      rw [TokenStream.endOf_append noEnd, implied, impliedBrackets]
    have supplied :
        start.Extended brackets
          (Cursor.ofStream (TokenStream.ofTokens (tokens ++ brackets.tokens))) :=
      ⟨ahead, last, rfl⟩
    rw [harvest_ofTokens, ahead, List.length_append, harvest, quiet]
    exact enough brackets.size brackets _ supplied exactly

/--
Strict and permissive parses differ in unclosed blocks only.  Where the strict
parse records none, both are the same.  Where the permissive parse records
nothing, unclosed blocks are all that the strict one records, and with as many
closing brackets supplied it reads the same program and records nothing.
-/
theorem strict_differs_in_open_blocks
    (tokens : List Token)
    (noEnd : ∀ token ∈ tokens, token.kind ≠ .endOfInput) :
    ((∀ diagnostic ∈ (ofTokens true tokens).diagnostics,
          diagnostic.fault ≠ .expectedToken .closeCurly .endOfInput) →
        (ofTokens false tokens).program = (ofTokens true tokens).program ∧
          (ofTokens false tokens).diagnostics =
            (ofTokens true tokens).diagnostics) ∧
      ((ofTokens false tokens).diagnostics = [] →
        (∀ diagnostic ∈ (ofTokens true tokens).diagnostics,
            diagnostic.fault = .expectedToken .closeCurly .endOfInput) ∧
          ∀ brackets : List Token,
            (∀ token ∈ brackets, token.kind = .closeCurly) →
              brackets.length = (ofTokens true tokens).diagnostics.length →
                (ofTokens true (tokens ++ brackets)).diagnostics = [] ∧
                  (ofTokens true (tokens ++ brackets)).program =
                    (ofTokens false tokens).program) := by
  constructor
  · intro closed
    have same := harvest_ofTokens_of_closed false closed
    exact ⟨congrArg Program.mk (congrArg Harvest.statements same),
      congrArg Harvest.diagnostics same⟩
  · intro quiet
    obtain ⟨opened, faults, repaired⟩ := exists_opened noEnd quiet
    constructor
    · intro diagnostic member
      have among :
          diagnostic.fault ∈
            (ofTokens true tokens).diagnostics.map Diagnostic.fault :=
        List.mem_map_of_mem member
      rw [faults] at among
      exact List.eq_of_mem_replicate among
    · intro brackets kind length
      have count := congrArg List.length faults
      rw [List.length_map, List.length_replicate] at count
      have same := repaired ⟨brackets, kind⟩ (length.trans count)
      exact ⟨(congrArg Harvest.diagnostics same).trans quiet,
        congrArg Program.mk (congrArg Harvest.statements same)⟩

/-- A conditional whose block is left open, in a function whose body is too. -/
def openTokens : List Token :=
  TokenStream.beforeEnd
    (tokenize "a; let f = fn(b) \x7b b; if (b) \x7b b + 1 \x7d; if (b) \x7b b" "open")

/-- The brackets of two blocks. -/
def twoBrackets : List Token :=
  TokenStream.beforeEnd (tokenize "\x7d \x7d" "brackets")

/-- Two blocks are left open inside each other, and two brackets repair them. -/
theorem strict_differs_in_open_blocks_twice :
    (∀ token ∈ openTokens, token.kind ≠ .endOfInput) ∧
      (ofTokens false openTokens).diagnostics = [] ∧
      (ofTokens true openTokens).diagnostics.length = 2 ∧
      (∀ diagnostic ∈ (ofTokens true openTokens).diagnostics,
        diagnostic.fault = .expectedToken .closeCurly .endOfInput) ∧
      (ofTokens true (openTokens ++ twoBrackets)).diagnostics = [] ∧
      (ofTokens true (openTokens ++ twoBrackets)).program =
        (ofTokens false openTokens).program ∧
      (ofTokens false openTokens).program.statements.length = 2 ∧
      (ofTokens false (openTokens ++ twoBrackets)).program =
        (ofTokens true (openTokens ++ twoBrackets)).program := by
  have noEnd : ∀ token ∈ openTokens, token.kind ≠ .endOfInput := by
    decide +kernel
  have quiet : (ofTokens false openTokens).diagnostics = [] := by
    decide +kernel
  have recorded : (ofTokens true openTokens).diagnostics.length = 2 := by
    decide +kernel
  obtain ⟨faults, repaired⟩ :=
    (strict_differs_in_open_blocks openTokens noEnd).2 quiet
  obtain ⟨silent, same⟩ := repaired twoBrackets (by decide +kernel) recorded.symm
  have closed :=
    (strict_differs_in_open_blocks (openTokens ++ twoBrackets)
      (by decide +kernel)).1 (by simp [silent])
  exact ⟨noEnd, quiet, recorded, faults, silent, same, by decide +kernel,
    closed.1⟩

end Parsed

end Scriptlet
