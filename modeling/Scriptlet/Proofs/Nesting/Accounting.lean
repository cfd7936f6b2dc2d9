import Scriptlet.Proofs.Nesting.Metering
import Scriptlet.Proofs.Parse.Levels

namespace Scriptlet

/-!
# The depth of a parse

The number of open levels is the same before and after everything that nests.  Each
statement of a program is read with no level open, so the levels that are open while
it is read are at most as many as the tokens of the statement up to the one that a
level is entered at.  A level past the limit therefore takes a program with more
tokens than the limit has levels, less one for the end of input.
-/

namespace Cursor

theorem LeadsTo.trans
    {origin middle cursor : Cursor}
    (first : origin.LeadsTo middle)
    (second : middle.LeadsTo cursor) :
    origin.LeadsTo cursor := by
  obtain ⟨moves, place⟩ := first
  obtain ⟨more, placeLater⟩ := second
  refine ⟨moves + more, ?_⟩
  conv => lhs; rw [placeLater, place]
  rw [advanceBy_atDepth, atDepth_atDepth, advanceBy_add]

/-- The number of tokens of the input, passed or ahead. -/
def tokenCount (cursor : Cursor) : Nat :=
  cursor.passed + cursor.stream.ahead.length

theorem tokenCount_advance (cursor : Cursor) :
    cursor.advance.tokenCount = cursor.tokenCount := by
  by_cases ended : cursor.stream.ahead = []
  · rw [advance_of_ended ended]
  · rw [tokenCount, tokenCount, StandsIn.passed_advance ended, ahead_advance,
      List.length_tail]
    have nonempty := List.length_pos_iff.mpr ended
    omega

theorem tokenCount_advanceBy (cursor : Cursor) (moves : Nat) :
    (cursor.advanceBy moves).tokenCount = cursor.tokenCount := by
  induction moves generalizing cursor with
  | zero =>
      rfl
  | succ moves inductionHypothesis =>
      rw [advanceBy, inductionHypothesis, tokenCount_advance]

theorem LeadsTo.tokenCount_eq
    {origin cursor : Cursor}
    (leads : origin.LeadsTo cursor) :
    cursor.tokenCount = origin.tokenCount := by
  obtain ⟨moves, place⟩ := leads
  rw [place]
  exact tokenCount_advanceBy origin moves

end Cursor

namespace Parse

open Cursor

section Anywhere

variable
  {α : Type}
  {strictBlocks : Bool}
  {routine : Routines Cursor → Parse α}
  {composite : Callees → Parse α}

/-- A routine of the parser, started anywhere, keeps accounts of its levels. -/
theorem accounts_withRoutines
    (composed : Composed composite)
    (same :
      ∀ levels,
        composite (.within strictBlocks levels) =
          routine (routinesWithin strictBlocks levels))
    (start : Cursor) :
    Throughout (.accounts start) (withRoutines strictBlocks routine) start := by
  have accounts :=
    throughout_routine (steady_within strictBlocks (nestingLimit - start.depth))
      (accounts_within start _).1 (.start start) composed
  rw [same] at accounts
  exact .withRoutines accounts

end Anywhere

section Programs

variable (strictBlocks : Bool)

theorem accounts_statement (start : Cursor) :
    Throughout (.accounts start) (withRoutines strictBlocks statement) start :=
  accounts_withRoutines Composed.statement (fun _ => rfl) start

variable {strictBlocks}

theorem depth_of_mem_statementStarts
    {count : Nat}
    {cursor start : Cursor}
    (member : start ∈ statementStarts strictBlocks count cursor) :
    start.depth = 0 := by
  induction count generalizing cursor with
  | zero =>
      cases member
  | succ count inductionHypothesis =>
      rw [statementStarts] at member
      split at member
      · cases member
      · rcases List.mem_cons.mp member with rfl | later
        · rfl
        · exact inductionHypothesis later

end Programs

end Parse

/--
Accounts of the levels that are open while a program is read: at most one past the
limit, each entered to the depth that the trace tells, and a level past the limit
only if there are as many tokens as the limit has levels.
-/
def Watch.program (origin : Cursor) : Watch where
  holds cursor :=
    origin.LeadsTo cursor ∧ cursor.depth ≤ nestingLimit + 1
  tells cursor event :=
    match event with
    | .entered _ depth _ =>
        depth = cursor.depth
    | .recorded diagnostic =>
        (∃ limit, diagnostic.fault = .nestingTooDeep limit) →
          nestingLimit ≤ cursor.tokenCount
    | _ =>
        True

namespace Parse

open Cursor

/-- A level past the limit is entered only where that many tokens have been read. -/
theorem nestingLimit_le_tokenCount
    {start cursor : Cursor}
    (shallow : start.depth = 0)
    (accounts : start.Accounts cursor)
    (past : nestingLimit < cursor.depth) :
    nestingLimit ≤ cursor.tokenCount := by
  rw [tokenCount]
  rcases accounts.levels with levels | ⟨operator, levels⟩
  · omega
  · obtain ⟨inside, behind⟩ := ahead_ne_nil_of_operator operator
    have nonempty := List.length_pos_iff.mpr inside
    omega

section Programs

variable {strictBlocks : Bool} {origin : Cursor}

theorem program_of_accounts
    {α : Type}
    {step : Parse α}
    {start : Cursor}
    (leads : origin.LeadsTo start)
    (shallow : start.depth = 0)
    (throughout : Throughout (.accounts start) step start) :
    Throughout (.program origin) step start := by
  refine throughout.mono ?_ ?_
  · intro cursor accounts
    refine ⟨leads.trans accounts.leads, ?_⟩
    have ceiling := accounts.ceiling
    omega
  · intro cursor event accounts told
    cases event with
    | entered level depth passed =>
        exact told.1
    | recorded diagnostic =>
        intro isDeep
        exact nestingLimit_le_tokenCount shallow accounts (told isDeep)
    | _ =>
        trivial

/-- The loop over the statements of a program keeps the accounts. -/
theorem throughout_programStatements
    (count : Nat)
    {start : Cursor}
    (holds : (Watch.program origin).holds start) :
    Throughout (.program origin) (programStatements strictBlocks count) start := by
  induction count generalizing start with
  | zero =>
      exact .pure holds
  | succ count inductionHypothesis =>
      rw [programStatements_eq_round]
      have flat : (Watch.program origin).holds (start.atDepth 0) :=
        ⟨holds.1.atDepth 0, Nat.zero_le _⟩
      have looks : Throughout (.program origin) current start :=
        .bind (.cursor holds) fun _ _ => .pure holds
      refine .bind looks ?_
      rintro _ ⟨⟩
      split
      · exact .pure holds
      · refine .bind (.emit holds trivial) fun _ _ => ?_
        refine .bind (.setDepth holds flat) fun _ _ => ?_
        have reads :
            Throughout (.program origin) (withRoutines strictBlocks statement)
              (start.atDepth 0) :=
          program_of_accounts flat.1 rfl (accounts_statement strictBlocks _)
        refine .bind (.attempt reads) fun _ _ => ?_
        obtain ⟨leads, shallow⟩ := reads.ends
        have after :
            (Watch.program origin).holds
              (withRoutines strictBlocks statement
                (start.atDepth 0)).cursor.advance :=
          ⟨leads.advance, by rwa [depth_advance]⟩
        refine .bind (.advance reads.ends after) fun _ _ => ?_
        exact .map (inductionHypothesis after)

theorem throughout_program
    {start : Cursor}
    (shallow : start.depth ≤ nestingLimit + 1) :
    Throughout (.program start) (program strictBlocks) start := by
  have holds : (Watch.program start).holds start := ⟨.refl start, shallow⟩
  have counts : Throughout (.program start) rounds start :=
    .bind (.cursor holds) fun _ _ => .pure holds
  refine .finishing (.bind counts fun count _ => ?_) trivial
  exact throughout_programStatements count holds

/--
A level that is entered while a program is read is entered within a statement of the
program, at a token of the statement that stands behind as many others of it as
there are levels around.
-/
theorem entered_of_mem_program
    {start : Cursor}
    {level : Level}
    {depth passed : Nat}
    (member : .entered level depth passed ∈ (program strictBlocks start).events) :
    depth ≤ nestingLimit + 1 ∧
      ∃ first ∈ statementStarts strictBlocks start.stream.remaining start,
        .entered level depth passed ∈
            (withRoutines strictBlocks statement first).events ∧
          first.passed + depth ≤ passed + level.reach := by
  simp only [program_eq_finishing, finishing,
    (programStatements_eq_starts _ start).2] at member
  have inside := (List.mem_append.mp member).resolve_right (by simp)
  obtain ⟨first, isStart, early⟩ := List.mem_flatMap.mp inside
  have ofFirst := (List.mem_cons.mp early).resolve_left (by simp)
  obtain ⟨moment, accounts, depthEq, -, levels, -⟩ :=
    (accounts_statement strictBlocks first).exists_moment ofFirst
  have flat := depth_of_mem_statementStarts isStart
  have ceiling := accounts.ceiling
  rw [flat] at levels ceiling
  refine ⟨?_, first, isStart, ofFirst, ?_⟩
  · omega
  · omega

/-- It takes as many tokens as the limit has levels to nest too deep. -/
theorem nestingLimit_le_of_nestingTooDeep
    {tokens : List Token}
    {diagnostic : Diagnostic}
    {limit : Nat}
    (member : diagnostic ∈ (Parsed.ofTokens strictBlocks tokens).diagnostics)
    (isDeep : diagnostic.fault = .nestingTooDeep limit) :
    nestingLimit ≤ (TokenStream.beforeEnd tokens).length := by
  obtain ⟨event, inside, recorded⟩ := List.mem_filterMap.mp member
  have throughout :
      Throughout (.program (.ofStream (.ofTokens tokens))) (program strictBlocks)
        (.ofStream (.ofTokens tokens)) :=
    throughout_program (Nat.zero_le _)
  obtain ⟨moment, ⟨leads, -⟩, told⟩ := throughout.exists_moment inside
  cases event with
  | recorded other =>
      cases recorded
      have many := told ⟨limit, isDeep⟩
      rw [leads.tokenCount_eq, tokenCount, ofStream, Nat.zero_add] at many
      exact many
  | _ =>
      cases recorded

end Programs

/--
The depth of a parse is accounted for, at every moment.  Statements, expressions and
blocks, started anywhere, end with as many levels open as they found.  While a
program is read, at most one level more is open than the limit allows, and every
level in the trace is entered by a statement of the program that has as many tokens
up to the one it is entered at.  The statements of the program are read with no
level open at first, and while one of them is read, there are at most as many levels
open as it has tokens up to the one that the last level was entered at.  So it takes
as many tokens as the limit has levels to nest too deep.
-/
theorem depth_accounted (strictBlocks : Bool) :
    (∀ start : Cursor,
      (withRoutines strictBlocks statement start).cursor.depth = start.depth ∧
        (∀ bound,
          (expression strictBlocks bound start).cursor.depth = start.depth) ∧
        (block strictBlocks start).cursor.depth = start.depth) ∧
      ∀ tokens : List Token,
        let start := Cursor.ofStream (.ofTokens tokens)
        let starts := statementStarts strictBlocks start.stream.remaining start
        Throughout (.program start) (program strictBlocks) start ∧
          (∀ level depth passed,
            .entered level depth passed ∈ (program strictBlocks start).events →
              depth ≤ nestingLimit + 1 ∧
                ∃ first ∈ starts,
                  .entered level depth passed ∈
                      (withRoutines strictBlocks statement first).events ∧
                    first.passed + depth ≤ passed + level.reach) ∧
          (program strictBlocks start).result? =
            some ⟨starts.filterMap fun first =>
              (withRoutines strictBlocks statement first).result?⟩ ∧
          (∀ first ∈ starts,
            first.depth = 0 ∧
              Throughout (.accounts first)
                (withRoutines strictBlocks statement) first) ∧
          ((TokenStream.beforeEnd tokens).length < nestingLimit →
            ∀ diagnostic ∈ (Parsed.ofTokens strictBlocks tokens).diagnostics,
              ∀ limit, diagnostic.fault ≠ .nestingTooDeep limit) := by
  have kept {α : Type} {step : Parse α} (steady : Steady step) (start : Cursor) :
      (step start).cursor.depth = start.depth := by
    obtain ⟨moves, ends⟩ := steady start
    rw [ends, depth_advanceBy]
  refine ⟨fun start => ⟨?_, fun bound => ?_, ?_⟩, fun tokens => ?_⟩
  · exact kept (steady_statement strictBlocks) start
  · exact kept (steady_withRoutines Composed.expression fun _ => rfl) start
  · exact kept (steady_withRoutines Composed.block fun _ => rfl) start
  · intro start starts
    refine ⟨throughout_program (Nat.zero_le _), fun _ _ _ => entered_of_mem_program,
      ?_, ?_, ?_⟩
    · rw [program_eq_finishing, finishing, (programStatements_eq_starts _ start).1]
      rfl
    · intro first member
      exact ⟨depth_of_mem_statementStarts member,
        accounts_statement strictBlocks first⟩
    · intro few diagnostic member limit isDeep
      exact Nat.not_le_of_lt few (nestingLimit_le_of_nestingTooDeep member isDeep)

/-- One sign less than the limit has levels, and nothing to apply them to. -/
def signsAlone : List Token :=
  List.replicate 255 ⟨.dash, "-", Span.null⟩

theorem depth_accounted_signs :
    (TokenStream.beforeEnd signsAlone).length = 255 ∧
      (Parsed.ofTokens true signsAlone).diagnostics.length = 1 ∧
      ∀ diagnostic ∈ (Parsed.ofTokens true signsAlone).diagnostics,
        ∀ limit, diagnostic.fault ≠ .nestingTooDeep limit := by
  have few : (TokenStream.beforeEnd signsAlone).length = 255 := by
    decide +kernel
  refine ⟨few, by decide +kernel, ?_⟩
  obtain ⟨-, -, -, -, shallow⟩ := (depth_accounted true).2 signsAlone
  exact shallow (by rw [few]; decide)

end Parse

end Scriptlet
