import Scriptlet.Proofs.Parse.Companions
import Scriptlet.Proofs.Parse.Levels

namespace Scriptlet

/-!
# Recovery from errors is local

A statement that cannot be read is dropped, and reading goes on behind it.  How
it goes on is settled at the next semicolon: whatever was wrong before it, what
comes after it is read as if nothing had come before.  The one exception is a
block left open, which a semicolon does not close.

So a token list that ends with a semicolon and leaves no block open can be read
on its own.  Reading it together with what follows gives its statements and its
diagnostics first, and then those of what follows.
-/

/-- What comes of reading statements: those kept, and what was recorded. -/
structure Harvest where
  statements : List Statement
  diagnostics : List Diagnostic

namespace Harvest

/-- One harvest and then another. -/
def andThen (first second : Harvest) : Harvest :=
  ⟨first.statements ++ second.statements,
    first.diagnostics ++ second.diagnostics⟩

theorem andThen_nil (harvest : Harvest) : harvest.andThen ⟨[], []⟩ = harvest := by
  simp [andThen]

/-- No block was found open at the end of input. -/
def LeavesNoneOpen (harvest : Harvest) : Prop :=
  ∀ diagnostic ∈ harvest.diagnostics,
    diagnostic.fault ≠ .expectedToken .closeCurly .endOfInput

theorem leavesNoneOpen_andThen
    {first second : Harvest} :
    (first.andThen second).LeavesNoneOpen ↔
      first.LeavesNoneOpen ∧ second.LeavesNoneOpen := by
  simp [LeavesNoneOpen, andThen, or_imp, forall_and]

theorem andThen_assoc (first second third : Harvest) :
    (first.andThen second).andThen third =
      first.andThen (second.andThen third) := by
  simp [andThen]

end Harvest

namespace Comparison

variable {comparison : Comparison} {left right : TokenStream}

/-- Where the second run stands when the first one has reached its end. -/
def Beyond (comparison : Comparison) (stream : TokenStream) : Prop :=
  match comparison.rest? with
  | none =>
      stream.ahead = []
  | some rest =>
      stream = rest

theorem Overlap.beyond
    (overlap : comparison.Overlap left right)
    (ended : left.ahead = []) :
    comparison.Beyond right := by
  obtain ⟨same, eq⟩ := overlap.eq_of_ahead_eq_nil ended
  simp [Beyond, same, eq, ended]

end Comparison

namespace Parse

/-- What comes of reading one statement. -/
def Outcome.single (outcome : Outcome Cursor Statement) : Harvest :=
  ⟨outcome.result?.toList, Event.diagnostics outcome.events⟩

/-- What comes of reading the statements of a program. -/
def Outcome.harvest (outcome : Outcome Cursor (List Statement)) : Harvest :=
  ⟨outcome.result?.getD [], Event.diagnostics outcome.events⟩

section Rounds

variable {strictBlocks : Bool} {count : Nat} {start : Cursor}

/-- One round of reading a program: a statement, and all that follows it. -/
theorem programStatements_succ
    {stated : Outcome Cursor Statement}
    {rest : Outcome Cursor (List Statement)}
    (inside : start.stream.ahead ≠ [])
    (ran :
      statement (routinesWithin strictBlocks nestingLimit) (start.atDepth 0) =
        stated)
    (ranOn : programStatements strictBlocks count stated.cursor.advance = rest) :
    programStatements strictBlocks (count + 1) start =
      ⟨rest.result?.map (stated.result?.toList ++ ·), rest.cursor,
        .started start.stream.current :: (stated.events ++ rest.events)⟩ := by
  have goesOn : start.stream.current.kind ≠ .endOfInput :=
    mt start.stream.current_kind_eq_endOfInput_iff.mp inside
  have attempted :
      attempt (withRoutines strictBlocks statement) (start.atDepth 0) =
        ⟨some stated.result?, stated.cursor, stated.events⟩ := by
    rw [← ran]
    rfl
  simp only [programStatements, current_bind_apply, goesOn, ↓reduceIte]
  rw [bind_apply_of_some rfl, setDepth_bind_apply, bind_apply_of_some attempted,
    advance_bind_apply, andSoOn_eq]
  simp only [Functor.map, mapResult, ranOn]
  rfl

theorem harvest_programStatements_succ
    {stated : Outcome Cursor Statement}
    (inside : start.stream.ahead ≠ [])
    (ran :
      statement (routinesWithin strictBlocks nestingLimit) (start.atDepth 0) =
        stated) :
    (programStatements strictBlocks (count + 1) start).harvest =
      stated.single.andThen
        (programStatements strictBlocks count stated.cursor.advance).harvest := by
  obtain ⟨others, ends⟩ :=
    programStatements_ends strictBlocks count stated.cursor.advance
  rw [programStatements_succ inside ran rfl]
  simp [Outcome.harvest, Outcome.single, Harvest.andThen, ends,
    Event.diagnostics, Event.diagnostic?, List.filterMap_cons]

/-- One round of reading statements: a statement, and all that follows it. -/
theorem statements_succ
    {routines : Routines Cursor}
    {stated : Outcome Cursor Statement}
    {rest : Outcome Cursor (List Statement)}
    (goesOn :
      ¬ (start.stream.current.kind = .closeCurly ∨
        start.stream.current.kind = .endOfInput))
    (ran : statement routines start = stated)
    (ranOn : statements routines count stated.cursor.advance = rest) :
    statements routines (count + 1) start =
      ⟨rest.result?.map (stated.result?.toList ++ ·), rest.cursor,
        stated.events ++ rest.events⟩ := by
  have attempted :
      attempt (statement routines) start =
        ⟨some stated.result?, stated.cursor, stated.events⟩ := by
    rw [← ran]
    rfl
  simp only [statements, currentKind_bind_apply, goesOn, ↓reduceIte]
  rw [bind_apply_of_some attempted, advance_bind_apply, andSoOn_eq]
  simp only [Functor.map, mapResult, ranOn]

end Rounds

section Starts

variable (strictBlocks : Bool)

/-- Where the statements of a program start, at most `count` of them. -/
def statementStarts : Nat → Cursor → List Cursor
  | 0, _ =>
      []
  | count + 1, cursor =>
      if cursor.stream.current.kind = .endOfInput then
        []
      else
        cursor.atDepth 0 ::
          statementStarts count
            (withRoutines strictBlocks statement (cursor.atDepth 0)).cursor.advance

variable {strictBlocks}

/-- A program is made of what is read where its statements start. -/
theorem programStatements_eq_starts (count : Nat) (cursor : Cursor) :
    (programStatements strictBlocks count cursor).result? =
        some ((statementStarts strictBlocks count cursor).filterMap fun start =>
          (withRoutines strictBlocks statement start).result?) ∧
      (programStatements strictBlocks count cursor).events =
        (statementStarts strictBlocks count cursor).flatMap fun start =>
          .started start.stream.current ::
            (withRoutines strictBlocks statement start).events := by
  induction count generalizing cursor with
  | zero =>
      exact ⟨rfl, rfl⟩
  | succ count inductionHypothesis =>
      rw [statementStarts]
      split
      · rename_i final
        rw [programStatements_of_ended
          (cursor.stream.current_kind_eq_endOfInput_iff.mp final)]
        exact ⟨rfl, rfl⟩
      · rename_i goesOn
        have inside : cursor.stream.ahead ≠ [] :=
          mt cursor.stream.current_kind_eq_endOfInput_iff.mpr goesOn
        have read :
            statement (routinesWithin strictBlocks nestingLimit)
                (cursor.atDepth 0) =
              withRoutines strictBlocks statement (cursor.atDepth 0) :=
          rfl
        obtain ⟨results, events⟩ :=
          inductionHypothesis
            (withRoutines strictBlocks statement (cursor.atDepth 0)).cursor.advance
        rw [programStatements_succ inside read rfl, results, events,
          List.filterMap_cons, List.flatMap_cons]
        refine ⟨?_, rfl⟩
        cases (withRoutines strictBlocks statement (cursor.atDepth 0)).result? with
        | none =>
            rfl
        | some tree =>
            rfl

end Starts

section Runs

variable {comparison : Comparison} {left right : Cursor}

/-- Two statements that agree come to the same, and end side by side. -/
theorem Agree.single_eq
    {most : Nat}
    {outcome other : Outcome Cursor Statement}
    (agrees :
      Agree comparison most (comparison.Beside most) outcome other) :
    comparison.Differs ∧ outcome.LeavesOpen ∨
      other.single = outcome.single ∧
        comparison.Beside most outcome.cursor other.cursor := by
  cases agrees with
  | excused differs opened =>
      exact .inl ⟨differs, opened⟩
  | failed same beside =>
      exact .inr ⟨by simp [Outcome.single, same], beside⟩
  | gave same beside =>
      exact .inr ⟨by simp [Outcome.single, same], beside⟩

/--
The second run comes to what the first one comes to, and then to what it reads
alone, from the end of what they have in common.
-/
def Continued
    (comparison : Comparison)
    (further : Nat)
    (harvest other : Harvest) :
    Prop :=
  ∃ rounds final,
    further ≤ rounds ∧
      comparison.Beyond final.stream ∧
      other =
        harvest.andThen
          (programStatements comparison.otherStrictBlocks rounds final).harvest

theorem continued_of_ended
    {count further : Nat}
    (ended : left.stream.ahead = [])
    (beyond : comparison.Beyond right.stream) :
    Continued comparison further
      (programStatements comparison.strictBlocks count left).harvest
      (programStatements comparison.otherStrictBlocks (count + further)
        right).harvest := by
  rw [programStatements_of_ended ended]
  exact ⟨count + further, right, Nat.le_add_left _ _, beyond, rfl⟩

theorem Continued.prepend
    {further : Nat}
    {harvest other : Harvest}
    (first : Harvest)
    (continued : Continued comparison further harvest other) :
    Continued comparison further (first.andThen harvest) (first.andThen other) := by
  obtain ⟨rounds, final, le, beyond, eq⟩ := continued
  exact ⟨rounds, final, le, beyond, by rw [eq, Harvest.andThen_assoc]⟩

/-- Unless a difference is excused by an open block, the second run goes on. -/
theorem continued_side_by_side
    (comparison : Comparison)
    {count : Nat}
    (further : Nat)
    (overlap : comparison.Overlap left.stream right.stream)
    (length_le : left.stream.ahead.length ≤ count)
    (closed :
      comparison.Differs →
        (programStatements comparison.strictBlocks count
          left).harvest.LeavesNoneOpen) :
    Continued comparison further
      (programStatements comparison.strictBlocks count left).harvest
      (programStatements comparison.otherStrictBlocks (count + further)
        right).harvest := by
  induction count generalizing left right with
  | zero =>
      have ended := List.length_eq_zero_iff.mp (Nat.le_zero.mp length_le)
      exact continued_of_ended ended (overlap.beyond ended)
  | succ count inductionHypothesis =>
      by_cases ended : left.stream.ahead = []
      · exact continued_of_ended ended (overlap.beyond ended)
      · have starts :
            comparison.Beside (count + 1) (left.atDepth 0) (right.atDepth 0) :=
          ⟨overlap, rfl, length_le⟩
        have agrees :=
          agree_statement (agree_within comparison nestingLimit).1 starts
        rw [harvest_programStatements_succ ended rfl] at closed ⊢
        rw [Nat.succ_add,
          harvest_programStatements_succ (overlap.ahead_ne_nil ended) rfl]
        rcases agrees.single_eq with ⟨differs, opened⟩ | ⟨same, beside⟩
        · obtain ⟨diagnostic, member, fault⟩ := opened
          have firstClosed := (Harvest.leavesNoneOpen_andThen.mp (closed differs)).1
          exact (firstClosed diagnostic member fault).elim
        · rw [same]
          apply Continued.prepend
          rcases beside.advance_or with onward | ⟨used, rest⟩
          · exact inductionHypothesis onward.overlap onward.length_le
              fun differs =>
                (Harvest.leavesNoneOpen_andThen.mp (closed differs)).2
          · exact continued_of_ended used (by simp [Comparison.Beyond, rest])

/-- Runs that read the same stream and do not differ come to the same. -/
theorem harvest_same_stream
    (comparison : Comparison)
    {count rounds : Nat}
    (same : comparison.rest? = none)
    (streams : right.stream = left.stream)
    (length_le : left.stream.ahead.length ≤ count)
    (le : count ≤ rounds)
    (closed :
      comparison.Differs →
        (programStatements comparison.strictBlocks count
          left).harvest.LeavesNoneOpen) :
    (programStatements comparison.otherStrictBlocks rounds right).harvest =
      (programStatements comparison.strictBlocks count left).harvest := by
  have overlap : comparison.Overlap left.stream right.stream := by
    simp [Comparison.Overlap, same, streams]
  obtain ⟨more, final, -, beyond, eq⟩ :=
    continued_side_by_side comparison (rounds - count) overlap length_le closed
  have ended : final.stream.ahead = [] := by
    simpa [Comparison.Beyond, same] using beyond
  rw [Nat.add_sub_cancel' le, programStatements_of_ended ended] at eq
  rw [eq]
  exact Harvest.andThen_nil _

end Runs

end Parse

namespace TokenStream

variable {front : List Token}

theorem beforeEnd_append
    (noEnd : ∀ token ∈ front, token.kind ≠ .endOfInput)
    (back : List Token) :
    beforeEnd (front ++ back) = front ++ beforeEnd back := by
  unfold beforeEnd
  exact List.takeWhile_append_of_pos (by simpa using noEnd)

theorem beforeEnd_eq
    (noEnd : ∀ token ∈ front, token.kind ≠ .endOfInput) :
    beforeEnd front = front := by
  simpa [beforeEnd] using beforeEnd_append noEnd []

theorem endOf_append
    (noEnd : ∀ token ∈ front, token.kind ≠ .endOfInput)
    (back : List Token) :
    endOf (front ++ back) = endOf back := by
  have none : firstEnd? front = none := by
    simpa [firstEnd?] using noEnd
  simp only [firstEnd?] at none
  simp [endOf, firstEnd?, List.find?_append, none]

end TokenStream

namespace Parsed

/-- What comes of reading a program. -/
def harvest (parsed : Parsed) : Harvest :=
  ⟨parsed.program.statements, parsed.diagnostics⟩

theorem harvest_ofTokens (strictBlocks : Bool) (tokens : List Token) :
    (ofTokens strictBlocks tokens).harvest =
      (Parse.programStatements strictBlocks
        (TokenStream.beforeEnd tokens).length
        (Cursor.ofStream (TokenStream.ofTokens tokens))).harvest := by
  obtain ⟨after, ends, -⟩ := gives_statements strictBlocks tokens
  simp [harvest, Parse.Outcome.harvest, diagnostics_ofTokens, ends]

/-- How blocks are treated makes no difference where none is left open. -/
theorem harvest_ofTokens_of_closed
    {tokens : List Token}
    (strictBlocks : Bool)
    (closed : (ofTokens true tokens).harvest.LeavesNoneOpen) :
    (ofTokens strictBlocks tokens).harvest = (ofTokens true tokens).harvest := by
  rw [harvest_ofTokens] at closed
  rw [harvest_ofTokens, harvest_ofTokens]
  exact Parse.harvest_same_stream ⟨true, strictBlocks, none, fun _ => rfl⟩
    rfl rfl (Nat.le_refl _) (Nat.le_refl _) fun _ => closed

/-- Reading on from a place inside a stream is reading what is ahead of it. -/
theorem harvest_programStatements
    {tokens : List Token}
    {strictBlocks : Bool}
    {rounds : Nat}
    {start : Cursor}
    (stream : start.stream = TokenStream.ofTokens tokens)
    (le : (TokenStream.beforeEnd tokens).length ≤ rounds) :
    (Parse.programStatements strictBlocks rounds start).harvest =
      (ofTokens strictBlocks tokens).harvest := by
  rw [harvest_ofTokens]
  refine Parse.harvest_same_stream
    ⟨strictBlocks, strictBlocks, none, by simp⟩ rfl stream (Nat.le_refl _) le ?_
  simp [Comparison.Differs]

section Parts

variable
  {front : List Token}
  (noEnd : ∀ token ∈ front, token.kind ≠ .endOfInput)
  (final : ∀ token ∈ front.getLast?, token.kind = .semicolon)

include noEnd final

/-- What ends with a semicolon can be read beside what goes on from there. -/
theorem overlap_ofTokens_append
    (strictBlocks : Bool)
    (back : List Token)
    (nonempty : front ≠ []) :
    Comparison.Overlap
      ⟨true, strictBlocks, some (TokenStream.ofTokens back), fun _ => rfl⟩
      (Cursor.ofStream (TokenStream.ofTokens front)).stream
      (Cursor.ofStream (TokenStream.ofTokens (front ++ back))).stream := by
  refine ⟨?_, ?_, ?_, TokenStream.endOf_append noEnd back⟩
  · simpa only [Cursor.ofStream, TokenStream.ofTokens,
      TokenStream.beforeEnd_eq noEnd] using nonempty
  · simpa only [Cursor.ofStream, TokenStream.ofTokens,
      TokenStream.beforeEnd_eq noEnd] using final
  · simp only [Cursor.ofStream, TokenStream.ofTokens,
      TokenStream.beforeEnd_eq noEnd, TokenStream.beforeEnd_append noEnd]

theorem harvest_ofTokens_append
    (strictBlocks : Bool)
    (back : List Token)
    (closed : (ofTokens true front).harvest.LeavesNoneOpen) :
    (ofTokens strictBlocks (front ++ back)).harvest =
      (ofTokens strictBlocks front).harvest.andThen
        (ofTokens strictBlocks back).harvest := by
  by_cases nonempty : front = []
  · subst nonempty
    rfl
  · rw [harvest_ofTokens_of_closed strictBlocks closed]
    rw [harvest_ofTokens] at closed
    obtain ⟨rounds, after, le, beyond, continued⟩ :=
      Parse.continued_side_by_side _ (TokenStream.beforeEnd back).length
        (overlap_ofTokens_append noEnd final strictBlocks back nonempty)
        (Nat.le_refl _) fun _ => closed
    rw [harvest_ofTokens, TokenStream.beforeEnd_append noEnd,
      List.length_append, ← harvest_programStatements beyond le,
      harvest_ofTokens, TokenStream.beforeEnd_eq noEnd]
    simpa only [Cursor.ofStream, TokenStream.ofTokens,
      TokenStream.beforeEnd_eq noEnd] using continued

end Parts

/--
A token list that ends with a semicolon and leaves no block open is read on its
own: whatever errors it has, what follows is read as if it came first.
-/
theorem recovery_is_local
    (strictBlocks : Bool)
    (front back : List Token)
    (noEnd : ∀ token ∈ front, token.kind ≠ .endOfInput)
    (final : ∀ token ∈ front.getLast?, token.kind = .semicolon)
    (closed :
      ∀ diagnostic ∈ (ofTokens true front).diagnostics,
        diagnostic.fault ≠ .expectedToken .closeCurly .endOfInput) :
    (ofTokens strictBlocks (front ++ back)).program.statements =
        (ofTokens strictBlocks front).program.statements ++
          (ofTokens strictBlocks back).program.statements ∧
      (ofTokens strictBlocks (front ++ back)).diagnostics =
        (ofTokens strictBlocks front).diagnostics ++
          (ofTokens strictBlocks back).diagnostics := by
  have appended :=
    harvest_ofTokens_append noEnd final strictBlocks back closed
  exact ⟨congrArg Harvest.statements appended,
    congrArg Harvest.diagnostics appended⟩

/-- Tokens with an error inside a block, and one just before a semicolon. -/
def damagedTokens : List Token :=
  TokenStream.beforeEnd
    (tokenize "if (a) \x7b let b 2; c \x7d; f( ;" "front")

/-- Two errors change nothing for what follows, itself with errors. -/
theorem recovery_is_local_after_errors :
    (∀ token ∈ damagedTokens, token.kind ≠ .endOfInput) ∧
      (∀ token ∈ damagedTokens.getLast?, token.kind = .semicolon) ∧
      (∀ diagnostic ∈ (ofTokens true damagedTokens).diagnostics,
        diagnostic.fault ≠ .expectedToken .closeCurly .endOfInput) ∧
      (ofTokens false damagedTokens).diagnostics.length = 2 ∧
      (ofTokens false
        (damagedTokens ++
          tokenize ") + 1; if (d) \x7b e" "back")).program.statements =
        (ofTokens false damagedTokens).program.statements ++
          (ofTokens false
            (tokenize ") + 1; if (d) \x7b e" "back")).program.statements ∧
      (ofTokens false
        (damagedTokens ++ tokenize ") + 1; if (d) \x7b e" "back")).diagnostics =
        (ofTokens false damagedTokens).diagnostics ++
          (ofTokens false (tokenize ") + 1; if (d) \x7b e" "back")).diagnostics := by
  have noEnd : ∀ token ∈ damagedTokens, token.kind ≠ .endOfInput := by
    decide +kernel
  have final : ∀ token ∈ damagedTokens.getLast?, token.kind = .semicolon := by
    decide +kernel
  have closed :
      ∀ diagnostic ∈ (ofTokens true damagedTokens).diagnostics,
        diagnostic.fault ≠ .expectedToken .closeCurly .endOfInput := by
    decide +kernel
  exact ⟨noEnd, final, closed, by decide +kernel,
    recovery_is_local false _ _ noEnd final closed⟩

end Parsed

end Scriptlet
