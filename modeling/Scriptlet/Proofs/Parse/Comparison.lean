import Scriptlet.Proofs.Parse.Outcome

namespace Scriptlet

/-!
# Two runs of the parser, side by side

Two runs are compared that may differ in how they treat unclosed blocks, and of
which the second may read a stream that goes on where the first one ends.  The
second stream goes on behind a semicolon, and no step looks past a semicolon
before it has passed it.  So up to there the runs cannot tell their streams
apart: they end alike, or the first run has found a block left open.

The counts of tokens passed play no part in the comparison.
-/

attribute [ext] TokenStream

theorem Cursor.stream_advance (cursor : Cursor) :
    cursor.advance.stream = cursor.stream.advance := by
  ext1
  · exact cursor.ahead_advance
  · exact cursor.last_advance

/--
What is compared: how the two runs treat unclosed blocks, and the stream that is
left to the second run when the first one has reached its end, if any.  Runs
that differ need the first one to be strict, so that it notices an open block.
-/
structure Comparison where
  strictBlocks : Bool
  otherStrictBlocks : Bool
  rest? : Option TokenStream
  strict_of_differs :
    strictBlocks ≠ otherStrictBlocks ∨ rest?.isSome → strictBlocks = true

namespace Comparison

/-- The runs treat blocks differently or read different streams. -/
def Differs (comparison : Comparison) : Prop :=
  comparison.strictBlocks ≠ comparison.otherStrictBlocks ∨
    comparison.rest?.isSome

/--
The streams are the same, or the first one ends with a semicolon and the second
one goes on from there.
-/
def Overlap (comparison : Comparison) (left right : TokenStream) : Prop :=
  match comparison.rest? with
  | none =>
      right = left
  | some rest =>
      left.ahead ≠ [] ∧
        (∀ token ∈ left.ahead.getLast?, token.kind = .semicolon) ∧
        right.ahead = left.ahead ++ rest.ahead ∧
        right.last = rest.last

theorem Differs.strict
    {comparison : Comparison}
    (differs : comparison.Differs) :
    comparison.strictBlocks = true :=
  comparison.strict_of_differs differs

section Streams

variable {comparison : Comparison} {left right : TokenStream}

theorem Overlap.current
    (overlap : comparison.Overlap left right) :
    right.current = left.current := by
  unfold Overlap at overlap
  split at overlap
  · rw [overlap]
  · obtain ⟨nonempty, -, ahead, -⟩ := overlap
    obtain ⟨token, others, shape⟩ := List.exists_cons_of_ne_nil nonempty
    simp [TokenStream.current, ahead, shape]

/-- Only where nothing follows can both runs be at their end. -/
theorem Overlap.eq_of_ahead_eq_nil
    (overlap : comparison.Overlap left right)
    (ends : left.ahead = []) :
    comparison.rest? = none ∧ right = left := by
  unfold Overlap at overlap
  split at overlap
  · rename_i same
    exact ⟨same, overlap⟩
  · exact (overlap.1 ends).elim

theorem Overlap.ahead_ne_nil
    (overlap : comparison.Overlap left right)
    (inside : left.ahead ≠ []) :
    right.ahead ≠ [] := by
  intro ended
  apply inside
  rw [← TokenStream.current_kind_eq_endOfInput_iff] at ended ⊢
  rwa [overlap.current] at ended

/-- Moving on keeps the overlap, unless the first stream is used up. -/
theorem Overlap.advance_or
    (overlap : comparison.Overlap left right) :
    comparison.Overlap left.advance right.advance ∨
      left.current.kind = .semicolon ∧
        left.advance.ahead = [] ∧
        comparison.rest? = some right.advance := by
  unfold Overlap at overlap ⊢
  split at overlap
  · exact .inl (by rw [overlap])
  · rename_i rest further
    obtain ⟨nonempty, final, ahead, last⟩ := overlap
    obtain ⟨token, others, shape⟩ := List.exists_cons_of_ne_nil nonempty
    rw [shape] at final ahead
    cases others with
    | nil =>
        refine .inr ⟨?_, by simp [TokenStream.advance, shape], ?_⟩
        · simpa [TokenStream.current, shape] using final
        · rw [further, Option.some.injEq]
          ext1
          · simp [TokenStream.advance, ahead]
          · simp [TokenStream.advance, last]
    | cons second others =>
        rw [List.getLast?_cons_cons] at final
        refine .inl ⟨by simp [TokenStream.advance, shape], ?_, ?_, last⟩
        · simpa only [TokenStream.advance, shape, List.tail_cons] using final
        · simp [TokenStream.advance, shape, ahead]

theorem Overlap.advance
    (overlap : comparison.Overlap left right)
    (inside : left.current.kind ≠ .semicolon) :
    comparison.Overlap left.advance right.advance :=
  overlap.advance_or.resolve_right fun used => inside used.1

end Streams

section Cursors

/--
The cursors of two runs stand side by side, with at most so many tokens ahead of
the first one.
-/
structure Beside
    (comparison : Comparison)
    (most : Nat)
    (left right : Cursor) :
    Prop where
  overlap : comparison.Overlap left.stream right.stream
  depth : right.depth = left.depth
  length_le : left.stream.ahead.length ≤ most

/-- They stand side by side within a statement, which no semicolon has ended. -/
structure Inside
    (comparison : Comparison)
    (most : Nat)
    (left right : Cursor) :
    Prop
    extends Beside comparison most left right where
  kind_ne : left.stream.current.kind ≠ .semicolon

variable {comparison : Comparison} {most more : Nat} {left right : Cursor}

theorem Beside.current
    (beside : comparison.Beside most left right) :
    right.stream.current = left.stream.current :=
  beside.overlap.current

theorem Beside.atDepth
    (beside : comparison.Beside most left right)
    (depth : Nat) :
    comparison.Beside most (left.atDepth depth) (right.atDepth depth) :=
  ⟨beside.overlap, rfl, beside.length_le⟩

theorem Beside.mono
    (beside : comparison.Beside most left right)
    (le : most ≤ more) :
    comparison.Beside more left right :=
  ⟨beside.overlap, beside.depth, Nat.le_trans beside.length_le le⟩

/-- The first run has as many tokens ahead as it has. -/
theorem Beside.tight
    (beside : comparison.Beside most left right) :
    comparison.Beside left.stream.ahead.length left right :=
  ⟨beside.overlap, beside.depth, Nat.le_refl _⟩

/-- The second run has the tokens of the first one ahead, and maybe others. -/
theorem Beside.exists_length_eq
    (beside : comparison.Beside most left right) :
    ∃ others,
      right.stream.ahead.length = left.stream.ahead.length + others := by
  have overlap := beside.overlap
  unfold Overlap at overlap
  split at overlap
  · exact ⟨0, by rw [overlap, Nat.add_zero]⟩
  · exact ⟨_, by rw [overlap.2.2.1, List.length_append]⟩

/-- As long as they stand side by side, the runs reach their ends together. -/
theorem Beside.ends_alike
    (beside : comparison.Beside most left right)
    (ended : left.stream.ahead = []) :
    right.stream.ahead = [] := by
  rw [(beside.overlap.eq_of_ahead_eq_nil ended).2, ended]

/-- Past a semicolon the runs stay side by side or the first one is at its end. -/
theorem Beside.advance_or
    (beside : comparison.Beside (most + 1) left right) :
    comparison.Beside most left.advance right.advance ∨
      left.advance.stream.ahead = [] ∧
        comparison.rest? = some right.advance.stream := by
  have fewer : left.advance.stream.ahead.length ≤ most := by
    have bounded := beside.length_le
    rw [Cursor.ahead_advance, List.length_tail]
    omega
  rcases beside.overlap.advance_or with overlap | ⟨-, used, rest⟩
  · refine .inl ⟨?_, by simp [beside.depth], fewer⟩
    simpa only [Cursor.stream_advance] using overlap
  · exact .inr ⟨by simpa only [Cursor.stream_advance] using used,
      by simpa only [Cursor.stream_advance] using rest⟩

theorem Inside.atDepth
    (inside : comparison.Inside most left right)
    (depth : Nat) :
    comparison.Inside most (left.atDepth depth) (right.atDepth depth) :=
  ⟨inside.toBeside.atDepth depth, inside.kind_ne⟩

theorem Inside.mono
    (inside : comparison.Inside most left right)
    (le : most ≤ more) :
    comparison.Inside more left right :=
  ⟨inside.toBeside.mono le, inside.kind_ne⟩

theorem Inside.advance_succ
    (inside : comparison.Inside (most + 1) left right) :
    comparison.Beside most left.advance right.advance where
  overlap := by
    simpa only [Cursor.stream_advance] using
      inside.overlap.advance inside.kind_ne
  depth := by simp [inside.depth]
  length_le := by
    have bounded := inside.length_le
    rw [Cursor.ahead_advance, List.length_tail]
    omega

theorem Inside.advance
    (inside : comparison.Inside most left right) :
    comparison.Beside most left.advance right.advance :=
  (inside.mono (Nat.le_succ most)).advance_succ

/-- Moving on to anything but a semicolon stays within the statement. -/
theorem Inside.advance_succ_of_peek
    (inside : comparison.Inside (most + 1) left right)
    (isNot : left.stream.peek.kind ≠ .semicolon) :
    comparison.Inside most left.advance right.advance :=
  ⟨inside.advance_succ, left.peek_eq_current_advance ▸ isNot⟩

theorem Inside.advance_of_peek
    (inside : comparison.Inside most left right)
    (isNot : left.stream.peek.kind ≠ .semicolon) :
    comparison.Inside most left.advance right.advance :=
  ⟨inside.advance, left.peek_eq_current_advance ▸ isNot⟩

theorem Inside.peek
    (inside : comparison.Inside most left right) :
    right.stream.peek = left.stream.peek := by
  rw [Cursor.peek_eq_current_advance, Cursor.peek_eq_current_advance]
  exact inside.advance.current

end Cursors

end Comparison

namespace Parse

/-- The step has recorded that the input ends inside a block. -/
def Outcome.LeavesOpen (outcome : Outcome Cursor α) : Prop :=
  ∃ diagnostic ∈ Event.diagnostics outcome.events,
    diagnostic.fault = .expectedToken .closeCurly .endOfInput

/--
The outcomes of two runs agree.  Unless a difference between the runs is excused
by a block left open, both end without a result or both with the same one, and
with the same diagnostics; a result also meets a condition on where they stand.
-/
inductive Agree
    (comparison : Comparison)
    (most : Nat)
    (goal : Cursor → Cursor → Prop) :
    Outcome Cursor α → Outcome Cursor α → Prop where
  | excused
      {outcome other : Outcome Cursor α}
      (differs : comparison.Differs)
      (opened : outcome.LeavesOpen) :
      Agree comparison most goal outcome other
  | failed
      {left right : Cursor}
      {events others : List Event}
      (same : Event.diagnostics others = Event.diagnostics events)
      (beside : comparison.Beside most left right) :
      Agree comparison most goal ⟨none, left, events⟩ ⟨none, right, others⟩
  | gave
      {value : α}
      {left right : Cursor}
      {events others : List Event}
      (same : Event.diagnostics others = Event.diagnostics events)
      (holds : goal left right) :
      Agree comparison most goal
        ⟨some value, left, events⟩ ⟨some value, right, others⟩

section Agreeing

variable
  {comparison : Comparison}
  {most more : Nat}
  {left right : Cursor}
  {goal : Cursor → Cursor → Prop}

/-- Fewer tokens ahead are no more than any larger bound. -/
theorem Agree.mono_most
    {outcome other : Outcome Cursor α}
    (agrees :
      Agree comparison most (comparison.Inside most) outcome other)
    (le : most ≤ more) :
    Agree comparison more (comparison.Inside more) outcome other := by
  cases agrees with
  | excused differs opened =>
      exact .excused differs opened
  | failed same beside =>
      exact .failed same (beside.mono le)
  | gave same inside =>
      exact .gave same (inside.mono le)

theorem agree_pure
    {value : α}
    (holds : goal left right) :
    Agree comparison most goal
      ((pure value : Parse α) left) ((pure value : Parse α) right) :=
  .gave rfl holds

theorem agree_fail
    (beside : comparison.Beside most left right) :
    Agree comparison most goal ((fail : Parse α) left) ((fail : Parse α) right) :=
  .failed rfl beside

theorem agree_reject
    {fault : Fault}
    {position : Position}
    (beside : comparison.Beside most left right) :
    Agree comparison most goal
      ((reject fault position : Parse α) left)
      ((reject fault position : Parse α) right) :=
  .failed rfl beside

/-- A block left open by the first part of a sequence is left open by it all. -/
theorem Outcome.LeavesOpen.bind
    {step : Parse α}
    {next : α → Parse β}
    (opened : (step left).LeavesOpen) :
    ((step >>= next) left).LeavesOpen := by
  obtain ⟨diagnostic, member, fault⟩ := opened
  refine ⟨diagnostic, ?_, fault⟩
  rcases ran : step left with ⟨_ | value, after, events⟩
  · rw [bind_apply_of_none ran]
    rwa [ran] at member
  · rw [ran] at member
    rw [bind_apply_of_some ran, Event.diagnostics_append]
    exact List.mem_append_left _ member

/-- So is one left open by the second part. -/
theorem Outcome.LeavesOpen.bind_of_some
    {step : Parse α}
    {next : α → Parse β}
    {value : α}
    {after : Cursor}
    {events : List Event}
    (ends : step left = ⟨some value, after, events⟩)
    (opened : (next value after).LeavesOpen) :
    ((step >>= next) left).LeavesOpen := by
  obtain ⟨diagnostic, member, fault⟩ := opened
  refine ⟨diagnostic, ?_, fault⟩
  rw [bind_apply_of_some ends, Event.diagnostics_append]
  exact List.mem_append_right _ member

section Sequences

variable
  {step other : Parse α}
  {next otherNext : α → Parse β}

theorem agree_bind_of_some
    {value : α}
    {leftAfter rightAfter : Cursor}
    {events others : List Event}
    (ran : step left = ⟨some value, leftAfter, events⟩)
    (otherRan : other right = ⟨some value, rightAfter, others⟩)
    (same : Event.diagnostics others = Event.diagnostics events)
    (agrees :
      Agree comparison most goal
        (next value leftAfter) (otherNext value rightAfter)) :
    Agree comparison most goal
      ((step >>= next) left) ((other >>= otherNext) right) := by
  generalize ranNext : next value leftAfter = outcome at agrees
  generalize otherRanNext :
    otherNext value rightAfter = otherOutcome at agrees
  cases agrees with
  | excused differs opened =>
      rw [← ranNext] at opened
      exact .excused differs (opened.bind_of_some ran)
  | failed sameAfter beside =>
      rw [bind_apply_of_some ran, bind_apply_of_some otherRan, ranNext,
        otherRanNext]
      exact .failed (by simp [same, sameAfter]) beside
  | gave sameAfter holds =>
      rw [bind_apply_of_some ran, bind_apply_of_some otherRan, ranNext,
        otherRanNext]
      exact .gave (by simp [same, sameAfter]) holds

/-- Sequences agree when their parts do, one from where the other ends. -/
theorem agree_bind
    {middle : Cursor → Cursor → Prop}
    (first : Agree comparison most middle (step left) (other right))
    (second :
      ∀ value leftAfter rightAfter,
        middle leftAfter rightAfter →
          Agree comparison most goal
            (next value leftAfter) (otherNext value rightAfter)) :
    Agree comparison most goal
      ((step >>= next) left) ((other >>= otherNext) right) := by
  generalize ran : step left = outcome at first
  generalize otherRan : other right = otherOutcome at first
  cases first with
  | excused differs opened =>
      rw [← ran] at opened
      exact .excused differs opened.bind
  | failed same beside =>
      rw [bind_apply_of_none ran, bind_apply_of_none otherRan]
      exact .failed same beside
  | gave same holds =>
      exact agree_bind_of_some ran otherRan same (second _ _ _ holds)

end Sequences

theorem agree_map
    {change : α → β}
    {step other : Parse α}
    (agrees :
      Agree comparison most goal (step left) (other right)) :
    Agree comparison most goal
      ((change <$> step) left) ((change <$> other) right) := by
  have mapped (step : Parse α) : change <$> step = step >>= pure ∘ change :=
    mapResult_eq_andThen change step
  rw [mapped, mapped]
  exact agree_bind agrees fun _ _ _ holds => agree_pure holds

/-- A failure that is not passed on leaves the cursors side by side. -/
theorem agree_attempt
    {step other : Parse α}
    (agrees :
      Agree comparison most (comparison.Beside most)
        (step left) (other right)) :
    Agree comparison most (comparison.Beside most)
      (attempt step left) (attempt other right) := by
  unfold attempt
  generalize step left = outcome at agrees
  generalize other right = otherOutcome at agrees
  cases agrees with
  | excused differs opened =>
      exact .excused differs opened
  | failed same beside =>
      exact .gave same beside
  | gave same beside =>
      exact .gave same beside

theorem agree_nested
    {step other : Parse α}
    (depth : right.depth = left.depth)
    (agrees :
      Agree comparison most (comparison.Inside most)
        (step left) (other right)) :
    Agree comparison most (comparison.Inside most)
      (nested step left) (nested other right) := by
  simp only [nested, Cursor.place_depth, Cursor.place_atDepth, depth]
  generalize step left = outcome at agrees
  generalize other right = otherOutcome at agrees
  cases agrees with
  | excused differs opened =>
      exact .excused differs opened
  | failed same beside =>
      exact .failed same (beside.atDepth _)
  | gave same inside =>
      exact .gave same (inside.atDepth _)

theorem agree_closing
    {step other : Parse α}
    (agrees : Agree comparison most goal (step left) (other right)) :
    Agree comparison most goal (closing step left) (closing other right) := by
  have closed
      (events : List Event)
      (passed : Nat)
      (kept : Bool) :
      Event.diagnostics (events ++ [.closed passed kept]) =
        Event.diagnostics events := by
    simp [Event.diagnostics, Event.diagnostic?]
  unfold closing
  generalize step left = outcome at agrees
  generalize other right = otherOutcome at agrees
  cases agrees with
  | excused differs opened =>
      exact .excused differs (by simpa only [Outcome.LeavesOpen, closed] using opened)
  | failed same beside =>
      exact .failed (by simpa only [closed] using same) beside
  | gave same holds =>
      exact .gave (by simpa only [closed] using same) holds

theorem agree_emit_bind
    {event : Event}
    {next otherNext : Unit → Parse α}
    (agrees :
      Agree comparison most goal (next () left) (otherNext () right)) :
    Agree comparison most goal
      ((emit event >>= next) left) ((emit event >>= otherNext) right) :=
  agree_bind_of_some rfl rfl rfl agrees

/-- Both runs enter a level or both meet the limit, at the same token. -/
theorem agree_descend_bind
    {level : Level}
    {next otherNext : Unit → Parse α}
    (beside : comparison.Beside most left right)
    (agrees :
      Agree comparison most goal
        (next () (left.atDepth (left.depth + 1)))
        (otherNext () (right.atDepth (left.depth + 1)))) :
    Agree comparison most goal
      ((descend level >>= next) left) ((descend level >>= otherNext) right) := by
  by_cases within : left.depth < nestingLimit
  · have entered : descend level right = _ :=
      descend_of_lt (beside.depth ▸ within)
    rw [beside.depth] at entered
    exact agree_bind_of_some (descend_of_lt within) entered rfl agrees
  · have full := Nat.le_of_not_lt within
    rw [bind_apply_of_none (descend_of_le full),
      bind_apply_of_none (descend_of_le (beside.depth ▸ full)), beside.depth,
      beside.current]
    exact .failed rfl (beside.atDepth _)

/-- What is expected is no semicolon, so the runs stay within the statement. -/
theorem agree_expect
    {kind : TokenKind}
    (inside : comparison.Inside most left right)
    (isNot : kind ≠ .semicolon) :
    Agree comparison most (comparison.Inside most)
      (expect kind left) (expect kind right) := by
  unfold expect
  simp only [cursor_bind_apply, Cursor.place_peek, ite_apply, inside.peek]
  split
  · rename_i expected
    have moved := inside.advance_of_peek (expected.symm ▸ isNot)
    simp only [advance_bind_apply, current_apply]
    rw [moved.current]
    exact .gave rfl moved
  · exact agree_reject inside.toBeside

theorem agree_skipSemicolon
    (inside : comparison.Inside most left right) :
    Agree comparison most (comparison.Beside most)
      (skipSemicolon left) (skipSemicolon right) := by
  unfold skipSemicolon
  simp only [peekKind_bind_apply, ite_apply, inside.peek]
  split
  · simp only [advance_bind_apply]
    exact agree_pure inside.advance
  · exact agree_pure inside.toBeside

end Agreeing

end Parse

end Scriptlet
