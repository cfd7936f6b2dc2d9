import Scriptlet.Proofs.Grammar.Soundness
import Scriptlet.Proofs.Parse.Companions
import Scriptlet.Proofs.Parse.Displaced

namespace Scriptlet

/-!
# Supplying the brackets of unclosed blocks

Where blocks are not strict, the end of input closes those that are still open.
Such a run is compared with strict runs on the same tokens with closing brackets
behind them, any number of brackets.  If the first run gives a value without
recording anything, either no block was left open, and then no strict run looks
at the brackets; or some number of blocks was, all of them inside each other and
none with anything behind it.  A strict run then closes as many of them as there
are brackets, from the inside to the outside, and records that each of the
others lacks its bracket.

In the second case nothing but the end of input is ahead of the first run, and
what follows until the enclosing block ends is idle: it neither moves nor records
anything, in front of the end of input and in front of a bracket alike.
-/

/-- Closing brackets, to be put behind a token list. -/
structure Brackets where
  tokens : List Token
  kind : ∀ token ∈ tokens, token.kind = .closeCurly

namespace Brackets

/-- The number of brackets. -/
def size (brackets : Brackets) : Nat :=
  brackets.tokens.length

/-- No bracket at all. -/
def none : Brackets :=
  ⟨[], nofun⟩

/-- The brackets behind the first so many. -/
def drop (brackets : Brackets) (count : Nat) : Brackets :=
  ⟨brackets.tokens.drop count,
    fun token member => brackets.kind token (List.mem_of_mem_drop member)⟩

theorem size_drop (brackets : Brackets) (count : Nat) :
    (brackets.drop count).size = brackets.size - count :=
  List.length_drop

/-- The first of some brackets is a bracket. -/
theorem kind_headD
    (brackets : Brackets)
    {token : Token}
    (nonempty : 0 < brackets.size) :
    (brackets.tokens.headD token).kind = .closeCurly := by
  obtain ⟨first, rest, shape⟩ :=
    List.exists_cons_of_length_pos nonempty
  rw [shape]
  exact brackets.kind first (by simp [shape])

end Brackets

/-- A token that comes next and can be seen is not the end of input. -/
theorem Cursor.next_ne_nil
    {cursor : Cursor}
    {kind : TokenKind}
    (next : cursor.stream.peek.kind = kind)
    (visible : kind ≠ .endOfInput) :
    cursor.advance.stream.ahead ≠ [] := by
  intro ended
  rw [cursor.peek_eq_current_advance,
    cursor.advance.stream.current_kind_eq_endOfInput_iff.mpr ended] at next
  exact visible next.symm

theorem Cursor.ahead_ne_nil_of_next
    {cursor : Cursor}
    (next : cursor.advance.stream.ahead ≠ []) :
    cursor.stream.ahead ≠ [] := by
  intro ended
  rw [Cursor.ahead_advance, ended] at next
  exact next rfl

/-- The second cursor stands where the first one does, with brackets behind. -/
structure Cursor.Extended
    (brackets : Brackets)
    (left right : Cursor) :
    Prop where
  ahead : right.stream.ahead = left.stream.ahead ++ brackets.tokens
  last : right.stream.last = left.stream.last
  depth : right.depth = left.depth

namespace Cursor.Extended

variable {brackets : Brackets} {left right : Cursor}

theorem atDepth
    (extended : left.Extended brackets right)
    (depth : Nat) :
    (left.atDepth depth).Extended brackets (right.atDepth depth) :=
  ⟨extended.ahead, extended.last, rfl⟩

theorem current
    (extended : left.Extended brackets right)
    (inside : left.stream.ahead ≠ []) :
    right.stream.current = left.stream.current := by
  obtain ⟨token, rest, shape⟩ := List.exists_cons_of_ne_nil inside
  simp [TokenStream.current, extended.ahead, shape]

theorem advance
    (extended : left.Extended brackets right)
    (inside : left.stream.ahead ≠ []) :
    left.advance.Extended brackets right.advance where
  ahead := by
    obtain ⟨token, rest, shape⟩ := List.exists_cons_of_ne_nil inside
    simp [extended.ahead, shape]
  last := by
    simpa using extended.last
  depth := by
    simpa using extended.depth

/-- Behind the last token of the first run stands a bracket or nothing. -/
theorem current_of_ended
    (extended : left.Extended brackets right)
    (ended : left.stream.ahead = []) :
    right.stream.current = brackets.tokens.headD left.stream.last := by
  rw [TokenStream.current, extended.ahead, extended.last, ended, List.nil_append]

/-- A token that comes next in the first run comes next in the second. -/
theorem peek
    (extended : left.Extended brackets right)
    (next : left.advance.stream.ahead ≠ []) :
    right.stream.peek = left.stream.peek := by
  rw [right.peek_eq_current_advance, left.peek_eq_current_advance]
  exact (extended.advance (Cursor.ahead_ne_nil_of_next next)).current next

/-- Where the first run has the end of input next, the second may have a bracket. -/
theorem peek_kind
    (extended : left.Extended brackets right) :
    right.stream.peek.kind = left.stream.peek.kind ∨
      left.stream.peek.kind = .endOfInput ∧
        right.stream.peek.kind = .closeCurly := by
  by_cases next : left.advance.stream.ahead = []
  · have leftEnds : left.stream.peek.kind = .endOfInput := by
      rw [left.peek_eq_current_advance]
      exact left.advance.stream.current_kind_eq_endOfInput_iff.mpr next
    by_cases rightNext : right.advance.stream.ahead = []
    · have rightEnds : right.stream.peek.kind = .endOfInput := by
        rw [right.peek_eq_current_advance]
        exact right.advance.stream.current_kind_eq_endOfInput_iff.mpr rightNext
      exact .inl (rightEnds.trans leftEnds.symm)
    · obtain ⟨token, rest, shape⟩ := List.exists_cons_of_ne_nil rightNext
      have supplied : token ∈ brackets.tokens := by
        rw [Cursor.ahead_advance] at next shape
        have among : token ∈ right.stream.ahead.tail := by
          rw [shape]
          exact List.mem_cons_self
        rw [extended.ahead] at among
        cases leftShape : left.stream.ahead with
        | nil =>
            rw [leftShape, List.nil_append] at among
            exact List.mem_of_mem_tail among
        | cons first others =>
            rw [leftShape, List.tail_cons] at next
            rw [leftShape, next] at among
            exact among
      rw [right.peek_eq_current_advance, Cursor.current_of_ahead shape]
      exact .inr ⟨leftEnds, brackets.kind token supplied⟩
  · exact .inl (congrArg Token.kind (extended.peek next))

/-- Kinds other than that of a bracket come next in both runs or in neither. -/
theorem peek_kind_eq_iff
    (extended : left.Extended brackets right)
    (kind : TokenKind)
    (visible : kind ≠ .endOfInput)
    (other : kind ≠ .closeCurly) :
    right.stream.peek.kind = kind ↔ left.stream.peek.kind = kind := by
  rcases extended.peek_kind with same | ⟨ends, bracket⟩
  · rw [same]
  · rw [ends, bracket]
    exact ⟨fun eq => (other eq.symm).elim, fun eq => (visible eq.symm).elim⟩

end Cursor.Extended

namespace Parse

/-- The fault that is recorded of a block without its bracket. -/
def lackingBracket : Fault :=
  .expectedToken .closeCurly .endOfInput

/--
How a strict run ends where so many blocks were left open around the innermost
one: with the value where the brackets suffice, else without a result, having
recorded each block that lacks its bracket.
-/
structure Outcome.Closes
    (outcome : Outcome Cursor α)
    (around : Nat)
    (brackets : Brackets)
    (value : α)
    (after : Cursor) :
    Prop where
  enough :
    around < brackets.size →
      ∃ final,
        outcome.Gives True value final ∧
          after.Extended (brackets.drop around) final
  short :
    brackets.size ≤ around →
      outcome.result? = none ∧
        outcome.cursor.stream.ahead = [] ∧
        Event.faults outcome.events =
          List.replicate (around + 1 - brackets.size) lackingBracket

/--
What strict runs do from a place, with brackets behind, where a run that is not
strict has given a value.
-/
inductive Seals
    (strict : Parse α)
    (left : Cursor)
    (value : α)
    (after : Cursor) :
    Prop where
  | whole
      (inside : after.stream.ahead ≠ [])
      (same :
        ∀ brackets right, left.Extended brackets right →
          ∃ final,
            (strict right).Gives True value final ∧
              after.Extended brackets final) :
      Seals strict left value after
  | opened
      (around : Nat)
      (ended : after.stream.ahead = [])
      (closes :
        ∀ brackets right, left.Extended brackets right →
          (strict right).Closes around brackets value after) :
      Seals strict left value after

/-- Whatever the first step gives quietly, strict runs give with brackets. -/
def Sealed
    (levels : Nat)
    (permissive strict : Parse α)
    (left : Cursor) :
    Prop :=
  nestingLimit ≤ levels + left.depth →
    ∀ value after,
      (permissive left).Gives True value after → Seals strict left value after

/--
At the end of input, what the first step gives quietly it gives without moving,
and so does the second one in front of brackets.
-/
def Idle (permissive strict : Parse α) : Prop :=
  ∀ ended value after,
    ended.stream.ahead = [] →
      (permissive ended).Gives True value after →
        after = ended ∧
          ∀ brackets right, ended.Extended brackets right →
            (strict right).Gives True value right

section Idling

variable {permissive strict : Parse α}

theorem idle_pure
    (value : α) :
    Idle (pure value) (pure value) := by
  intro ended result after _ given
  obtain ⟨rfl, rfl⟩ := gives_mk.mp given
  exact ⟨rfl, fun _ _ _ => gives_mk.mpr ⟨rfl, rfl⟩⟩

/-- At the end of input the step gives nothing quietly. -/
def Barred (step : Parse α) : Prop :=
  ∀ ended value after, ended.stream.ahead = [] →
    ¬ (step ended).Gives True value after

theorem Barred.idle
    (barred : Barred permissive) :
    Idle permissive strict :=
  fun ended value after isEnd given =>
    (barred ended value after isEnd given).elim

/-- Nothing can be expected behind the end of input. -/
theorem barred_expect_bind
    {kind : TokenKind}
    {next : Token → Parse α}
    (visible : kind ≠ .endOfInput) :
    Barred (expect kind >>= next) := by
  intro ended value after isEnd given
  obtain ⟨token, middle, expected, -⟩ := gives_bind.mp given
  obtain ⟨found, -, -⟩ := gives_expect.mp expected
  rw [peek_of_ended isEnd] at found
  exact visible found.symm

theorem idle_bind
    {next otherNext : α → Parse β}
    (first : Idle permissive strict)
    (second : ∀ value, Idle (next value) (otherNext value)) :
    Idle (permissive >>= next) (strict >>= otherNext) := by
  intro ended result after isEnd given
  obtain ⟨value, middle, givenFirst, givenNext⟩ := gives_bind.mp given
  obtain ⟨rfl, standing⟩ := first ended value middle isEnd givenFirst
  obtain ⟨rfl, standingNext⟩ :=
    second value middle result after isEnd givenNext
  refine ⟨rfl, fun brackets right extended => ?_⟩
  exact gives_bind.mpr
    ⟨value, right, standing brackets right extended,
      standingNext brackets right extended⟩

/-- A step that treats a bracket as it treats the end of input. -/
theorem idle_peekKind_bind
    {next otherNext : TokenKind → Parse α}
    (alike : otherNext .closeCurly = otherNext .endOfInput)
    (inner : Idle (next .endOfInput) (otherNext .endOfInput)) :
    Idle (peekKind >>= next) (peekKind >>= otherNext) := by
  intro ended value after isEnd given
  have ends := peek_of_ended isEnd
  rw [peekKind_bind_apply, ends] at given
  obtain ⟨rfl, standing⟩ := inner ended value after isEnd given
  refine ⟨rfl, fun brackets right extended => ?_⟩
  rw [peekKind_bind_apply]
  rcases extended.peek_kind with same | ⟨-, bracket⟩
  · rw [same, ends]
    exact standing brackets right extended
  · rw [bracket, alike]
    exact standing brackets right extended

theorem idle_skipSemicolon : Idle skipSemicolon skipSemicolon :=
  idle_peekKind_bind rfl (idle_pure ())

end Idling

section Sealing

variable
  {levels : Nat}
  {permissive strict : Parse α}
  {left : Cursor}

theorem sealed_pure
    {value : α}
    (inside : left.stream.ahead ≠ []) :
    Sealed levels (pure value) (pure value) left := by
  intro _ result after given
  obtain ⟨rfl, rfl⟩ := gives_mk.mp given
  exact .whole inside fun brackets right extended =>
    ⟨right, gives_mk.mpr ⟨rfl, rfl⟩, extended⟩

/-- A step that never gives anything needs no comparison. -/
theorem sealed_of_not_gives
    (never : ∀ value after, ¬ (permissive left).Gives True value after) :
    Sealed levels permissive strict left :=
  fun _ value after given => (never value after given).elim

/-- What is given before a block closes makes no difference to how it does. -/
theorem Outcome.Closes.bind_of_gives
    {next : α → Parse β}
    {value : α}
    {result : β}
    {around : Nat}
    {brackets : Brackets}
    {right middle after : Cursor}
    (given : (strict right).Gives True value middle)
    (closes : (next value middle).Closes around brackets result after) :
    ((strict >>= next) right).Closes around brackets result after where
  enough more := by
    obtain ⟨final, givenNext, extended⟩ := closes.enough more
    exact ⟨final, gives_bind.mpr ⟨value, middle, given, givenNext⟩, extended⟩
  short few := by
    obtain ⟨failed, ended, faults⟩ := closes.short few
    obtain ⟨gave, rfl, quiet⟩ := given
    have ran :
        strict right =
          ⟨some value, (strict right).cursor, (strict right).events⟩ := by
      rw [← gave]
    have silent : Event.faults (strict right).events = [] := by
      rw [Event.faults, quiet trivial, List.map_nil]
    rw [bind_apply_of_some ran]
    refine ⟨failed, ended, ?_⟩
    rw [Event.faults_append, silent, List.nil_append]
    exact faults

/--
A sequence of two steps.  Either no block is left open by the first step, and the
second one decides; or some are, and the second one is idle.
-/
theorem sealed_bind
    {next otherNext : α → Parse β}
    [Orderly levels permissive]
    (first : Sealed levels permissive strict left)
    (second :
      ∀ value after, after.stream.ahead ≠ [] →
        Sealed levels (next value) (otherNext value) after)
    (idle : ∀ value, Idle (next value) (otherNext value)) :
    Sealed levels (permissive >>= next) (strict >>= otherNext) left := by
  intro fits result final given
  obtain ⟨value, middle, givenFirst, givenNext⟩ := gives_bind.mp given
  have fitsNext : nestingLimit ≤ levels + middle.depth :=
    Orderly.fits_of_gives fits givenFirst
  cases first fits value middle givenFirst with
  | whole inside same =>
      cases second value middle inside fitsNext result final givenNext with
      | whole insideFinal sameNext =>
          refine .whole insideFinal fun brackets right extended => ?_
          obtain ⟨rightMiddle, givenOther, extendedMiddle⟩ :=
            same brackets right extended
          obtain ⟨rightFinal, givenOtherNext, extendedFinal⟩ :=
            sameNext brackets rightMiddle extendedMiddle
          exact ⟨rightFinal,
            gives_bind.mpr ⟨value, rightMiddle, givenOther, givenOtherNext⟩,
            extendedFinal⟩
      | opened around ended closes =>
          refine .opened around ended fun brackets right extended => ?_
          obtain ⟨rightMiddle, givenOther, extendedMiddle⟩ :=
            same brackets right extended
          exact (closes brackets rightMiddle extendedMiddle).bind_of_gives
            givenOther
  | opened around ended closes =>
      obtain ⟨rfl, standing⟩ := idle value middle result final ended givenNext
      refine .opened around ended fun brackets right extended => ⟨?_, ?_⟩
      · intro more
        obtain ⟨rightMiddle, givenOther, extendedMiddle⟩ :=
          (closes brackets right extended).enough more
        have givenOtherNext := standing _ rightMiddle extendedMiddle
        exact ⟨rightMiddle,
          gives_bind.mpr ⟨value, rightMiddle, givenOther, givenOtherNext⟩,
          extendedMiddle⟩
      · intro few
        obtain ⟨failed, endedOther, faults⟩ :=
          (closes brackets right extended).short few
        have ran :
            strict right =
              ⟨none, (strict right).cursor, (strict right).events⟩ := by
          rw [← failed]
        rw [bind_apply_of_none ran]
        exact ⟨rfl, endedOther, faults⟩

/--
A loop with a round for each token ahead, in front of something that cannot stand
at the end of input.  The second run may count further rounds.
-/
theorem sealed_loop_bind
    {loop otherLoop : Nat → Parse α}
    {next otherNext : α → Parse β}
    [∀ count, Orderly levels (loop count)]
    (same :
      ∀ value after,
        nestingLimit ≤ levels + left.depth →
          (loop left.stream.ahead.length left).Gives True value after →
            after.stream.ahead ≠ [] →
              ∀ brackets right, left.Extended brackets right →
                ∃ final,
                  (otherLoop (left.stream.ahead.length + brackets.size)
                    right).Gives True value final ∧
                    after.Extended brackets final)
    (inner :
      ∀ value after, after.stream.ahead ≠ [] →
        Sealed levels (next value) (otherNext value) after)
    (barred : ∀ value, Barred (next value)) :
    Sealed levels
      (rounds >>= fun count => loop count >>= next)
      (rounds >>= fun count => otherLoop count >>= otherNext) left := by
  intro fits result final given
  rw [rounds_bind_apply] at given
  obtain ⟨value, middle, givenLoop, givenNext⟩ := gives_bind.mp given
  have inside : middle.stream.ahead ≠ [] := by
    intro ended
    exact barred value middle result final ended givenNext
  have otherRuns
      {brackets : Brackets}
      {right : Cursor}
      (extended : left.Extended brackets right) :
      (rounds >>= fun count => otherLoop count >>= otherNext) right =
        (otherLoop (left.stream.ahead.length + brackets.size) >>= otherNext)
          right := by
    rw [rounds_bind_apply, extended.ahead, List.length_append]
    rfl
  have fitsNext : nestingLimit ≤ levels + middle.depth :=
    Orderly.fits_of_gives fits givenLoop
  cases inner value middle inside fitsNext result final givenNext with
  | whole insideFinal sameNext =>
      refine .whole insideFinal fun brackets right extended => ?_
      obtain ⟨rightMiddle, givenOther, extendedMiddle⟩ :=
        same value middle fits givenLoop inside brackets right extended
      obtain ⟨rightFinal, givenOtherNext, extendedFinal⟩ :=
        sameNext brackets rightMiddle extendedMiddle
      rw [otherRuns extended]
      exact ⟨rightFinal,
        gives_bind.mpr ⟨value, rightMiddle, givenOther, givenOtherNext⟩,
        extendedFinal⟩
  | opened around ended closes =>
      refine .opened around ended fun brackets right extended => ?_
      obtain ⟨rightMiddle, givenOther, extendedMiddle⟩ :=
        same value middle fits givenLoop inside brackets right extended
      rw [otherRuns extended]
      exact (closes brackets rightMiddle extendedMiddle).bind_of_gives givenOther

/-- Two steps that do from a place what other steps do that are compared. -/
theorem Sealed.of_apply_eq
    {inner otherInner : Parse α}
    {start : Cursor}
    (compared : Sealed levels inner otherInner start)
    (depth : start.depth = left.depth)
    (same : permissive left = inner start)
    (otherSame :
      ∀ brackets right, left.Extended brackets right →
        ∃ otherStart,
          strict right = otherInner otherStart ∧
            start.Extended brackets otherStart) :
    Sealed levels permissive strict left := by
  intro fits value after given
  rw [← depth] at fits
  rw [same] at given
  cases compared fits value after given with
  | whole inside sameInner =>
      refine .whole inside fun brackets right extended => ?_
      obtain ⟨otherStart, eq, extendedStart⟩ := otherSame brackets right extended
      rw [eq]
      exact sameInner brackets otherStart extendedStart
  | opened around ended closes =>
      refine .opened around ended fun brackets right extended => ?_
      obtain ⟨otherStart, eq, extendedStart⟩ := otherSame brackets right extended
      rw [eq]
      exact closes brackets otherStart extendedStart

theorem sealed_current_bind
    {next otherNext : Token → Parse α}
    (inside : left.stream.ahead ≠ [])
    (inner :
      Sealed levels
        (next left.stream.current) (otherNext left.stream.current) left) :
    Sealed levels (current >>= next) (current >>= otherNext) left := by
  refine inner.of_apply_eq rfl current_bind_apply ?_
  intro brackets right extended
  refine ⟨right, ?_, extended⟩
  rw [current_bind_apply, extended.current inside]

theorem sealed_currentKind_bind
    {next otherNext : TokenKind → Parse α}
    (inside : left.stream.ahead ≠ [])
    (inner :
      Sealed levels
        (next left.stream.current.kind)
        (otherNext left.stream.current.kind) left) :
    Sealed levels (currentKind >>= next) (currentKind >>= otherNext) left := by
  refine inner.of_apply_eq rfl currentKind_bind_apply ?_
  intro brackets right extended
  refine ⟨right, ?_, extended⟩
  rw [currentKind_bind_apply, extended.current inside]

theorem sealed_advance_bind
    {next otherNext : Token → Parse α}
    (inside : left.stream.ahead ≠ [])
    (inner :
      Sealed levels
        (next left.stream.current) (otherNext left.stream.current)
        left.advance) :
    Sealed levels (advance >>= next) (advance >>= otherNext) left := by
  refine inner.of_apply_eq left.depth_advance advance_bind_apply ?_
  intro brackets right extended
  refine ⟨right.advance, ?_, extended.advance inside⟩
  rw [advance_bind_apply, extended.current inside]

/-- A step that treats a bracket as it treats the end of input. -/
theorem sealed_peekKind_bind
    {next otherNext : TokenKind → Parse α}
    (alike : otherNext .closeCurly = otherNext .endOfInput)
    (inner :
      Sealed levels
        (next left.stream.peek.kind) (otherNext left.stream.peek.kind) left) :
    Sealed levels (peekKind >>= next) (peekKind >>= otherNext) left := by
  refine inner.of_apply_eq rfl peekKind_bind_apply ?_
  intro brackets right extended
  refine ⟨right, ?_, extended⟩
  rw [peekKind_bind_apply]
  rcases extended.peek_kind with same | ⟨ends, bracket⟩
  · rw [same]
  · rw [bracket, ends, alike]

/-- An expected token is there in both runs. -/
theorem sealed_expect_bind
    {kind : TokenKind}
    {next otherNext : Token → Parse α}
    (visible : kind ≠ .endOfInput)
    (inner :
      ∀ token after, after.stream.ahead ≠ [] →
        Sealed levels (next token) (otherNext token) after) :
    Sealed levels (expect kind >>= next) (expect kind >>= otherNext) left := by
  by_cases expected : left.stream.peek.kind = kind
  · have further := Cursor.next_ne_nil expected visible
    have inside := Cursor.ahead_ne_nil_of_next further
    refine (inner left.stream.peek left.advance further).of_apply_eq
      left.depth_advance (expect_bind_apply expected) ?_
    intro brackets right extended
    have samePeek := extended.peek further
    refine ⟨right.advance, ?_, extended.advance inside⟩
    rw [expect_bind_apply (samePeek ▸ expected), samePeek]
  · apply sealed_of_not_gives
    intro value after given
    obtain ⟨token, middle, found, -⟩ := gives_bind.mp given
    exact expected (gives_expect.mp found).1

theorem sealed_skipSemicolon
    (inside : left.stream.ahead ≠ []) :
    Sealed levels skipSemicolon skipSemicolon left := by
  refine sealed_peekKind_bind rfl ?_
  by_cases semicolon : left.stream.peek.kind = .semicolon
  · have next := Cursor.next_ne_nil semicolon nofun
    simp only [semicolon, ↓reduceIte]
    exact sealed_advance_bind inside (sealed_pure next)
  · simp only [semicolon, ↓reduceIte]
    exact sealed_pure inside

theorem sealed_ite
    {condition : Prop}
    [Decidable condition]
    {first second otherFirst otherSecond : Parse α}
    (holds : condition → Sealed levels first otherFirst left)
    (fails : ¬ condition → Sealed levels second otherSecond left) :
    Sealed levels
      (if condition then first else second)
      (if condition then otherFirst else otherSecond) left := by
  by_cases decided : condition
  · simp only [decided, ↓reduceIte]
    exact holds decided
  · simp only [decided, ↓reduceIte]
    exact fails decided

theorem sealed_closing
    (inner : Sealed levels permissive strict left) :
    Sealed levels (closing permissive) (closing strict) left := by
  have closedFaults
      (events : List Event)
      (passed : Nat)
      (kept : Bool) :
      Event.faults (events ++ [.closed passed kept]) = Event.faults events := by
    simp [Event.faults, Event.diagnostics, Event.diagnostic?]
  intro fits value after given
  cases inner fits value after (gives_closing.mp given) with
  | whole inside same =>
      refine .whole inside fun brackets right extended => ?_
      obtain ⟨final, givenOther, extendedFinal⟩ := same brackets right extended
      exact ⟨final, gives_closing.mpr givenOther, extendedFinal⟩
  | opened around ended closes =>
      refine .opened around ended fun brackets right extended => ⟨?_, ?_⟩
      · intro more
        obtain ⟨final, givenOther, extendedFinal⟩ :=
          (closes brackets right extended).enough more
        exact ⟨final, gives_closing.mpr givenOther, extendedFinal⟩
      · intro few
        obtain ⟨failed, endedOther, faults⟩ :=
          (closes brackets right extended).short few
        refine ⟨failed, endedOther, ?_⟩
        rw [← faults]
        exact closedFaults _ _ _

/-- Events that are no diagnostics make no difference. -/
theorem sealed_emit_bind
    {event : Event}
    {next otherNext : Unit → Parse α}
    (harmless : event.diagnostic? = none)
    (inner : Sealed levels (next ()) (otherNext ()) left) :
    Sealed levels (emit event >>= next) (emit event >>= otherNext) left := by
  intro fits value after given
  obtain ⟨_, middle, emitted, givenNext⟩ := gives_bind.mp given
  obtain rfl := (gives_emit harmless).mp emitted
  have emits (cursor : Cursor) : (emit event cursor).Gives True () cursor :=
    (gives_emit harmless).mpr rfl
  cases inner fits value after givenNext with
  | whole inside same =>
      refine .whole inside fun brackets right extended => ?_
      obtain ⟨final, givenOther, extendedFinal⟩ := same brackets right extended
      exact ⟨final, gives_bind.mpr ⟨(), right, emits right, givenOther⟩,
        extendedFinal⟩
  | opened around ended closes =>
      refine .opened around ended fun brackets right extended => ?_
      exact (closes brackets right extended).bind_of_gives (emits right)

/-- A level entered in the first run is entered in the second. -/
theorem sealed_descend_bind
    {level : Level}
    {next otherNext : Unit → Parse α}
    (inner :
      Sealed levels (next ()) (otherNext ())
        (left.atDepth (left.depth + 1))) :
    Sealed (levels + 1)
      (descend level >>= next) (descend level >>= otherNext) left := by
  intro fits value after given
  obtain ⟨_, middle, entered, givenNext⟩ := gives_bind.mp given
  obtain ⟨within, rfl⟩ := gives_descend.mp entered
  have enters
      {brackets : Brackets}
      {right : Cursor}
      (extended : left.Extended brackets right) :
      (descend level right).Gives True ()
        (right.atDepth (left.depth + 1)) := by
    rw [← extended.depth]
    exact gives_descend.mpr ⟨extended.depth ▸ within, rfl⟩
  cases inner (fits_inside fits) value after givenNext with
  | whole inside same =>
      refine .whole inside fun brackets right extended => ?_
      obtain ⟨final, givenOther, extendedFinal⟩ :=
        same brackets _ (extended.atDepth _)
      exact ⟨final,
        gives_bind.mpr ⟨(), _, enters extended, givenOther⟩, extendedFinal⟩
  | opened around ended closes =>
      refine .opened around ended fun brackets right extended => ?_
      exact Outcome.Closes.bind_of_gives (enters extended)
        (closes brackets _ (extended.atDepth _))

/-- Leaving the levels that were entered keeps the comparison made inside. -/
theorem sealed_nested
    (inner : Sealed levels permissive strict left) :
    Sealed levels (nested permissive) (nested strict) left := by
  intro fits value after given
  obtain ⟨final, givenInner, rfl⟩ := gives_nested.mp given
  have leaves
      {brackets : Brackets}
      {right rightFinal : Cursor}
      (extended : left.Extended brackets right)
      (given : (strict right).Gives True value rightFinal) :
      (nested strict right).Gives True value
        (rightFinal.atDepth left.depth) := by
    rw [← extended.depth]
    exact gives_nested.mpr ⟨rightFinal, given, rfl⟩
  cases inner fits value final givenInner with
  | whole inside same =>
      refine .whole inside fun brackets right extended => ?_
      obtain ⟨rightFinal, givenOther, extendedFinal⟩ :=
        same brackets right extended
      exact ⟨_, leaves extended givenOther, extendedFinal.atDepth _⟩
  | opened around ended closes =>
      refine .opened around ended fun brackets right extended => ⟨?_, ?_⟩
      · intro more
        obtain ⟨rightFinal, givenOther, extendedFinal⟩ :=
          (closes brackets right extended).enough more
        exact ⟨_, leaves extended givenOther, extendedFinal.atDepth _⟩
      · intro few
        exact (closes brackets right extended).short few

end Sealing

end Parse

end Scriptlet
