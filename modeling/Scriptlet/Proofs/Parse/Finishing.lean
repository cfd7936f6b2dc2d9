import Scriptlet.Proofs.Nesting.Accounting
import Scriptlet.Proofs.Parse.Pulled

namespace Scriptlet

/-!
# Parsing always finishes

Every routine of the parser ends, wherever it is started: within a number of rounds
of the recursion that the tokens ahead and the nesting limit determine.  It ends
where it was started or further on.  A program is read up to the end of input.

Run from a reader, a routine does the same.  The two tokens that the reader holds
change whenever it moves on, each time by a token pulled from its source.  A watched
reader keeps note of all that it has held: these are tokens that follow each other
in the stream, from the start on, without a gap.
-/

/-- The two tokens with so many others before them. -/
def TokenStream.viewAt (stream : TokenStream) (index : Nat) : Token × Token :=
  (stream.tokenAt index, stream.tokenAt (index + 1))

/-- What is in view on the way over so many tokens, the latest first. -/
def TokenStream.views (stream : TokenStream) : Nat → List (Token × Token)
  | 0 =>
      [stream.viewAt 0]
  | moves + 1 =>
      stream.viewAt (moves + 1) :: stream.views moves

/-- A reader, and the two tokens it has held at each moment, the latest first. -/
structure WatchedReader (σ : Type) where
  reader : Reader σ
  seen : List (Token × Token)

namespace WatchedReader

variable {σ : Type} [TokenSource σ]

/-- Watch a reader from now on. -/
def ofReader (reader : Reader σ) : WatchedReader σ :=
  ⟨reader, [(reader.current, reader.peek)]⟩

/-- Move the reader on and note the two tokens it then holds. -/
def advance (watched : WatchedReader σ) : WatchedReader σ :=
  let reader := watched.reader.advance
  ⟨reader, (reader.current, reader.peek) :: watched.seen⟩

instance : Place (WatchedReader σ) where
  current watched := watched.reader.current
  peek watched := watched.reader.peek
  advance := advance
  passed watched := watched.reader.passed
  depth watched := watched.reader.depth
  atDepth watched depth :=
    { watched with reader := Place.atDepth watched.reader depth }
  rounds watched := watched.reader.rounds

end WatchedReader

namespace Cursor

theorem tokenAt_advance (cursor : Cursor) (index : Nat) :
    cursor.advance.stream.tokenAt index = cursor.stream.tokenAt (index + 1) := by
  rw [TokenStream.tokenAt, TokenStream.tokenAt, ahead_advance, last_advance]
  cases cursor.stream.ahead with
  | nil =>
      rfl
  | cons token rest =>
      rfl

theorem current_eq_tokenAt (cursor : Cursor) :
    cursor.stream.current = cursor.stream.tokenAt 0 := by
  rw [TokenStream.current, TokenStream.tokenAt]
  cases cursor.stream.ahead with
  | nil =>
      rfl
  | cons token rest =>
      rfl

theorem peek_eq_tokenAt (cursor : Cursor) :
    cursor.stream.peek = cursor.stream.tokenAt 1 := by
  rw [peek_eq_current_advance, current_eq_tokenAt, tokenAt_advance]

namespace LeadsTo

variable {origin cursor : Cursor}

/-- The end of input stays the same on the way. -/
theorem last_eq
    (leads : origin.LeadsTo cursor) :
    cursor.stream.last = origin.stream.last := by
  obtain ⟨moves, place⟩ := leads
  have moving (middle : Cursor)
      (same : middle.stream.last = origin.stream.last) :
      middle.advance.stream.last = origin.stream.last := by
    rw [last_advance, same]
  rw [place]
  exact advanceBy_induction moving rfl moves

end LeadsTo

end Cursor

/--
The reader shows what the cursor shows, and all that it has held are tokens of a
stream in which the cursor has moved on by as many.
-/
structure WatchedReader.Shows
    {σ : Type}
    [TokenSource σ]
    (stream : TokenStream)
    (watched : WatchedReader σ)
    (cursor : Cursor) :
    Prop where
  reader : watched.reader.Shows cursor
  seen :
    ∃ moves,
      watched.seen = stream.views moves ∧
        ∀ index, cursor.stream.tokenAt index = stream.tokenAt (moves + index)

namespace WatchedReader

variable
  {σ : Type}
  [TokenSource σ]
  {stream : TokenStream}
  {cursor : Cursor}

theorem shows_ofReader
    {reader : Reader σ}
    (shows : reader.Shows cursor) :
    (ofReader reader).Shows cursor.stream cursor := by
  refine ⟨shows, 0, ?_, fun index => by rw [Nat.zero_add]⟩
  rw [ofReader, shows.current, shows.peek, cursor.current_eq_tokenAt,
    cursor.peek_eq_tokenAt]
  rfl

theorem Shows.advance
    {watched : WatchedReader σ}
    (shows : watched.Shows stream cursor) :
    watched.advance.Shows stream cursor.advance := by
  obtain ⟨moves, seen, along⟩ := shows.seen
  have moved := shows.reader.advance
  have alongNext (index : Nat) :
      cursor.advance.stream.tokenAt index = stream.tokenAt (moves + 1 + index) := by
    rw [cursor.tokenAt_advance, along, Nat.add_right_comm, Nat.add_assoc]
  refine ⟨moved, moves + 1, ?_, alongNext⟩
  rw [WatchedReader.advance, TokenStream.views, seen, moved.current, moved.peek,
    cursor.advance.current_eq_tokenAt, cursor.advance.peek_eq_tokenAt, alongNext,
    alongNext]
  rfl

/-- A watched reader goes on showing what a cursor shows. -/
theorem showing (stream : TokenStream) :
    Place.Showing (@WatchedReader.Shows σ _ stream) where
  current shows := shows.reader.current
  peek shows := shows.reader.peek
  passed shows := shows.reader.passed
  depth shows := shows.reader.depth
  rounds shows := shows.reader.rounds
  advance shows := shows.advance
  atDepth depth shows := ⟨Reader.showing.atDepth depth shows.reader, shows.seen⟩

end WatchedReader

namespace Parse

open Cursor

theorem Steady.leadsTo
    {α : Type}
    {step : Parse α}
    (steady : Steady step)
    (start : Cursor) :
    start.LeadsTo (step start).cursor := by
  obtain ⟨moves, ends⟩ := steady start
  refine ⟨moves, ?_⟩
  rw [ends, atDepth_self]

/--
The step finishes from a cursor.  The routine that it runs, carried through enough
rounds of the recursion, does just what the step does, whatever comes below: no
round is asked for that is not there.  The cursor ends where it starts or further
on.  From a reader that shows the same tokens the step has the same outcome, and all
that the reader holds on the way are tokens of the stream that follow each other.
-/
structure FinishesFrom
    {α : Type}
    (strictBlocks : Bool)
    (routine : Callees → Parse α)
    (step : {σ : Type} → [Place σ] → Step σ α)
    (start : Cursor) :
    Prop where
  ends :
    ∀ below count, start.rounds ≤ count →
      routine (.unrolled strictBlocks below count) start = step start
  onward : start.LeadsTo (step start).cursor
  pulled :
    ∀ {σ : Type} [TokenSource σ] (reader : Reader σ), reader.Shows start →
      (step reader).Matches Reader.Shows (step start)
  throughout :
    ∀ {σ : Type} [TokenSource σ] (reader : Reader σ), reader.Shows start →
      let outcome := step (WatchedReader.ofReader reader)
      outcome.result? = (step start).result? ∧
        outcome.events = (step start).events ∧
        outcome.cursor.reader.Shows (step start).cursor ∧
        ∃ moves, outcome.cursor.seen = start.stream.views moves

section Anywhere

variable {α : Type} {strictBlocks : Bool}

/-- A step that ends, and follows from every kind of place, finishes. -/
theorem finishesFrom_of_follows
    {routine : Callees → Parse α}
    {step : {σ : Type} → [Place σ] → Step σ α}
    {start : Cursor}
    (ends :
      ∀ below count, start.rounds ≤ count →
        routine (.unrolled strictBlocks below count) start = step start)
    (onward : start.LeadsTo (step start).cursor)
    (follows :
      ∀ {σ : Type} [Place σ] {shows : σ → Cursor → Prop}, Place.Showing shows →
        Follows shows step step) :
    FinishesFrom strictBlocks routine step start where
  ends := ends
  onward := onward
  pulled reader shows := follows Reader.showing reader start shows
  throughout reader shows := by
    have outcome :=
      follows (WatchedReader.showing start.stream) _ _
        (WatchedReader.shows_ofReader shows)
    obtain ⟨moves, seen, -⟩ := outcome.cursor.seen
    exact ⟨outcome.result?, outcome.events, outcome.cursor.reader, moves, seen⟩

/-- Every routine that is composed of calls finishes, wherever it is started. -/
theorem Composed.finishesFrom
    {routine : {σ : Type} → [Place σ] → Routines σ → Step σ α}
    {composite : Callees → Parse α}
    (composed : Composed composite)
    (same :
      ∀ levels,
        composite (.within strictBlocks levels) =
          routine (routinesWithin strictBlocks levels))
    (follows :
      ∀ {σ : Type} [Place σ] {shows : σ → Cursor → Prop} {levels : Nat},
        Place.Showing shows →
          FollowsWithin shows strictBlocks levels →
          Follows shows
            (routine (routinesWithin strictBlocks levels))
            (routine (routinesWithin strictBlocks levels)))
    (start : Cursor) :
    FinishesFrom strictBlocks composite (withRoutines strictBlocks routine)
      start := by
  refine finishesFrom_of_follows ?_ ?_ ?_
  · intro below count enough
    rw [composed.unrolled_eq enough, same]
    rfl
  · exact (steady_withRoutines composed same).leadsTo start
  · exact fun showing =>
      follows_withRoutines showing strictBlocks (follows showing)

end Anywhere

section Programs

variable {strictBlocks : Bool}

/-- With a round for each token ahead, a program is read to the end of input. -/
theorem ended_programStatements
    {count : Nat}
    {start : Cursor}
    (covered : start.stream.ahead.length ≤ count) :
    (programStatements strictBlocks count start).cursor.stream.ahead = [] := by
  induction count generalizing start with
  | zero =>
      exact List.eq_nil_of_length_eq_zero (Nat.le_zero.mp covered)
  | succ count inductionHypothesis =>
      by_cases ended : start.stream.ahead = []
      · rw [programStatements_of_ended ended]
        exact ended
      · rw [programStatements_succ ended rfl rfl]
        refine inductionHypothesis ?_
        have moving (cursor : Cursor)
            (few : cursor.stream.ahead.length ≤ count + 1) :
            cursor.advance.stream.ahead.length ≤ count + 1 := by
          rw [ahead_advance, List.length_tail]
          omega
        have few :
            (withRoutines strictBlocks statement
              (start.atDepth 0)).cursor.stream.ahead.length ≤ count + 1 :=
          (steady_statement strictBlocks).holds_after moving covered
        rw [ahead_advance, List.length_tail]
        exact Nat.sub_le_of_le_add few

/-- A program is read to the end of input, wherever that is begun. -/
theorem ended_program (start : Cursor) :
    (program strictBlocks start).cursor.stream.ahead = [] := by
  rw [program_eq_finishing]
  exact ended_programStatements (Nat.le_refl _)

/-- Reading a program never fails as a whole. -/
theorem isSome_result?_program (start : Cursor) :
    (program strictBlocks start).result?.isSome = true := by
  rw [program_eq_finishing, finishing, (programStatements_eq_starts _ start).1]
  rfl

theorem program_finishesFrom
    {start : Cursor}
    (shallow : start.depth ≤ nestingLimit + 1) :
    FinishesFrom strictBlocks Callees.program (program strictBlocks) start := by
  have throughout : Throughout (.program start) (program strictBlocks) start :=
    throughout_program shallow
  refine finishesFrom_of_follows ?_ throughout.ends.1 ?_
  · exact fun below count enough => program_unrolled_eq enough
  · exact fun showing => follows_program showing strictBlocks

end Programs

/--
Parsing always finishes.  Statements of every form, expressions at every
precedence, blocks and each operand and operator finish from wherever they are
started.  Every token list is read as a program, up to its end of input, and so is
the replay of the list from which a reader pulls.
-/
theorem always_finishes (strictBlocks : Bool) :
    (∀ start : Cursor,
      FinishesFrom strictBlocks Callees.statement
          (withRoutines strictBlocks statement) start ∧
        (∀ form?,
          FinishesFrom strictBlocks
            (fun callees => statementOf callees.routines form?)
            (withRoutines strictBlocks fun routines => statementOf routines form?)
            start) ∧
        (∀ bound,
          FinishesFrom strictBlocks (fun callees => callees.expression bound)
            (expression strictBlocks bound) start) ∧
        FinishesFrom strictBlocks Callees.block (block strictBlocks) start ∧
        (∀ form,
          FinishesFrom strictBlocks (fun callees => callees.operandOf form)
            (withRoutines strictBlocks fun routines => operandOf routines form)
            start) ∧
        ∀ left precedence form,
          FinishesFrom strictBlocks
            (fun callees => callees.operatorOf left precedence form)
            (withRoutines strictBlocks fun routines =>
              operatorOf routines left precedence form)
            start) ∧
      ∀ tokens : List Token,
        let start := Cursor.ofStream (.ofTokens tokens)
        FinishesFrom strictBlocks Callees.program (program strictBlocks) start ∧
          (program strictBlocks start).result?.isSome = true ∧
          (program strictBlocks start).cursor.stream.current =
            TokenStream.endOf tokens ∧
          (program strictBlocks start).cursor.stream.current.kind =
            .endOfInput ∧
          ∀ more,
            let reader :=
              Reader.ofSource (tokens.length + more) (Replay.ofTokens tokens)
            reader.Shows start ∧
              (program strictBlocks reader).cursor.current =
                TokenStream.endOf tokens := by
  refine ⟨fun start => ⟨?_, fun form? => ?_, fun bound => ?_, ?_, fun form => ?_,
    fun left precedence form => ?_⟩, fun tokens => ?_⟩
  · exact Composed.statement.finishesFrom (fun _ => rfl) follows_statement start
  · exact (Composed.statementOf form?).finishesFrom (fun _ => rfl)
      (fun showing within => follows_statementOf showing within form?) start
  · exact Composed.expression.finishesFrom (fun _ => rfl)
      (fun _ within => within.expression bound) start
  · exact Composed.block.finishesFrom (fun _ => rfl)
      (fun _ within => within.block) start
  · exact (Composed.operandOf form).finishesFrom
      (fun levels => Callees.operandOf_within strictBlocks levels form)
      (fun showing within => follows_operandOf showing within form) start
  · exact (Composed.operatorOf left precedence form).finishesFrom
      (fun levels => Callees.operatorOf_within strictBlocks levels left precedence form)
      (fun showing within =>
        follows_operatorOf showing within left precedence form)
      start
  · intro start
    have finishes :
        FinishesFrom strictBlocks Callees.program (program strictBlocks) start :=
      program_finishesFrom (Nat.zero_le _)
    have ended : (program strictBlocks start).cursor.stream.ahead = [] :=
      ended_program start
    have last :
        (program strictBlocks start).cursor.stream.current =
          TokenStream.endOf tokens := by
      rw [TokenStream.current, ended]
      exact finishes.onward.last_eq
    refine ⟨finishes, isSome_result?_program start, last, ?_, fun more => ?_⟩
    · exact (TokenStream.current_kind_eq_endOfInput_iff _).mpr ended
    · have enough : (TokenStream.beforeEnd tokens).length ≤ tokens.length + more :=
        Nat.le_add_right_of_le (List.takeWhile_sublist _).length_le
      have shows :
          (Reader.ofSource (tokens.length + more) (Replay.ofTokens tokens)).Shows
            start :=
        Reader.shows_ofSource (Replay.supplies_ofTokens tokens) enough
      exact ⟨shows, (finishes.pulled _ shows).cursor.current.trans last⟩

end Parse

end Scriptlet
