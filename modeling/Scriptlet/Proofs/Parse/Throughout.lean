import Scriptlet.Proofs.Parse.Recursion

namespace Scriptlet

/-!
# Every moment of a run

The outcome of a step tells where the parse has got to in the end, not what was the
case on the way.  A watch says something about every cursor that there is on the
way, and about everything that is added to the trace, at the cursor where this
happens.  A step keeps a watch throughout a run if it does so at every moment; the
rules for this are those by which steps are put together.
-/

/-- Something to be said about cursors, and about events at cursors. -/
structure Watch where
  holds : Cursor → Prop
  tells : Cursor → Event → Prop

namespace Parse

/--
The watch is kept at every moment of the step's run from a cursor: whatever moves
the cursor on, opens or closes levels or adds to the trace.
-/
inductive Throughout (watch : Watch) : {α : Type} → Parse α → Cursor → Prop where
  | pure
      {α : Type}
      {value : α}
      {start : Cursor}
      (holds : watch.holds start) :
      Throughout watch (Pure.pure value : Parse α) start
  | fail
      {α : Type}
      {start : Cursor}
      (holds : watch.holds start) :
      Throughout watch (Parse.fail : Parse α) start
  | cursor
      {start : Cursor}
      (holds : watch.holds start) :
      Throughout watch Parse.cursor start
  | advance
      {start : Cursor}
      (before : watch.holds start)
      (after : watch.holds start.advance) :
      Throughout watch Parse.advance start
  | setDepth
      {start : Cursor}
      {depth : Nat}
      (before : watch.holds start)
      (after : watch.holds (start.atDepth depth)) :
      Throughout watch (Parse.setDepth depth) start
  | emit
      {start : Cursor}
      {event : Event}
      (holds : watch.holds start)
      (tells : watch.tells start event) :
      Throughout watch (Parse.emit event) start
  | bind
      {α β : Type}
      {step : Parse α}
      {next : α → Parse β}
      {start : Cursor}
      (first : Throughout watch step start)
      (second :
        ∀ value, (step start).result? = some value →
          Throughout watch (next value) (step start).cursor) :
      Throughout watch (step >>= next) start
  | map
      {α β : Type}
      {change : α → β}
      {step : Parse α}
      {start : Cursor}
      (inner : Throughout watch step start) :
      Throughout watch (change <$> step) start
  | attempt
      {α : Type}
      {step : Parse α}
      {start : Cursor}
      (inner : Throughout watch step start) :
      Throughout watch (Parse.attempt step) start
  | nested
      {α : Type}
      {step : Parse α}
      {start : Cursor}
      (inner : Throughout watch step start)
      (after : watch.holds ((step start).cursor.atDepth start.depth)) :
      Throughout watch (Parse.nested step) start
  | closing
      {α : Type}
      {step : Parse α}
      {start : Cursor}
      (inner : Throughout watch step start)
      (tells :
        watch.tells (step start).cursor
          (.closed start.passed (step start).result?.isSome)) :
      Throughout watch (Parse.closing step) start
  | finishing
      {step : Parse (List Statement)}
      {start : Cursor}
      (inner : Throughout watch step start)
      (tells :
        watch.tells (step start).cursor
          (.finished ((step start).result?.getD []).length
            (Event.diagnostics (step start).events).length)) :
      Throughout watch (Parse.finishing step) start
  | withRoutines
      {α : Type}
      {strictBlocks : Bool}
      {routine : Routines Cursor → Parse α}
      {start : Cursor}
      (inner :
        Throughout watch
          (routine (routinesWithin strictBlocks (nestingLimit - start.depth)))
          start) :
      Throughout watch (Parse.withRoutines strictBlocks routine) start

namespace Throughout

variable {watch : Watch} {α : Type} {step : Parse α} {start : Cursor}

theorem ends
    (throughout : Throughout watch step start) :
    watch.holds (step start).cursor := by
  induction throughout with
  | pure holds | fail holds | cursor holds | emit holds tells =>
      exact holds
  | advance before after | setDepth before after =>
      exact after
  | @bind α β step next start _ _ first second =>
      rcases ran : step start with ⟨_ | value, middle, events⟩
      · rw [ran] at first
        rw [bind_apply_of_none ran]
        exact first
      · have later := second value (by rw [ran])
        rw [ran] at later
        rw [bind_apply_of_some ran]
        exact later
  | map _ inner | attempt _ inner | withRoutines _ inner =>
      exact inner
  | nested _ after inner =>
      exact after
  | closing _ _ inner | finishing _ _ inner =>
      exact inner

/-- What is in the trace of a run was added to it at some moment. -/
theorem exists_moment
    (throughout : Throughout watch step start)
    {event : Event}
    (member : event ∈ (step start).events) :
    ∃ moment, watch.holds moment ∧ watch.tells moment event := by
  induction throughout with
  | pure holds | fail holds | cursor holds =>
      cases member
  | advance before after | setDepth before after =>
      cases member
  | emit holds tells =>
      obtain rfl := List.mem_singleton.mp member
      exact ⟨_, holds, tells⟩
  | @bind α β step next start _ _ first second =>
      rcases ran : step start with ⟨_ | value, middle, events⟩
      · rw [bind_apply_of_none ran] at member
        exact first (by rw [ran]; exact member)
      · rw [bind_apply_of_some ran] at member
        rcases List.mem_append.mp member with early | late
        · exact first (by rw [ran]; exact early)
        · exact second value (by rw [ran]) (by rw [ran]; exact late)
  | map _ inner | attempt _ inner | withRoutines _ inner =>
      exact inner member
  | nested _ after inner =>
      exact inner member
  | closing inside tells inner =>
      rcases List.mem_append.mp member with early | late
      · exact inner early
      · obtain rfl := List.mem_singleton.mp late
        exact ⟨_, inside.ends, tells⟩
  | finishing inside tells inner =>
      rcases List.mem_append.mp member with early | late
      · exact inner early
      · obtain rfl := List.mem_singleton.mp late
        exact ⟨_, inside.ends, tells⟩

/-- A watch that says more is kept only where one that says less is. -/
theorem mono
    {other : Watch}
    (throughout : Throughout watch step start)
    (holds : ∀ cursor, watch.holds cursor → other.holds cursor)
    (tells :
      ∀ cursor event,
        watch.holds cursor → watch.tells cursor event →
          other.tells cursor event) :
    Throughout other step start := by
  induction throughout with
  | pure held =>
      exact .pure (holds _ held)
  | fail held =>
      exact .fail (holds _ held)
  | cursor held =>
      exact .cursor (holds _ held)
  | advance before after =>
      exact .advance (holds _ before) (holds _ after)
  | setDepth before after =>
      exact .setDepth (holds _ before) (holds _ after)
  | emit held told =>
      exact .emit (holds _ held) (tells _ _ held told)
  | bind _ _ first second =>
      exact .bind first second
  | map _ inner =>
      exact .map inner
  | attempt _ inner =>
      exact .attempt inner
  | nested _ after inner =>
      exact .nested inner (holds _ after)
  | closing inside told inner =>
      exact .closing inner (tells _ _ inside.ends told)
  | finishing inside told inner =>
      exact .finishing inner (tells _ _ inside.ends told)
  | withRoutines _ inner =>
      exact .withRoutines inner

end Throughout

end Parse

/-- The event tells nothing of levels. -/
def Event.Plain : Event → Prop
  | .entered .. => False
  | .recorded diagnostic => ∀ limit, diagnostic.fault ≠ .nestingTooDeep limit
  | _ => True

/--
A routine may look around, move on and record, starting from a cursor that is
ready.
-/
structure Watch.Lets (watch : Watch) (ready : Cursor → Prop) : Prop where
  holds : ∀ cursor, ready cursor → watch.holds cursor
  advance : ∀ cursor, ready cursor → ready cursor.advance
  tells :
    ∀ cursor event, ready cursor → event.Plain → watch.tells cursor event

namespace Parse

/-- The watch is kept throughout all calls from a cursor that is ready. -/
structure Callees.Watched
    (watch : Watch)
    (ready : Cursor → Prop)
    (callees : Callees) :
    Prop where
  expression :
    ∀ bound start, ready start →
      Throughout watch (callees.expression bound) start
  block : ∀ start, ready start → Throughout watch callees.block start
  moreParameters :
    ∀ start, ready start → Throughout watch callees.moreParameters start
  moreArguments :
    ∀ start, ready start → Throughout watch callees.moreArguments start
  blockStatements :
    ∀ start, ready start → Throughout watch callees.blockStatements start

section Routines

variable {watch : Watch} {ready : Cursor → Prop} {callees : Callees}

/-- A routine keeps a watch if what it calls does. -/
theorem Composed.throughout
    {α : Type}
    {routine : Callees → Parse α}
    (composed : Composed routine)
    (lets : watch.Lets ready)
    (steady : callees.Steady)
    (watched : callees.Watched watch ready)
    {start : Cursor}
    (isReady : ready start) :
    Throughout watch (routine callees) start := by
  induction composed generalizing start with
  | done =>
      exact .pure (lets.holds _ isReady)
  | cursor =>
      exact .cursor (lets.holds _ isReady)
  | advance =>
      exact .advance (lets.holds _ isReady) (lets.holds _ (lets.advance _ isReady))
  | recognise =>
      exact .emit (lets.holds _ isReady) (lets.tells _ _ isReady trivial)
  | reject shallow =>
      have held := lets.holds _ isReady
      exact .bind (.emit held (lets.tells _ _ isReady shallow)) fun _ _ => .fail held
  | bind composedFirst _ first second =>
      refine .bind (first isReady) fun value _ => second value ?_
      exact (composedFirst.steady steady).holds_after lets.advance isReady
  | map _ inner =>
      exact .map (inner isReady)
  | attempt _ inner =>
      exact .attempt (inner isReady)
  | closing composedInner inner =>
      have after := (composedInner.steady steady).holds_after lets.advance isReady
      exact .closing (inner isReady) (lets.tells _ _ after trivial)
  | expression =>
      exact watched.expression _ _ isReady
  | block =>
      exact watched.block _ isReady
  | moreParameters =>
      exact watched.moreParameters _ isReady
  | moreArguments =>
      exact watched.moreArguments _ isReady
  | blockStatements =>
      exact watched.blockStatements _ isReady

/-- Callees that never do anything. -/
def Callees.idle : Callees :=
  ⟨fun _ => fail, fun _ _ => fail, fail, fail, fail, fail, fail⟩

/-- Steps that call nothing keep a watch. -/
theorem Composed.throughout_idle
    {α : Type}
    {step : Parse α}
    (composed : Composed fun _ => step)
    (lets : watch.Lets ready)
    {start : Cursor}
    (isReady : ready start) :
    Throughout watch step start := by
  have stays {β : Type} : Steady (fail : Parse β) :=
    steady_of_stays fun _ => rfl
  have fails {β : Type}
      (cursor : Cursor)
      (isReady : ready cursor) :
      Throughout watch (fail : Parse β) cursor :=
    .fail (lets.holds cursor isReady)
  have steady : Callees.idle.Steady :=
    ⟨fun _ => stays, stays, stays, stays, stays⟩
  have watched : Callees.idle.Watched watch ready :=
    ⟨fun _ => fails, fails, fails, fails, fails⟩
  exact composed.throughout lets steady watched isReady

section Loops

variable (steady : callees.Steady) (watched : callees.Watched watch ready)

include steady watched

theorem Callees.Watched.parameters
    (lets : watch.Lets ready)
    (count : Nat)
    {start : Cursor}
    (isReady : ready start) :
    Throughout watch (Parse.moreParameters count) start := by
  induction count generalizing start with
  | zero =>
      exact .pure (lets.holds _ isReady)
  | succ count inductionHypothesis =>
      rw [moreParameters_eq_round callees]
      refine Composed.parameterRound.throughout lets ?_ ?_ isReady
      · exact { steady with moreParameters := steady.parameters count }
      · exact { watched with moreParameters := fun _ => inductionHypothesis }

theorem Callees.Watched.arguments
    (lets : watch.Lets ready)
    (count : Nat)
    {start : Cursor}
    (isReady : ready start) :
    Throughout watch (Parse.moreArguments callees.routines count) start := by
  induction count generalizing start with
  | zero =>
      exact .pure (lets.holds _ isReady)
  | succ count inductionHypothesis =>
      rw [moreArguments_eq_round]
      refine Composed.argumentRound.throughout lets ?_ ?_ isReady
      · exact { steady with moreArguments := steady.arguments count }
      · exact { watched with moreArguments := fun _ => inductionHypothesis }

theorem Callees.Watched.statements
    (lets : watch.Lets ready)
    (count : Nat)
    {start : Cursor}
    (isReady : ready start) :
    Throughout watch (Parse.statements callees.routines count) start := by
  induction count generalizing start with
  | zero =>
      exact .pure (lets.holds _ isReady)
  | succ count inductionHypothesis =>
      rw [statements_eq_round]
      refine Composed.statementRound.throughout lets ?_ ?_ isReady
      · exact { steady with blockStatements := steady.statements count }
      · exact { watched with blockStatements := fun _ => inductionHypothesis }

end Loops

/-- The loops keep a watch where expressions and blocks do. -/
theorem watched_within_of
    {strictBlocks : Bool}
    {levels : Nat}
    (lets : watch.Lets ready)
    (expression :
      ∀ bound start, ready start →
        Throughout watch (expressionWithin strictBlocks levels bound) start)
    (block :
      ∀ start, ready start →
        Throughout watch (blockWithin strictBlocks levels) start) :
    (Callees.within strictBlocks levels).Watched watch ready := by
  have steady : (Callees.within strictBlocks levels).loopless.Steady :=
    Callees.steady_loopless (steady_within strictBlocks levels).expression
      (steady_within strictBlocks levels).block
  have quiet {α : Type}
      (start : Cursor)
      (isReady : ready start) :
      Throughout watch (pure [] : Parse (List α)) start :=
    .pure (lets.holds start isReady)
  have watched : (Callees.within strictBlocks levels).loopless.Watched watch ready :=
    ⟨expression, block, quiet, quiet, quiet⟩
  have counted
      {α : Type}
      {loop : Nat → Parse α}
      (each : ∀ count start, ready start → Throughout watch (loop count) start)
      (start : Cursor)
      (isReady : ready start) :
      Throughout watch (rounds >>= loop) start :=
    .bind (.bind (.cursor (lets.holds start isReady)) fun _ _ =>
      .pure (lets.holds start isReady)) fun count _ => each count start isReady
  refine ⟨expression, block, counted fun count start isReady => ?_,
    counted fun count start isReady => ?_, counted fun count start isReady => ?_⟩
  · exact watched.parameters steady lets count isReady
  · exact watched.arguments steady lets count isReady
  · exact watched.statements steady lets count isReady

end Routines

end Parse

end Scriptlet
