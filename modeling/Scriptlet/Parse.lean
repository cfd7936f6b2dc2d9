import Scriptlet.Grammar
import Scriptlet.Parse.Event
import Scriptlet.Token.Stream

namespace Scriptlet

/-!
# Parse steps

A parse step reads tokens from a place.  It ends with a result or without one,
always at a place that later steps go on from, and with the events it adds to the
trace.  A step without a result has recorded a diagnostic; what encloses it ends
without a result too, up to the statement, which is dropped.

What a place is made of makes no difference to a step.  It sees two tokens there,
the current one and the next, and can move on to further ones.  A place also counts
the levels of nesting that are open.  Entering one more than the limit allows is a
fault.
-/

/-- The number of nested levels a program may use. -/
def nestingLimit : Nat :=
  256

/--
The places of a parse: what is seen there, the way on, how many tokens were passed
before, and the levels that are open.  Loops make at most `rounds` rounds, which is
enough wherever at most so many tokens are left.
-/
class Place (σ : Type) where
  current : σ → Token
  peek : σ → Token
  advance : σ → σ
  passed : σ → Nat
  depth : σ → Nat
  atDepth : σ → Nat → σ
  rounds : σ → Nat

/--
A place in a token stream: the tokens ahead, how many were passed before them, and
the levels that are open.
-/
structure Cursor where
  stream : TokenStream
  passed : Nat
  depth : Nat

namespace Cursor

/-- Start on the first token of a stream. -/
def ofStream (stream : TokenStream) : Cursor :=
  ⟨stream, 0, 0⟩

/-- Pass the token being looked at; the end of input is never passed. -/
def advance (cursor : Cursor) : Cursor :=
  if cursor.stream.ahead.isEmpty then
    cursor
  else
    { cursor with
      stream := cursor.stream.advance
      passed := cursor.passed + 1 }

/-- The same place with another number of open levels. -/
def atDepth (cursor : Cursor) (depth : Nat) : Cursor :=
  { cursor with depth }

instance : Place Cursor where
  current cursor := cursor.stream.current
  peek cursor := cursor.stream.peek
  advance := advance
  passed := passed
  depth := depth
  atDepth := atDepth
  rounds cursor := cursor.stream.remaining

section Places

variable (cursor : Cursor)

@[simp]
theorem place_current : Place.current cursor = cursor.stream.current :=
  rfl

@[simp]
theorem place_peek : Place.peek cursor = cursor.stream.peek :=
  rfl

@[simp]
theorem place_advance : Place.advance cursor = cursor.advance :=
  rfl

@[simp]
theorem place_passed : Place.passed cursor = cursor.passed :=
  rfl

@[simp]
theorem place_depth : Place.depth cursor = cursor.depth :=
  rfl

@[simp]
theorem place_atDepth (depth : Nat) :
    Place.atDepth cursor depth = cursor.atDepth depth :=
  rfl

@[simp]
theorem place_rounds : Place.rounds cursor = cursor.stream.remaining :=
  rfl

end Places

end Cursor

/-- What a parse step ends with. -/
structure Parse.Outcome (σ α : Type) where
  result? : Option α
  cursor : σ
  events : List Event

/-- A step that reads tokens from places of some kind. -/
def Step (σ α : Type) : Type :=
  σ → Parse.Outcome σ α

/-- A step that reads tokens from a cursor. -/
abbrev Parse : Type → Type :=
  Step Cursor

namespace Parse

section Combinators

variable {σ α β : Type}

/-- End with a result, reading nothing. -/
def succeed (value : α) : Step σ α :=
  fun cursor => ⟨some value, cursor, []⟩

/-- End without a result, reading nothing. -/
def fail : Step σ α :=
  fun cursor => ⟨none, cursor, []⟩

/-- Go on with the result of a step; without one the rest is left out. -/
def andThen (step : Step σ α) (next : α → Step σ β) : Step σ β :=
  fun cursor =>
    match step cursor with
    | ⟨none, cursorAfter, events⟩ =>
        ⟨none, cursorAfter, events⟩
    | ⟨some value, cursorAfter, events⟩ =>
        match next value cursorAfter with
        | ⟨result?, cursorFinally, moreEvents⟩ =>
            ⟨result?, cursorFinally, events ++ moreEvents⟩

/-- Change the result of a step, if it has one. -/
def mapResult (change : α → β) (step : Step σ α) : Step σ β :=
  fun cursor =>
    match step cursor with
    | ⟨result?, cursorAfter, events⟩ =>
        ⟨result?.map change, cursorAfter, events⟩

instance : Monad (Step σ) where
  pure := succeed
  bind := andThen
  map := mapResult

/-- Look at the place. -/
def cursor : Step σ σ :=
  fun cursor => ⟨some cursor, cursor, []⟩

/-- Add an event to the trace. -/
def emit (event : Event) : Step σ Unit :=
  fun cursor => ⟨some (), cursor, [event]⟩

/-- Record a fault at a position. -/
def record (fault : Fault) (position : Position) : Step σ Unit :=
  emit (.recorded ⟨fault, position⟩)

/-- Record a fault at a position and end without a result. -/
def reject (fault : Fault) (position : Position) : Step σ α := do
  record fault position
  fail

/-- Run a step whose failure does not end what encloses it. -/
def attempt (step : Step σ α) : Step σ (Option α) :=
  fun cursor =>
    let outcome := step cursor
    ⟨some outcome.result?, outcome.cursor, outcome.events⟩

/-- A step that other steps follow, with some rounds of a loop still to go. -/
def andSoOn (rounds : Nat) (step : Step σ α) : Step σ α :=
  fun cursor => withStackFor rounds fun _ => step cursor

end Combinators

section Moves

variable {σ α : Type} [Place σ]

/-- The token being looked at. -/
def current : Step σ Token := do
  return Place.current (← cursor)

/-- The kind of the token being looked at. -/
def currentKind : Step σ TokenKind := do
  return (← current).kind

/-- The kind of the token after the one being looked at. -/
def peekKind : Step σ TokenKind := do
  return (Place.peek (← cursor)).kind

/-- The number of rounds that a loop may make. -/
def rounds : Step σ Nat := do
  return Place.rounds (← cursor)

/-- Move on to the next token; the result is the token moved past. -/
def advance : Step σ Token :=
  fun cursor => ⟨some (Place.current cursor), Place.advance cursor, []⟩

/--
Move on to the next token if it has the expected kind; the result is that
token.  Otherwise the fault is recorded at the next token and the cursor stays.
-/
def expect (expected : TokenKind) : Step σ Token := do
  let next := Place.peek (← cursor)
  if next.kind = expected then
    let _ ← advance
    current
  else
    reject (.expectedToken expected next.kind) next.start

/-- Move past a semicolon if it comes next. -/
def skipSemicolon : Step σ Unit := do
  if (← peekKind) = .semicolon then
    let _ ← advance

/-- Set the number of open levels. -/
def setDepth (depth : Nat) : Step σ Unit :=
  fun cursor => ⟨some (), Place.atDepth cursor depth, []⟩

/-- Run a step and close the levels it opened, with or without a result. -/
def nested (step : Step σ α) : Step σ α :=
  fun start =>
    let outcome := step start
    { outcome with
      cursor := Place.atDepth outcome.cursor (Place.depth start) }

/--
Open one more level.  Past the limit the fault is recorded at the token being
looked at.
-/
def descend (level : Level) : Step σ Unit := do
  let start ← cursor
  setDepth (Place.depth start + 1)
  emit (.entered level (Place.depth start + 1) (Place.passed start))
  if nestingLimit < Place.depth start + 1 then
    reject (.nestingTooDeep nestingLimit) (Place.current start).start

end Moves

section Lemmas

variable {σ α β : Type}

/-- Changing a result is going on with the changed result. -/
theorem mapResult_eq_andThen
    (change : α → β)
    (step : Step σ α) :
    mapResult change step = andThen step fun value => succeed (change value) := by
  funext cursor
  simp only [mapResult, andThen, succeed]
  rcases step cursor with ⟨result?, cursorAfter, events⟩
  cases result? with
  | none =>
      rfl
  | some value =>
      simp

/-- Going on is the same step. -/
@[simp]
theorem andSoOn_eq
    (rounds : Nat)
    (step : Step σ α) :
    andSoOn rounds step = step := by
  funext cursor
  simp [andSoOn]

/-- The levels a nested step opens are closed again. -/
@[simp]
theorem depth_nested
    (step : Parse α)
    (start : Cursor) :
    (nested step start).cursor.depth = start.depth :=
  rfl

/-- Entering a level counts it, within the limit or not. -/
theorem depth_descend
    (level : Level)
    (start : Cursor) :
    (descend level start).cursor.depth = start.depth + 1 := by
  simp only [descend, bind, andThen, cursor, setDepth, emit]
  split
  · rfl
  · rfl

/-- A level can be entered exactly when the limit is not reached yet. -/
theorem descend_isSome_iff
    (level : Level)
    (start : Cursor) :
    (descend level start).result?.isSome = true ↔ start.depth < nestingLimit := by
  simp only [descend, bind, andThen, cursor, setDepth, emit, Cursor.place_depth]
  split
  · rename_i tooDeep
    simp only [reject, record, emit, fail, bind, andThen]
    simp
    omega
  · rename_i within
    simp only [pure, succeed, Option.isSome_some, true_iff]
    omega

end Lemmas

end Parse

end Scriptlet
