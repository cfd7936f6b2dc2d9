import Scriptlet.Parse.Reader

namespace Scriptlet

/-!
# A parser to be driven step by step

A parser keeps a place and the trace of all steps taken so far, so that steps can
be taken one at a time and the state looked at in between.
-/

/-- A parse in progress. -/
structure Parser (σ : Type) where
  place : σ
  strictBlocks : Bool
  trace : List Event

namespace Parser

/-- Start with the first two tokens of a source. -/
def ofSource
    {σ : Type}
    [TokenSource σ]
    (strictBlocks : Bool)
    (rounds : Nat)
    (source : σ) :
    Parser (Reader σ) :=
  ⟨Reader.ofSource rounds source, strictBlocks, []⟩

variable {σ α : Type} [Place σ]

/-- The token being looked at. -/
def current (parser : Parser σ) : Token :=
  Place.current parser.place

/-- The token after the one being looked at. -/
def peek (parser : Parser σ) : Token :=
  Place.peek parser.place

/-- The diagnostics recorded so far. -/
def diagnostics (parser : Parser σ) : List Diagnostic :=
  Event.diagnostics parser.trace

/-- Take one step. -/
def take (parser : Parser σ) (step : Step σ α) : Option α × Parser σ :=
  let outcome := step parser.place
  (outcome.result?,
    { parser with
      place := outcome.cursor
      trace := parser.trace ++ outcome.events })

/-- Take one step that reads nested forms with the routines of this parser. -/
def takeWith
    (parser : Parser σ)
    (routine : Routines σ → Step σ α) :
    Option α × Parser σ :=
  parser.take (Parse.withRoutines parser.strictBlocks routine)

/-- Enter levels one after the other; the result counts those within the limit. -/
def descendTimes : Nat → Parser σ → Nat × Parser σ
  | 0, parser =>
      (0, parser)
  | count + 1, parser =>
      let first := parser.take (Parse.descend .operand)
      let rest := descendTimes count first.2
      ((if first.1.isSome then 1 else 0) + rest.1, rest.2)

/-- Drive the parser and then close the levels that were opened meanwhile. -/
def nested (parser : Parser σ) (drive : Parser σ → α × Parser σ) : α × Parser σ :=
  let driven := drive parser
  (driven.1,
    { driven.2 with
      place := Place.atDepth driven.2.place (Place.depth parser.place) })

end Parser

end Scriptlet
