import Scriptlet.Fault

namespace Scriptlet

/-!
# The trace of a parse

While it reads a program, the parser leaves a trace of what happened, in order.
The diagnostics of a parse are part of its trace.  Levels of nesting and the
fate of statements are part of it too, so that statements about a run can be
made from the trace alone.
-/

/-- What a level of nesting is entered for. -/
inductive Level where
  | operand
  | operator
  | block
  deriving Repr, DecidableEq

/-- One event in the trace of a parse. -/
inductive Event where
  /-- A statement of the program starts at a token. -/
  | started (token : Token)
  /-- A statement is recognised by its first word. -/
  | recognised (kind : TokenKind)
  /-- A level is entered, to some depth, with some tokens passed before. -/
  | entered (level : Level) (depth passed : Nat)
  /-- A diagnostic is recorded. -/
  | recorded (diagnostic : Diagnostic)
  /-- A statement ends that started with some tokens passed, kept or dropped. -/
  | closed (passed : Nat) (kept : Bool)
  /-- The end of the program is reached. -/
  | finished (statements diagnostics : Nat)
  deriving Repr, DecidableEq

namespace Event

/-- The diagnostic an event records. -/
def diagnostic? : Event → Option Diagnostic
  | .recorded diagnostic => some diagnostic
  | _ => none

/-- The diagnostics of a trace, in the order they were recorded. -/
def diagnostics (trace : List Event) : List Diagnostic :=
  trace.filterMap diagnostic?

/-- Diagnostics of consecutive traces follow each other. -/
@[simp]
theorem diagnostics_append
    (first second : List Event) :
    diagnostics (first ++ second) = diagnostics first ++ diagnostics second := by
  simp [diagnostics]

end Event

end Scriptlet
