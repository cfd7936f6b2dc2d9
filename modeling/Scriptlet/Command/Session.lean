import Scriptlet.Evaluation
import Scriptlet.Parse.Program
import Scriptlet.Report

namespace Scriptlet

/-!
# Sessions

A session evaluates one source text after the other in one scope, so that later
texts see what earlier ones have bound.  A text with diagnostics is not
evaluated.
-/

/-- The most calls that may be active at a time. -/
def callLimit : Nat :=
  1000063

/-- The heap of a session and the scope its texts are evaluated in. -/
structure Session where
  heap : Heap
  scope : ScopeId

/-- What became of a text entered into a session. -/
inductive Entered where
  /-- It was not evaluated. -/
  | rejected (diagnostics : List Diagnostic)
  /-- Its evaluation ended. -/
  | evaluated (result : Except Failure Value)

namespace Session

/-- A session in which nothing is bound. -/
def new : Session :=
  let created := Heap.empty.create none
  ⟨created.2, created.1⟩

/-- Evaluate a program in a session. -/
def evaluate (session : Session) (program : Program) :
    Evaluation.Outcome Heap Value × Session :=
  let outcome := program.evaluate callLimit session.scope session.heap
  (outcome, { session with heap := outcome.heap })

/-- Evaluate a single statement in a session. -/
def evaluateStatement (session : Session) (statement : Statement) :
    Evaluation.Outcome Heap Value × Session :=
  let outcome :=
    statement.evaluate (Evaluation.applyWithin callLimit)
      session.scope session.heap
  (outcome, { session with heap := outcome.heap })

/-- Look a name up in a session. -/
def lookup? (session : Session) (name : String) : Option Value :=
  session.heap.lookup? session.scope name

/-- Read a source text and evaluate it if it has no diagnostics. -/
def enter
    (session : Session)
    (strictBlocks : Bool)
    (source file : String) :
    Entered × Session :=
  let parsed := Parsed.ofSource strictBlocks source file
  if parsed.diagnostics.isEmpty then
    let evaluated := session.evaluate parsed.program
    (.evaluated evaluated.1.result, evaluated.2)
  else
    (.rejected parsed.diagnostics, session)

end Session

end Scriptlet
