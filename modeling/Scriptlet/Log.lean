import Scriptlet.Heap
import Scriptlet.Parse.Event

namespace Scriptlet

/-!
# The log

Records that tell what the parser and the evaluation are doing, for those who
look for the cause of a surprise.
-/

/-- How much a log record matters. -/
inductive LogLevel where
  | debug
  | trace
  deriving Repr, DecidableEq

/-- One record of the log. -/
structure LogRecord where
  level : LogLevel
  message : String
  deriving Repr, DecidableEq

/-- The name of a level. -/
def LogLevel.name : LogLevel → String
  | .debug => "DEBUG"
  | .trace => "TRACE"

/-- A record as one line. -/
def LogRecord.line (record : LogRecord) : String :=
  record.level.name ++ " " ++ record.message

/-- The log record of a parse event, for the events that are logged. -/
def Event.logRecord? : Event → Option LogRecord
  | .started token =>
      some ⟨.trace, "statement starting at " ++ token.listing⟩
  | .recognised kind =>
      some ⟨.trace, "dispatching " ++ kind.name ++ " statement"⟩
  | .entered .. =>
      none
  | .recorded diagnostic =>
      some
        ⟨.debug,
          "parse error at " ++ toString diagnostic.position.offset.toNat ++
            ": " ++ diagnostic.message⟩
  | .closed .. =>
      none
  | .finished statements diagnostics =>
      some
        ⟨.debug,
          "parsed " ++ toString statements ++ " statements with " ++
            toString diagnostics ++ " errors"⟩

/-- The log record of a call. -/
def Call.logRecord (call : Call) : LogRecord :=
  ⟨.trace,
    "calling " ++ call.closure.text ++ " with " ++
      toString call.arguments ++ " arguments"⟩

end Scriptlet
