import Scriptlet.Command.FileTree
import Scriptlet.Command.Invocation
import Scriptlet.Command.Session

namespace Scriptlet

/-!
# Answers of the command line

What a command prints and which exit code it ends with, as a function of the
files and of standard input.
-/

/-- What a command prints, and its exit code. -/
structure Answer where
  code : Nat
  output : String
  errors : String
  deriving Repr, DecidableEq

/-- Lines of text, each with its newline. -/
def joinLines (lines : List String) : String :=
  String.join (lines.map fun line => line ++ "\n")

namespace Answer

/-- The exit code of success. -/
def successCode : Nat :=
  0

/-- The exit code of failure. -/
def failureCode : Nat :=
  1

/-- The exit code for arguments that ask for nothing. -/
def usageCode : Nat :=
  2

/-- Succeed with some lines of output. -/
def success (lines : List String) : Answer :=
  ⟨successCode, joinLines lines, ""⟩

/-- Fail with some lines of errors. -/
def failure (lines : List String) : Answer :=
  ⟨failureCode, "", joinLines lines⟩

/-- The reports on some diagnostics of a source text. -/
def reports
    (style : Style)
    (content : String)
    (diagnostics : List Diagnostic) :
    List String :=
  diagnostics.flatMap fun diagnostic => diagnostic.report style content

/-- The lines that report a failed evaluation of a source text. -/
def failureLines (style : Style) (content : String) : Failure → List String
  | .fault diagnostic => diagnostic.report style content
  | .tooManyCalls => [style.errorLine "too many active calls"]

/-- The lines that show a value; `null` is not shown. -/
def valueLines : Value → List String
  | .null => []
  | value => [value.text]

/-- List the tokens of a source text. -/
def ofTokens (content file : String) : Answer :=
  success ((tokenize content file).map Token.listing)

/-- Print the canonical form of a source text. -/
def ofParse
    (style : Style)
    (strictBlocks : Bool)
    (content file : String) :
    Answer :=
  let parsed := Parsed.ofSource strictBlocks content file
  if parsed.diagnostics.isEmpty then
    success [parsed.program.canonical]
  else
    failure (reports style content parsed.diagnostics)

/-- Evaluate a source text and print its value. -/
def ofRun
    (style : Style)
    (strictBlocks : Bool)
    (content file : String) :
    Answer :=
  match (Session.new.enter strictBlocks content file).1 with
  | .rejected diagnostics =>
      failure (reports style content diagnostics)
  | .evaluated (.ok value) =>
      success (valueLines value)
  | .evaluated (.error failed) =>
      failure (failureLines style content failed)

/-- Read a file as text and answer with it, or tell why it cannot be read. -/
def withFile
    (style : Style)
    (read : String → Except ReadFailure ByteArray)
    (path : String)
    (answer : String → String → Answer) :
    Answer :=
  match (read path).bind decodeText with
  | .ok content =>
      answer content (Path.fileName path)
  | .error reason =>
      failure
        [ style.errorLine
            ("could not read " ++ path ++ ": " ++ reason.reason) ]

end Answer

/-- What one line entered interactively prints. -/
structure LineAnswer where
  output : List String
  errors : List String
  deriving Repr, DecidableEq

namespace Session

/-- The prompt for a line. -/
def prompt : String :=
  ">> "

/-- Evaluate one line of an interactive session and tell what it prints. -/
def answerLine
    (session : Session)
    (style : Style)
    (strictBlocks : Bool)
    (line : String) :
    LineAnswer × Session :=
  let entered := session.enter strictBlocks line Scanner.defaultFile
  let answer : LineAnswer :=
    match entered.1 with
    | .rejected diagnostics =>
        ⟨[], Answer.reports style line diagnostics⟩
    | .evaluated (.ok value) =>
        ⟨Answer.valueLines value, []⟩
    | .evaluated (.error failed) =>
        ⟨[], Answer.failureLines style line failed⟩
  (answer, entered.2)

/-- Put a byte in front of bytes given in lines. -/
def consToInput (first : UInt8) (lines : List (List UInt8)) : List (List UInt8) :=
  if first = 10 then
    [first] :: lines
  else
    match lines with
    | [] =>
        [[first]]
    | line :: others =>
        (first :: line) :: others

/-- Bytes in lines, each with the newline that ends it. -/
def splitInput (bytes : List UInt8) : List (List UInt8) :=
  bytes.foldr consToInput []

/--
The answer to the lines of an interactive session.  It ends with the input, or
with a line that is not text.
-/
def answerLines
    (style : Style)
    (strictBlocks : Bool) :
    List (List UInt8) → Session → Answer
  | [], _ =>
      ⟨Answer.successCode, prompt, ""⟩
  | bytes :: rest, session =>
      match decodeText ⟨bytes.toArray⟩ with
      | .error reason =>
          ⟨Answer.failureCode, prompt,
            joinLines [style.errorLine reason.reason]⟩
      | .ok line =>
          let answered := session.answerLine style strictBlocks line
          let others := answerLines style strictBlocks rest answered.2
          ⟨others.code,
            prompt ++ joinLines answered.1.output ++ others.output,
            joinLines answered.1.errors ++ others.errors⟩

end Session

namespace Invocation

/-- The answer to an invocation, given how files are read and standard input. -/
def answer
    (style : Style)
    (read : String → Except ReadFailure ByteArray)
    (input : ByteArray)
    (invocation : Invocation) :
    Answer :=
  match invocation.command with
  | .tokens path =>
      Answer.withFile style read path Answer.ofTokens
  | .parse path =>
      Answer.withFile style read path
        (Answer.ofParse style invocation.strictBlocks)
  | .run path =>
      Answer.withFile style read path
        (Answer.ofRun style invocation.strictBlocks)
  | .repl =>
      Session.answerLines style invocation.strictBlocks
        (Session.splitInput input.toList) Session.new

end Invocation

end Scriptlet
