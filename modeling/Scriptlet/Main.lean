import Scriptlet.Command.Answer

namespace Scriptlet

/-!
# The command line

Reads arguments, files and standard input, and prints what the commands
answer.  Lines of an interactive session are answered as they come in.
-/

/-- Read a file from disk. -/
def readFile (path : String) : IO (Except ReadFailure ByteArray) := do
  try
    return .ok (← IO.FS.readBinFile path)
  catch failure =>
    match failure with
    | .noFileOrDirectory .. => return .error .notFound
    | .inappropriateType _ code _ =>
        return .error (if code = 21 then .isADirectory else .notADirectory)
    | other => return .error (.other (toString other))

/-- Read one line, newline included; there is none at the end of input. -/
partial def readLine (input : IO.FS.Stream) : IO ByteArray := do
  let byte ← input.read 1
  if byte.isEmpty || byte == ⟨#[10]⟩ then
    return byte
  else
    return byte ++ (← readLine input)

/-- Answer lines as they come in, until the input ends or is not text. -/
partial def interact
    (style : Style)
    (strictBlocks : Bool)
    (session : Session) :
    IO UInt32 := do
  let output ← IO.getStdout
  let errors ← IO.getStderr
  output.putStr Session.prompt
  output.flush
  let bytes ← readLine (← IO.getStdin)
  if bytes.isEmpty then
    return UInt32.ofNat Answer.successCode
  match decodeText bytes with
  | .error reason =>
      errors.putStr (joinLines [style.errorLine reason.reason])
      return UInt32.ofNat Answer.failureCode
  | .ok line =>
      let answered := session.answerLine style strictBlocks line
      output.putStr (joinLines answered.1.output)
      errors.putStr (joinLines answered.1.errors)
      interact style strictBlocks answered.2

/-- Answer an invocation that works on a file. -/
def answerFile
    (style : Style)
    (invocation : Invocation)
    (path : String) :
    IO UInt32 := do
  let content ← readFile path
  let answer := invocation.answer style (fun _ => content) ByteArray.empty
  (← IO.getStdout).putStr answer.output
  (← IO.getStderr).putStr answer.errors
  return UInt32.ofNat answer.code

/-- What is printed for arguments that ask for nothing. -/
def usage : String :=
  "usage: scriptlet [--strict-blocks] (tokens | parse | run) <file>\n" ++
    "       scriptlet [--strict-blocks] repl\n"

end Scriptlet

open Scriptlet in
/-- Run the command that the arguments ask for. -/
def main (arguments : List String) : IO UInt32 := do
  let forced ← IO.getEnv "CLICOLOR_FORCE"
  let style : Style :=
    if forced.isSome && forced != some "0" then .coloured else .plain
  match Invocation.ofArguments? arguments with
  | none =>
      (← IO.getStderr).putStr usage
      return UInt32.ofNat Answer.usageCode
  | some invocation =>
      match invocation.command with
      | .repl => interact style invocation.strictBlocks Session.new
      | .tokens path => answerFile style invocation path
      | .parse path => answerFile style invocation path
      | .run path => answerFile style invocation path
