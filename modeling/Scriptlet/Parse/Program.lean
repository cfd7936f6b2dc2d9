import Scriptlet.Parse.Nesting

namespace Scriptlet

/-!
# Reading programs

A program is read statement by statement up to the end of input.  Statements
that cannot be read are dropped, each with a diagnostic, and reading goes on
with the next one; so a program with diagnostics is a partial one.
-/

namespace Parse

variable {σ : Type} [Place σ]

/-- At most `count` statements of a program, each starting without nesting. -/
def programStatements (strictBlocks : Bool) : Nat → Step σ (List Statement)
  | 0 =>
      return []
  | count + 1 => do
      let token ← current
      if token.kind = .endOfInput then
        return []
      else
        emit (.started token)
        setDepth 0
        let statement? ← attempt (withRoutines strictBlocks statement)
        let _ ← advance
        (statement?.toList ++ ·) <$>
          andSoOn count (programStatements strictBlocks count)

/-- Close a program: tell how many statements and diagnostics it has. -/
def finishing (step : Step σ (List Statement)) : Step σ Program :=
  fun start =>
    let outcome := step start
    ⟨outcome.result?.map Program.mk,
      outcome.cursor,
      outcome.events ++
        [ .finished (outcome.result?.getD []).length
            (Event.diagnostics outcome.events).length ]⟩

/-- A program, up to the end of input. -/
def program (strictBlocks : Bool) : Step σ Program :=
  finishing do
    programStatements strictBlocks (← rounds)

end Parse

/-- A program read from tokens, with the trace of reading it. -/
structure Parsed where
  program : Program
  trace : List Event

namespace Parsed

/-- The diagnostics recorded while reading. -/
def diagnostics (parsed : Parsed) : List Diagnostic :=
  Event.diagnostics parsed.trace

/-- The messages of the diagnostics. -/
def messages (parsed : Parsed) : List String :=
  parsed.diagnostics.map Diagnostic.message

/-- Read a program from some place on. -/
def ofPlace {σ : Type} [Place σ] (strictBlocks : Bool) (place : σ) : Parsed :=
  let outcome := Parse.program strictBlocks place
  ⟨outcome.result?.getD ⟨[]⟩, outcome.events⟩

/-- Read a program from a token stream. -/
def ofStream (strictBlocks : Bool) (stream : TokenStream) : Parsed :=
  ofPlace strictBlocks (Cursor.ofStream stream)

/-- Read a program from a token list. -/
def ofTokens (strictBlocks : Bool) (tokens : List Token) : Parsed :=
  ofStream strictBlocks (TokenStream.ofTokens tokens)

/-- Read a program from source text. -/
def ofSource (strictBlocks : Bool) (source file : String) : Parsed :=
  ofTokens strictBlocks (tokenize source file)

end Parsed

end Scriptlet
