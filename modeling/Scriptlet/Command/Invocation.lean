namespace Scriptlet

/-!
# Invocations

What the arguments of the command line ask for.  A subcommand names what to do,
with the file to do it with; a flag before or after it makes blocks strict.
Arguments that fit nothing ask for nothing.
-/

/-- What to do. -/
inductive Command where
  /-- List the tokens of a file. -/
  | tokens (path : String)
  /-- Print the canonical form of a file. -/
  | parse (path : String)
  /-- Evaluate a file. -/
  | run (path : String)
  /-- Evaluate lines as they come in. -/
  | repl
  deriving Repr, DecidableEq

/-- A command and whether blocks are strict. -/
structure Invocation where
  strictBlocks : Bool
  command : Command
  deriving Repr, DecidableEq

namespace Invocation

/-- The flag that makes blocks strict. -/
def strictFlag : String :=
  "--strict-blocks"

/-- The argument after which no argument is a flag. -/
def flagsEnd : String :=
  "--"

/-- Arguments that start with a dash are flags, a dash alone is not. -/
def looksLikeFlag (argument : String) : Bool :=
  match argument.toList with
  | '-' :: _ :: _ => true
  | _ => false

/--
Separate the strictness flag from the other arguments.  The flag may be given
once; there is no other one.
-/
def separate? : List String → Option (Bool × List String)
  | [] =>
      some (false, [])
  | argument :: rest =>
      if argument = flagsEnd then
        some (false, rest)
      else if argument = strictFlag then
        match separate? rest with
        | some (false, others) =>
            some (true, others)
        | _ =>
            none
      else if looksLikeFlag argument then
        none
      else
        match separate? rest with
        | some (strict, others) =>
            some (strict, argument :: others)
        | none =>
            none

/-- The command a subcommand and its arguments stand for. -/
def commandOf? : String → List String → Option Command
  | "tokens", [path] => some (.tokens path)
  | "parse", [path] => some (.parse path)
  | "run", [path] => some (.run path)
  | "repl", [] => some .repl
  | _, _ => none

/-- The invocation of a subcommand, after what came before it. -/
def ofSubcommand?
    (strictBefore : Bool)
    (subcommand : String)
    (rest : List String) :
    Option Invocation :=
  match separate? rest with
  | none =>
      none
  | some (strictAfter, others) =>
      (commandOf? subcommand others).map fun command =>
        ⟨strictBefore || strictAfter, command⟩

/-- What a list of arguments asks for. -/
def ofArguments? : List String → Option Invocation
  | [] =>
      none
  | first :: rest =>
      if first = strictFlag then
        match rest with
        | [] =>
            none
        | subcommand :: others =>
            ofSubcommand? true subcommand others
      else
        ofSubcommand? false first rest

end Invocation

end Scriptlet
