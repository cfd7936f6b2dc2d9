import Scriptlet.Parse.Program
import Scriptlet.Token.Source

namespace Scriptlet

/-!
# Reading from a source of tokens

A reader holds the two tokens in view and the source that further ones are pulled
from, one for each move.  It moves on past the end of input as well, and the source
is then asked again.  Nothing tells it how many tokens are left; the number of
rounds that its loops may make comes from outside.
-/

/--
A place in what a source hands out: the two tokens in view, the source behind them,
how many tokens were passed before, the levels that are open, and the number of
rounds that a loop may make.
-/
structure Reader (σ : Type) where
  current : Token
  peek : Token
  source : σ
  passed : Nat
  depth : Nat
  rounds : Nat

namespace Reader

variable {σ : Type} [TokenSource σ]

/-- Start with the first two tokens of a source. -/
def ofSource (rounds : Nat) (source : σ) : Reader σ :=
  let (current, afterFirst) := TokenSource.next source
  let (peek, afterSecond) := TokenSource.next afterFirst
  ⟨current, peek, afterSecond, 0, 0, rounds⟩

/-- Pull one more token; only what is not the end of input counts as passed. -/
def advance (reader : Reader σ) : Reader σ :=
  let (token, rest) := TokenSource.next reader.source
  { reader with
    current := reader.peek
    peek := token
    source := rest
    passed :=
      if reader.current.kind = .endOfInput then
        reader.passed
      else
        reader.passed + 1 }

instance : Place (Reader σ) where
  current := current
  peek := peek
  advance := advance
  passed := passed
  depth := depth
  atDepth reader depth := { reader with depth }
  rounds := rounds

end Reader

namespace Parsed

/-- Read a program by pulling its tokens from a source, one for each move. -/
def pulled
    {σ : Type}
    [TokenSource σ]
    (strictBlocks : Bool)
    (rounds : Nat)
    (source : σ) :
    Parsed :=
  ofPlace strictBlocks (Reader.ofSource rounds source)

end Parsed

end Scriptlet
