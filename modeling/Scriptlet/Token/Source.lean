import Scriptlet.Token.Stream

namespace Scriptlet

/-!
# Sources of tokens

A source hands out one token per call and goes on doing so past the end of input.
There are two kinds.  A scanner reads its text on demand.  A replay hands out the
tokens of a list and remembers the first end of input that it meets.
-/

/-- What hands out one token per call. -/
class TokenSource (σ : Type) where
  next : σ → Token × σ

namespace TokenSource

/-- The first `count` tokens that a source hands out. -/
def handOut {σ : Type} [TokenSource σ] : Nat → σ → List Token
  | 0, _ =>
      []
  | count + 1, source =>
      (next source).1 :: handOut count (next source).2

end TokenSource

namespace Scanner

/-- The scanner does not stand inside a character. -/
def CanRead (scanner : Scanner) : Prop :=
  scanner.next?.isSome = true

/-- Where no byte has been moved on, there is a next token. -/
theorem canRead_of_moved_eq_zero
    {scanner : Scanner}
    (unmoved : scanner.moved = 0) :
    scanner.CanRead := by
  simp [CanRead, next?, unmoved, Text.dropBytes?]

/-- The scanner behind the first token of a text has not been moved on. -/
theorem moved_firstToken
    (file : String)
    (count offset : Nat)
    (characters : List Char) :
    (firstToken file count offset characters).2.moved = 0 := by
  induction count generalizing offset characters with
  | zero =>
      rfl
  | succ count inductionHypothesis =>
      rw [firstToken]
      split
      · rfl
      · split
        · rfl
        · exact inductionHypothesis _ _

/-- Behind a token that was handed out, there is a next one. -/
theorem canRead_of_next?
    {scanner rest : Scanner}
    {token : Token}
    (handedOut : scanner.next? = some (token, rest)) :
    rest.CanRead := by
  have known := handedOut
  unfold next? at known
  split at known
  · rename_i characters _
    obtain rfl : (firstToken _ _ _ characters).2 = rest :=
      congrArg Prod.snd (Option.some.inj known)
    exact canRead_of_moved_eq_zero (moved_firstToken ..)
  · split at known
    · obtain rfl : scanner = rest :=
        congrArg Prod.snd (Option.some.inj known)
      simp [CanRead, handedOut]
    · cases known

end Scanner

/-- A scanner from which a token can be pulled, now and ever after. -/
def PullableScanner : Type :=
  { scanner : Scanner // scanner.CanRead }

namespace PullableScanner

/-- Start reading a text at its first byte. -/
def ofSource (source file : String) : PullableScanner :=
  ⟨Scanner.ofSource source file, Scanner.canRead_of_moved_eq_zero rfl⟩

instance : TokenSource PullableScanner where
  next scanner :=
    match handedOut : scanner.1.next? with
    | some (token, rest) =>
        (token, ⟨rest, Scanner.canRead_of_next? handedOut⟩)
    | none =>
        absurd scanner.2 (by simp [Scanner.CanRead, handedOut])

/-- The token that is pulled is the one that the scanner hands out. -/
theorem next_eq
    {scanner : PullableScanner}
    {token : Token}
    {rest : Scanner}
    (handedOut : scanner.1.next? = some (token, rest)) :
    TokenSource.next scanner =
      (token, ⟨rest, Scanner.canRead_of_next? handedOut⟩) := by
  simp only [TokenSource.next]
  split
  · rename_i _ _ known
    obtain ⟨rfl, rfl⟩ : _ ∧ _ := by
      simpa [handedOut] using known
    rfl
  · rename_i known
    rw [handedOut] at known
    cases known

end PullableScanner

/-- The tokens of a list still to be handed out, and the end of input once met. -/
structure Replay where
  ahead : List Token
  last? : Option Token
  deriving Repr, DecidableEq

namespace Replay

/-- Hand out the tokens of a list from its first one on. -/
def ofTokens (tokens : List Token) : Replay :=
  ⟨tokens, none⟩

/--
Hand out the next token.  Once an end of input has been handed out, it is handed
out again forever.  A list that runs out before has one implied.
-/
def next (replay : Replay) : Token × Replay :=
  match replay.last? with
  | some last =>
      (last, replay)
  | none =>
      let token := replay.ahead.headD TokenStream.impliedEnd
      let met? := if token.kind = .endOfInput then some token else none
      (token, ⟨replay.ahead.tail, met?⟩)

instance : TokenSource Replay where
  next := next

end Replay

end Scriptlet
