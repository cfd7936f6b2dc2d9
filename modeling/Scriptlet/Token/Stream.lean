import Scriptlet.Token.Scanner

namespace Scriptlet

/-!
# Token streams

A token stream is what a parser reads: finitely many tokens, none of which ends
the input, and then the same end of input forever.
-/

/-- The tokens still ahead and the end of input behind them. -/
structure TokenStream where
  ahead : List Token
  last : Token
  ahead_kind_ne : ∀ token ∈ ahead, token.kind ≠ .endOfInput
  last_kind : last.kind = .endOfInput

namespace TokenStream

/-- The end of input behind a token list that has none of its own. -/
def impliedEnd : Token :=
  Token.endOfInput Span.null

/-- The tokens in front of the first end of input. -/
def beforeEnd (tokens : List Token) : List Token :=
  tokens.takeWhile fun token => token.kind != .endOfInput

/-- The first end of input of a token list. -/
def firstEnd? (tokens : List Token) : Option Token :=
  tokens.find? fun token => token.kind == .endOfInput

/-- The end of input of a token list: its first, or the implied one. -/
def endOf (tokens : List Token) : Token :=
  (firstEnd? tokens).getD impliedEnd

/-- No token in front of the first end of input ends the input. -/
theorem kind_ne_of_mem_beforeEnd
    {tokens : List Token}
    {token : Token}
    (member : token ∈ beforeEnd tokens) :
    token.kind ≠ .endOfInput := by
  have allBefore :
      (beforeEnd tokens).all (fun token => token.kind != .endOfInput) = true :=
    List.all_takeWhile
  simpa using List.all_eq_true.mp allBefore token member

/-- The end of input of a token list ends the input. -/
theorem kind_endOf (tokens : List Token) : (endOf tokens).kind = .endOfInput := by
  unfold endOf
  cases found : firstEnd? tokens with
  | none =>
      rfl
  | some token =>
      simpa using List.find?_some found

/-- Read a token list up to its first end of input. -/
def ofTokens (tokens : List Token) : TokenStream where
  ahead := beforeEnd tokens
  last := endOf tokens
  ahead_kind_ne := fun _ member => kind_ne_of_mem_beforeEnd member
  last_kind := kind_endOf tokens

/-- The token being looked at. -/
def current (stream : TokenStream) : Token :=
  stream.ahead.headD stream.last

/-- The stream without the token being looked at; the end of input stays. -/
def advance (stream : TokenStream) : TokenStream where
  ahead := stream.ahead.tail
  last := stream.last
  ahead_kind_ne := fun token member =>
    stream.ahead_kind_ne token (List.mem_of_mem_tail member)
  last_kind := stream.last_kind

/-- The token after the one being looked at. -/
def peek (stream : TokenStream) : Token :=
  stream.advance.current

/-- The number of tokens ahead of the end of input. -/
def remaining (stream : TokenStream) : Nat :=
  stream.ahead.length

/-- The first `count` tokens of a stream, its end of input repeated as needed. -/
def take : Nat → TokenStream → List Token
  | 0, _ =>
      []
  | count + 1, stream =>
      stream.current :: take count stream.advance

/-- The end of input is reached exactly when no token is ahead. -/
theorem current_kind_eq_endOfInput_iff
    (stream : TokenStream) :
    stream.current.kind = .endOfInput ↔ stream.ahead = [] := by
  unfold current
  cases shape : stream.ahead with
  | nil =>
      simp [stream.last_kind]
  | cons first rest =>
      have kindNe : first.kind ≠ .endOfInput :=
        stream.ahead_kind_ne first (by simp [shape])
      simp [kindNe]

end TokenStream

end Scriptlet
