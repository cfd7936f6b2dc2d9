import Scriptlet.Parse.Reader
import Scriptlet.Proofs.Parse.Following
import Scriptlet.Proofs.Token.Pulling

namespace Scriptlet

/-!
# Parsing straight from a source of tokens

A source supplies a stream when its calls hand out the tokens of the stream, one
after the other and past the end of input as well.  A scanner and a replay of the
scanned list come to their end in different ways, one by staying where its text
ends, the other by remembering the end of input.  Both supply the same stream.

A reader over a source holds two tokens and has pulled them from the source.  It
shows what a cursor in the stream shows, moving on keeps this up, and so every
routine of the parser follows the cursor from the reader.  The program that is
pulled is the one that is read from the stream, with the same trace.
-/

namespace TokenSource

/-- However many tokens are asked for, the source hands out those of the stream. -/
def Supplies
    {σ : Type}
    [TokenSource σ]
    (source : σ)
    (stream : TokenStream) :
    Prop :=
  ∀ count, handOut count source = stream.take count

section Supplying

variable {σ : Type} [TokenSource σ]

/-- A relation that every call keeps, with the right token, is one of supplying. -/
theorem supplies_of_related
    {related : σ → TokenStream → Prop}
    (calls :
      ∀ {source stream}, related source stream →
        (next source).1 = stream.current ∧ related (next source).2 stream.advance)
    {source : σ}
    {stream : TokenStream}
    (holds : related source stream) :
    Supplies source stream := by
  intro count
  induction count generalizing source stream with
  | zero =>
      rfl
  | succ count inductionHypothesis =>
      obtain ⟨same, goesOn⟩ := calls holds
      rw [handOut, TokenStream.take, same, inductionHypothesis goesOn]

variable {source : σ} {stream : TokenStream}

theorem Supplies.current
    (supplies : Supplies source stream) :
    (next source).1 = stream.current :=
  (List.cons.inj (supplies 1)).1

theorem Supplies.advance
    (supplies : Supplies source stream) :
    Supplies (next source).2 stream.advance :=
  fun count => (List.cons.inj (supplies (count + 1))).2

end Supplying

end TokenSource

open TokenSource

/-- A scanner at the start of a text supplies what is scanned from the text. -/
theorem PullableScanner.supplies_ofSource (source file : String) :
    Supplies (PullableScanner.ofSource source file)
      (TokenStream.ofTokens (tokenize source file)) := by
  have calls
      {scanner : PullableScanner}
      {stream : TokenStream}
      (feeds : scanner.1.Feeds source file stream) :
      (next scanner).1 = stream.current ∧
        (next scanner).2.1.Feeds source file stream.advance := by
    obtain ⟨after, handedOut, feedsAfter⟩ := feeds.next?
    rw [next_eq handedOut]
    exact ⟨rfl, feedsAfter⟩
  exact supplies_of_related calls (Scanner.feeds_ofSource source file)

namespace TokenStream

variable (token : Token) (rest : List Token)

theorem current_ofTokens_cons : (ofTokens (token :: rest)).current = token := by
  by_cases ends : token.kind = .endOfInput
  · simp [ofTokens, current, beforeEnd, endOf, firstEnd?, ends]
  · simp [ofTokens, current, beforeEnd, ends]

variable {token}

/-- Past a token that does not end the input, the rest of the list is ahead. -/
theorem advance_ofTokens_cons
    (inside : token.kind ≠ .endOfInput) :
    (ofTokens (token :: rest)).advance = ofTokens rest := by
  ext1
  · simp [ofTokens, advance, beforeEnd, inside]
  · simp [ofTokens, advance, endOf, firstEnd?, inside]

/-- A token that ends the input has nothing ahead, and comes last. -/
theorem ended_ofTokens_cons
    (ends : token.kind = .endOfInput) :
    (ofTokens (token :: rest)).ahead = [] ∧
      (ofTokens (token :: rest)).last = token := by
  simp [ofTokens, beforeEnd, endOf, firstEnd?, ends]

end TokenStream

/--
A replay has the tokens of the stream ahead, or has handed out its end of input
and remembers it.
-/
inductive Replay.Holds : Replay → TokenStream → Prop where
  | ahead
      {tokens : List Token} :
      Holds ⟨tokens, none⟩ (TokenStream.ofTokens tokens)
  | ended
      {tokens : List Token}
      {last : Token}
      {stream : TokenStream}
      (nothing : stream.ahead = [])
      (remembered : stream.last = last) :
      Holds ⟨tokens, some last⟩ stream

namespace Replay

/-- Every call hands out the token the stream is at, past the end as well. -/
theorem Holds.next
    {replay : Replay}
    {stream : TokenStream}
    (holds : replay.Holds stream) :
    replay.next.1 = stream.current ∧ replay.next.2.Holds stream.advance := by
  cases holds with
  | ended nothing remembered =>
      refine ⟨?_, .ended ?_ remembered⟩
      · simp [Replay.next, TokenStream.current, nothing, remembered]
      · simp [TokenStream.advance, nothing]
  | ahead =>
      rename_i tokens
      cases tokens with
      | nil =>
          exact ⟨rfl, .ended rfl rfl⟩
      | cons token rest =>
          refine ⟨(TokenStream.current_ofTokens_cons token rest).symm, ?_⟩
          by_cases ends : token.kind = .endOfInput
          · obtain ⟨nothing, last⟩ := TokenStream.ended_ofTokens_cons rest ends
            simp only [Replay.next, List.headD_cons, List.tail_cons, ends, ↓reduceIte]
            exact .ended (congrArg List.tail nothing) last
          · rw [TokenStream.advance_ofTokens_cons rest ends]
            simp only [Replay.next, List.headD_cons, List.tail_cons, ends, ↓reduceIte]
            exact .ahead

/-- A replay of a list supplies its tokens, up to the first end of input. -/
theorem supplies_ofTokens (tokens : List Token) :
    Supplies (Replay.ofTokens tokens) (TokenStream.ofTokens tokens) :=
  supplies_of_related Holds.next .ahead

end Replay

/--
The reader has the two tokens in view that a cursor has, and what it pulls next are
the tokens behind them.  Its loops may make a round for each token ahead.
-/
structure Reader.Shows
    {σ : Type}
    [TokenSource σ]
    (reader : Reader σ)
    (cursor : Cursor) :
    Prop where
  current : reader.current = cursor.stream.current
  peek : reader.peek = cursor.stream.peek
  supplies : Supplies reader.source cursor.stream.advance.advance
  passed : reader.passed = cursor.passed
  depth : reader.depth = cursor.depth
  rounds : cursor.stream.ahead.length ≤ reader.rounds

namespace Reader

variable {σ : Type} [TokenSource σ]

/-- The first two tokens of a source are those that the stream starts with. -/
theorem shows_ofSource
    {source : σ}
    {stream : TokenStream}
    {rounds : Nat}
    (supplies : Supplies source stream)
    (enough : stream.ahead.length ≤ rounds) :
    (Reader.ofSource rounds source).Shows (Cursor.ofStream stream) where
  current := supplies.current
  peek := supplies.advance.current
  supplies := supplies.advance.advance
  passed := rfl
  depth := rfl
  rounds := enough

/-- Pulling one more token is moving on by one, past the end of input as well. -/
theorem Shows.advance
    {reader : Reader σ}
    {cursor : Cursor}
    (shows : reader.Shows cursor) :
    reader.advance.Shows cursor.advance where
  current := by
    rw [← cursor.peek_eq_current_advance]
    exact shows.peek
  peek := by
    rw [TokenStream.peek, cursor.stream_advance]
    exact shows.supplies.current
  supplies := by
    rw [cursor.stream_advance]
    exact shows.supplies.advance
  passed := by
    simp only [Reader.advance, shows.current, shows.passed,
      TokenStream.current_kind_eq_endOfInput_iff]
    by_cases ended : cursor.stream.ahead = []
    · rw [if_pos ended, Cursor.advance_of_ended ended]
    · rw [if_neg ended, Cursor.StandsIn.passed_advance ended]
  depth := by
    rw [cursor.depth_advance]
    exact shows.depth
  rounds := by
    rw [cursor.ahead_advance, List.length_tail]
    exact Nat.le_trans (Nat.sub_le _ _) shows.rounds

/-- A reader shows what a cursor shows, whatever steps do with the two. -/
theorem showing : Place.Showing (@Reader.Shows σ _) where
  current shows := shows.current
  peek shows := shows.peek
  passed shows := shows.passed
  depth shows := shows.depth
  rounds shows := shows.rounds
  advance shows := shows.advance
  atDepth _ shows := { shows with depth := rfl }

end Reader

namespace Parsed

/-- What is pulled from a source is what is read from the stream it supplies. -/
theorem pulled_eq_ofStream
    {σ : Type}
    [TokenSource σ]
    {source : σ}
    {stream : TokenStream}
    {strictBlocks : Bool}
    {rounds : Nat}
    (supplies : Supplies source stream)
    (enough : stream.ahead.length ≤ rounds) :
    pulled strictBlocks rounds source = ofStream strictBlocks stream := by
  have ends :=
    Parse.follows_program Reader.showing strictBlocks _ _
      (Reader.shows_ofSource supplies enough)
  simp only [pulled, ofStream, ofPlace, ends.result?, ends.events]

/-- With a round for each token, a replayed list is read as its stream is. -/
theorem pulled_replay
    {strictBlocks : Bool}
    {tokens : List Token}
    {rounds : Nat}
    (enough : (TokenStream.beforeEnd tokens).length ≤ rounds) :
    pulled strictBlocks rounds (Replay.ofTokens tokens) =
      ofTokens strictBlocks tokens :=
  pulled_eq_ofStream (Replay.supplies_ofTokens tokens) enough

end Parsed

namespace TokenStream

/-- There are no more tokens before the first end of input than before any. -/
theorem length_beforeEnd_le
    {last : Token}
    (ends : last.kind = .endOfInput)
    (front others : List Token) :
    (beforeEnd (front ++ last :: others)).length ≤ front.length := by
  induction front with
  | nil =>
      simp [beforeEnd, ends]
  | cons token front inductionHypothesis =>
      by_cases inside : token.kind = .endOfInput
      · simp [beforeEnd, inside]
      · simpa [beforeEnd, inside] using inductionHypothesis

/-- What comes after an end of input is never replayed. -/
theorem ofTokens_append_end
    {last : Token}
    (ends : last.kind = .endOfInput)
    (front others : List Token) :
    ofTokens (front ++ last :: others) = ofTokens (front ++ [last]) := by
  ext1
  · simp only [ofTokens, beforeEnd, List.takeWhile_append]
    simp [ends]
  · simp [ofTokens, endOf, firstEnd?, List.find?_append, ends]

end TokenStream

namespace Parsed

/--
Pulling tokens from a scanner and replaying the scanned list are the same.  Any
number of calls hands out the same tokens, past the end of input as well.  Whether
its tokens are pulled from the scanner or from the replay, the program that is read
is the one that the list holds, with the same trace, and however many rounds beyond
one for each character the loops may make.  Every token list is replayed as it is
read, and nothing behind its first end of input has an influence.
-/
theorem pulled_as_replayed (source file : String) :
    (∀ count,
      handOut count (PullableScanner.ofSource source file) =
        handOut count (Replay.ofTokens (tokenize source file))) ∧
      (∀ strictBlocks more,
        pulled strictBlocks (source.length + more)
            (PullableScanner.ofSource source file) =
            ofTokens strictBlocks (tokenize source file) ∧
          pulled strictBlocks (source.length + more)
            (Replay.ofTokens (tokenize source file)) =
            ofTokens strictBlocks (tokenize source file)) ∧
      (∀ strictBlocks tokens more,
        pulled strictBlocks (tokens.length + more) (Replay.ofTokens tokens) =
          ofTokens strictBlocks tokens) ∧
      ∀ strictBlocks front value span others more,
        pulled strictBlocks (front.length + more)
            (Replay.ofTokens (front ++ ⟨.endOfInput, value, span⟩ :: others)) =
          pulled strictBlocks (front.length + more)
            (Replay.ofTokens (front ++ [⟨.endOfInput, value, span⟩])) := by
  have fromScanner := PullableScanner.supplies_ofSource source file
  have fromList := Replay.supplies_ofTokens (tokenize source file)
  refine ⟨fun count => ?_, fun strictBlocks more => ?_,
    fun strictBlocks tokens more => ?_,
    fun strictBlocks front value span others more => ?_⟩
  · rw [fromScanner count, fromList count]
  · have enough :
        (TokenStream.ofTokens (tokenize source file)).ahead.length ≤
          source.length + more :=
      Nat.le_add_right_of_le (Scanner.length_ahead_ofSource_le source file)
    exact ⟨pulled_eq_ofStream fromScanner enough,
      pulled_eq_ofStream fromList enough⟩
  · refine pulled_replay (Nat.le_add_right_of_le ?_)
    exact List.Sublist.length_le (List.takeWhile_sublist _)
  · have enough (others : List Token) :
        (TokenStream.beforeEnd
          (front ++ ⟨.endOfInput, value, span⟩ :: others)).length ≤
          front.length + more :=
      Nat.le_add_right_of_le (TokenStream.length_beforeEnd_le rfl front others)
    rw [pulled_replay (enough others), pulled_replay (enough []), ofTokens, ofTokens,
      TokenStream.ofTokens_append_end rfl]

end Parsed

end Scriptlet
