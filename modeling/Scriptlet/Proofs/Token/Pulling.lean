import Scriptlet.Proofs.Token.Scanning

namespace Scriptlet

/-!
# Pulling tokens from a scanner

A scanner hands out the tokens of its text one call after the other, and then
the end of input forever.  What a call does depends only on the text that is
left and on where it starts, so the state of a scanner is described by these
two.  From there on, the calls hand out exactly what a replay of the scanned
token list does.
-/

/-- The tokens of a text that starts at a byte offset, without the end of input. -/
def Piece.tokensFrom
    (file : String)
    (offset : Nat)
    (characters : List Char) :
    List Token :=
  (cutUpTo characters.length offset characters).filterMap (token? file)

/-- The end of input behind a text that starts at a byte offset. -/
def Piece.endFrom
    (file : String)
    (offset : Nat)
    (characters : List Char) :
    Token :=
  Token.endOfInput (Span.ofOffset file (offset + Text.byteSize characters) 0)

section Cutting

variable
  {file : String}
  {offset count : Nat}
  {characters rest : List Char}
  {piece : Piece}

/-- More cuts than characters make no more pieces. -/
theorem Piece.cutUpTo_of_length_le
    (enough : characters.length ≤ count) :
    cutUpTo count offset characters =
      cutUpTo characters.length offset characters := by
  induction count using Nat.strongRecOn generalizing offset characters with
  | ind count inductionHypothesis =>
      cases characters with
      | nil =>
          cases count with
          | zero =>
              rfl
          | succ count =>
              rfl
      | cons character others =>
          obtain ⟨fewer, rfl⟩ : ∃ fewer, count = fewer + 1 :=
            ⟨count - 1, by simp at enough; omega⟩
          have shorter :=
            (cut?_eq_some
              (rfl : cut? offset (character :: others) = some _)).2
          simp only [List.length_cons] at enough shorter ⊢
          simp only [cutUpTo, cut?, withStackFor_eq]
          rw [inductionHypothesis fewer (Nat.lt_succ_self fewer) (by omega),
            inductionHypothesis others.length (by omega) (by omega)]

/-- Cutting off a piece leaves the pieces of the rest. -/
theorem Piece.cutUpTo_of_cut
    (found : cut? offset characters = some (piece, rest)) :
    cutUpTo characters.length offset characters =
      piece :: cutUpTo rest.length piece.stop rest := by
  cases characters with
  | nil =>
      contradiction
  | cons character others =>
      have shorter := (cut?_eq_some found).2
      rw [List.length_cons] at shorter ⊢
      simp only [cutUpTo, found, withStackFor_eq]
      rw [cutUpTo_of_length_le (Nat.le_of_lt_succ shorter)]

/-- A piece stands where the text stood from which it was cut off. -/
theorem Piece.offset_of_cut
    (found : cut? offset characters = some (piece, rest)) :
    piece.offset = offset := by
  cases characters with
  | nil =>
      contradiction
  | cons character others =>
      simp only [cut?, Option.some.injEq, Prod.mk.injEq] at found
      rw [← found.1, first_eq]

/-- What is left after a cut starts where the piece stops. -/
theorem Piece.stop_of_cut
    (found : cut? offset characters = some (piece, rest)) :
    piece.stop + Text.byteSize rest = offset + Text.byteSize characters := by
  rw [stop, offset_of_cut found, size, ← (cut?_eq_some found).1,
    Text.byteSize_append, Nat.add_assoc]

theorem Piece.tokensFrom_of_cut
    (file : String)
    (found : cut? offset characters = some (piece, rest)) :
    tokensFrom file offset characters =
      (piece.token? file).toList ++ tokensFrom file piece.stop rest := by
  rw [tokensFrom, cutUpTo_of_cut found, List.filterMap_cons]
  cases piece.token? file with
  | none =>
      rfl
  | some token =>
      rfl

/-- No token of a text ends the input. -/
theorem Piece.kind_of_mem_tokensFrom
    {token : Token}
    (member : token ∈ tokensFrom file offset characters) :
    token.kind ≠ .endOfInput := by
  obtain ⟨piece, inside, made⟩ := List.mem_filterMap.mp member
  obtain ⟨⟨kind, text⟩, reading, rfl⟩ := Option.map_eq_some_iff.mp made
  have admitted := admits_of_mem_cutUpTo inside reading
  rintro rfl
  contradiction

theorem Piece.length_tokensFrom_le
    (file : String)
    (offset : Nat)
    (characters : List Char) :
    (tokensFrom file offset characters).length ≤ characters.length := by
  have short (count : Nat) :
      (cutUpTo count offset characters).length ≤ count := by
    induction count generalizing offset characters with
    | zero =>
        exact Nat.le_refl 0
    | succ count inductionHypothesis =>
        cases found : cut? offset characters with
        | none =>
            simp [cutUpTo, found]
        | some cutOff =>
            simp only [cutUpTo, found, withStackFor_eq, List.length_cons]
            exact Nat.succ_le_succ (inductionHypothesis _ _)
  exact Nat.le_trans (List.length_filterMap_le _ _) (short _)

end Cutting

/-- The tokens of a source text are those from its first byte on, and the end. -/
theorem tokenize_eq (source file : String) :
    tokenize source file =
      Piece.tokensFrom file 0 source.toList ++
        [Piece.endFrom file 0 source.toList] := by
  rw [tokenize, Piece.endFrom, Nat.zero_add]
  rfl

/-- A replay of the tokens of a source text ends with its end of input. -/
theorem TokenStream.last_tokenize (source file : String) :
    (ofTokens (tokenize source file)).last =
      Piece.endFrom file 0 source.toList := by
  have inside :
      ∀ token ∈ Piece.tokensFrom file 0 source.toList,
        ¬ (token.kind == .endOfInput) = true := by
    intro token member
    simpa using Piece.kind_of_mem_tokensFrom member
  have first :
      firstEnd? (tokenize source file) =
        some (Piece.endFrom file 0 source.toList) := by
    rw [tokenize_eq, firstEnd?, List.find?_append,
      List.find?_eq_none.mpr inside]
    rfl
  simp [ofTokens, endOf, first]

namespace Scanner

/-- The scanner has the text ahead, which starts at the byte offset. -/
structure Before
    (scanner : Scanner)
    (file : String)
    (offset : Nat)
    (characters : List Char) :
    Prop where
  ahead : scanner.ahead = characters
  moved : scanner.moved = 0
  offset : scanner.offset = offset
  file : scanner.file = file
  length_le : characters.length ≤ scanner.bound

theorem before_ofSource (source file : String) :
    (ofSource source file).Before file 0 source.toList :=
  ⟨rfl, rfl, rfl, rfl, Nat.le_of_eq String.length_toList⟩

variable
  {scanner : Scanner}
  {file : String}
  {offset : Nat}
  {characters : List Char}

/--
What one call does.  There is a token left, and the scanner is behind it, or
there is none, and the scanner is at its end.
-/
inductive Hands
    (file : String)
    (offset : Nat)
    (characters : List Char) :
    Token × Scanner → Prop where
  | token
      {token : Token}
      {after : Scanner}
      {stop : Nat}
      {front rest : List Char}
      (before : after.Before file stop rest)
      (whole : front ++ rest = characters)
      (stops : stop = offset + Text.byteSize front)
      (tokens :
        Piece.tokensFrom file offset characters =
          token :: Piece.tokensFrom file stop rest) :
      Hands file offset characters (token, after)
  | finish
      {after : Scanner}
      (before :
        after.Before file (offset + Text.byteSize characters) [])
      (tokens : Piece.tokensFrom file offset characters = []) :
      Hands file offset characters
        (Piece.endFrom file offset characters, after)

/-- Pieces that stand for no token make no difference to the call. -/
theorem Hands.skip
    {piece : Piece}
    {rest : List Char}
    {handed : Token × Scanner}
    (found : Piece.cut? offset characters = some (piece, rest))
    (silent : piece.token? file = none)
    (later : Hands file piece.stop rest handed) :
    Hands file offset characters handed := by
  have tokens := Piece.tokensFrom_of_cut file found
  rw [silent, Option.toList_none, List.nil_append] at tokens
  have whole := (Piece.cut?_eq_some found).1
  have stops := Piece.stop_of_cut found
  cases later with
  | token before laterWhole laterStops laterTokens =>
      rename_i token after stop front others
      have wholeFront : piece.lexeme ++ front ++ others = characters := by
        rw [List.append_assoc, laterWhole, whole]
      refine .token before wholeFront ?_ (tokens.trans laterTokens)
      rw [laterStops, Piece.stop, Piece.offset_of_cut found, Piece.size,
        Text.byteSize_append, Nat.add_assoc]
  | finish before laterTokens =>
      rw [stops] at before
      have same :
          Piece.endFrom file piece.stop rest =
            Piece.endFrom file offset characters := by
        rw [Piece.endFrom, Piece.endFrom, stops]
      rw [same]
      exact .finish before (tokens.trans laterTokens)

/-- The first token is found among as many pieces as there are characters. -/
theorem hands_firstToken
    {count : Nat}
    (enough : characters.length ≤ count) :
    Hands file offset characters (firstToken file count offset characters) := by
  induction count generalizing offset characters with
  | zero =>
      obtain rfl := List.length_eq_zero_iff.mp (Nat.le_zero.mp enough)
      exact .finish ⟨rfl, rfl, rfl, rfl, Nat.le_refl _⟩ rfl
  | succ count inductionHypothesis =>
      cases found : Piece.cut? offset characters with
      | none =>
          cases characters with
          | nil =>
              exact .finish ⟨rfl, rfl, rfl, rfl, Nat.le_refl _⟩ rfl
          | cons character others =>
              contradiction
      | some cutOff =>
          obtain ⟨piece, rest⟩ := cutOff
          obtain ⟨whole, shorter⟩ := Piece.cut?_eq_some found
          have enoughLater : rest.length ≤ count := by
            omega
          simp only [firstToken, found]
          cases made : piece.token? file with
          | none =>
              exact .skip found made (inductionHypothesis enoughLater)
          | some token =>
              have tokens := Piece.tokensFrom_of_cut file found
              rw [made, Option.toList_some, List.singleton_append] at tokens
              refine .token ⟨rfl, rfl, rfl, rfl, enoughLater⟩ whole ?_ tokens
              rw [Piece.stop, Piece.offset_of_cut found, Piece.size]

/-- Every call hands out a token. -/
theorem next?_of_before
    (before : scanner.Before file offset characters) :
    ∃ handed,
      scanner.next? = some handed ∧ Hands file offset characters handed := by
  obtain ⟨ahead, moved, rfl, rfl, length_le⟩ := before
  refine ⟨_, ?_, hands_firstToken length_le⟩
  simp [next?, ahead, moved, Text.dropBytes?]

/--
The scanner stands at a character of the source text, and the stream holds what
is scanned from there on.
-/
def Feeds
    (source file : String)
    (scanner : Scanner)
    (stream : TokenStream) :
    Prop :=
  ∃ front characters,
    front ++ characters = source.toList ∧
      scanner.Before file (Text.byteSize front) characters ∧
      stream.ahead =
        Piece.tokensFrom file (Text.byteSize front) characters ∧
      stream.last = Piece.endFrom file 0 source.toList

section Feeding

variable {source : String} {stream : TokenStream}

/-- A new scanner feeds what a replay of the scanned tokens holds. -/
theorem feeds_ofSource (source file : String) :
    Feeds source file (ofSource source file)
      (TokenStream.ofTokens (tokenize source file)) := by
  refine ⟨[], source.toList, rfl, before_ofSource source file, ?_, ?_⟩
  · exact Token.beforeEnd_tokenize source file
  · exact TokenStream.last_tokenize source file

/-- The scanner can cut the source text where it stands. -/
theorem Feeds.dropBytes?
    (feeds : Feeds source file scanner stream) :
    Text.dropBytes? source.toList scanner.offset = some scanner.ahead := by
  obtain ⟨front, characters, whole, before, -, -⟩ := feeds
  rw [← whole, before.offset, before.ahead, Text.dropBytes?_append]

/-- Every call hands out the token the stream is at, past the end as well. -/
theorem Feeds.next?
    (feeds : Feeds source file scanner stream) :
    ∃ after,
      scanner.next? = some (stream.current, after) ∧
        Feeds source file after stream.advance := by
  obtain ⟨front, characters, whole, before, ahead, last⟩ := feeds
  obtain ⟨handed, called, hands⟩ := next?_of_before before
  cases hands with
  | token afterBefore characterWhole stops tokens =>
      rename_i token after stop passed rest
      have shape := ahead.trans tokens
      have sourceWhole : front ++ passed ++ rest = source.toList := by
        rw [List.append_assoc, characterWhole, whole]
      rw [stops, ← Text.byteSize_append] at afterBefore shape
      refine ⟨after, ?_, front ++ passed, rest, sourceWhole, afterBefore, ?_,
        last⟩
      · rw [called, TokenStream.current, shape, List.headD_cons]
      · exact congrArg List.tail shape
  | finish afterBefore tokens =>
      rename_i after
      have shape := ahead.trans tokens
      have sourceWhole : source.toList ++ [] = source.toList :=
        List.append_nil _
      have size :
          Text.byteSize front + Text.byteSize characters =
            Text.byteSize source.toList := by
        rw [← whole, Text.byteSize_append]
      have same :
          Piece.endFrom file (Text.byteSize front) characters =
            Piece.endFrom file 0 source.toList := by
        rw [Piece.endFrom, Piece.endFrom, size, Nat.zero_add]
      rw [size] at afterBefore
      refine ⟨after, ?_, source.toList, [], sourceWhole, afterBefore, ?_, last⟩
      · rw [called, TokenStream.current, shape, List.headD_nil, last, same]
      · exact congrArg List.tail shape

/-- The tokens of so many calls, and the scanner behind them. -/
def handOut? : Nat → Scanner → Option (List Token × Scanner)
  | 0, scanner =>
      some ([], scanner)
  | count + 1, scanner => do
      let (token, after) ← scanner.next?
      let (tokens, final) ← handOut? count after
      return (token :: tokens, final)

/-- However many calls are made, they hand out what the stream holds. -/
theorem Feeds.handOut?
    (feeds : Feeds source file scanner stream)
    (count : Nat) :
    ∃ final stream',
      scanner.handOut? count = some (stream.take count, final) ∧
        Feeds source file final stream' := by
  induction count generalizing scanner stream with
  | zero =>
      exact ⟨scanner, stream, rfl, feeds⟩
  | succ count inductionHypothesis =>
      obtain ⟨after, called, feedsAfter⟩ := feeds.next?
      obtain ⟨final, stream', pulled, feedsFinal⟩ :=
        inductionHypothesis feedsAfter
      refine ⟨final, stream', ?_, feedsFinal⟩
      simp [Scanner.handOut?, called, pulled, TokenStream.take]

/-- With calls to spare, a scanner is drained of what the stream holds. -/
theorem Feeds.drainUpTo
    {count : Nat}
    (feeds : Feeds source file scanner stream)
    (enough : stream.ahead.length < count) :
    scanner.drainUpTo count = stream.ahead ++ [stream.last] := by
  induction count generalizing scanner stream with
  | zero =>
      contradiction
  | succ count inductionHypothesis =>
      obtain ⟨after, called, feedsAfter⟩ := feeds.next?
      simp only [Scanner.drainUpTo, called,
        stream.current_kind_eq_endOfInput_iff, withStackFor_eq]
      split
      · rename_i ended
        simp [TokenStream.current, ended]
      · rename_i goesOn
        obtain ⟨token, rest, shape⟩ := List.exists_cons_of_ne_nil goesOn
        have fewer : stream.advance.ahead.length < count := by
          rw [shape, List.length_cons] at enough
          simp only [TokenStream.advance, shape, List.tail_cons]
          omega
        rw [inductionHypothesis feedsAfter fewer]
        simp [TokenStream.current, TokenStream.advance, shape]

end Feeding

/-- A text has no more tokens than characters. -/
theorem length_ahead_ofSource_le (source file : String) :
    (TokenStream.ofTokens (tokenize source file)).ahead.length ≤ source.length := by
  have ahead :
      (TokenStream.ofTokens (tokenize source file)).ahead =
        Piece.tokensFrom file 0 source.toList :=
    Token.beforeEnd_tokenize source file
  have short := Piece.length_tokensFrom_le file 0 source.toList
  rwa [String.length_toList, ← ahead] at short

end Scanner

end Scriptlet
