import Scriptlet.Proofs.Token.Pulling

namespace Scriptlet

/-!
# The tokens of a text tile it

Nothing of a source text is lost when it is scanned.  The text is a gap, the
spelling of the first token, a gap, the spelling of the second token, and so on
up to a last gap in front of the end of input.  A gap consists of blanks and of
comments that reach to the end of their line, and the span of a token is the
range of bytes its spelling takes up.
-/

/-- How a token of a kind is written; the text of a string stands in quotes. -/
def TokenKind.spelling : TokenKind → String → List Char
  | .string, text => '"' :: (text.toList ++ ['"'])
  | _, text => text.toList

/-- How a token is written in source text. -/
def Token.spelling (token : Token) : List Char :=
  token.kind.spelling token.value

/--
The gap, in front of the rest of a text, stands for no token: it is put together
from runs of blanks and from comments that nothing but a line break or the end
of the text follows.
-/
inductive Skipped : List Char → List Char → Prop where
  | nothing
      {rest : List Char} :
      Skipped [] rest
  | blanks
      {run gap rest : List Char}
      (nonempty : run ≠ [])
      (blank : ∀ character ∈ run, Text.isBlank character = true)
      (later : Skipped gap rest) :
      Skipped (run ++ gap) rest
  | comment
      {line gap rest : List Char}
      (oneLine : '\n' ∉ line)
      (lineEnds : ∀ character ∈ (gap ++ rest).head?, character = '\n')
      (later : Skipped gap rest) :
      Skipped ('/' :: '/' :: (line ++ gap)) rest

/--
The tokens tile the text that starts at the byte offset: each has the range of
bytes that its spelling takes up behind a gap, and the last one, which alone
ends the input, the empty range behind the last gap.
-/
inductive Tiles (file : String) : Nat → List Char → List Token → Prop where
  | finish
      {offset : Nat}
      {gap : List Char}
      (skipped : Skipped gap []) :
      Tiles file offset gap
        [.endOfInput (Span.ofOffset file (offset + Text.byteSize gap) 0)]
  | token
      {offset start : Nat}
      {gap rest : List Char}
      {token : Token}
      {tokens : List Token}
      (skipped : Skipped gap (token.spelling ++ rest))
      (starts : start = offset + Text.byteSize gap)
      (kind : token.kind ≠ .endOfInput)
      (nonempty : 0 < Text.byteSize token.spelling)
      (span :
        token.span =
          Span.ofOffset file start (Text.byteSize token.spelling))
      (later :
        Tiles file (start + Text.byteSize token.spelling) rest tokens) :
      Tiles file offset (gap ++ (token.spelling ++ rest)) (token :: tokens)

section Spelling

variable
  {characters lexeme rest : List Char}
  {kind : TokenKind}
  {text : String}

theorem TokenKind.spelling_of_ne
    (other : kind ≠ .string) :
    kind.spelling text = text.toList := by
  cases kind
  case string =>
      contradiction
  all_goals rfl

/-- A word is neither a string nor illegal. -/
theorem TokenKind.ofWord_ne (word : String) :
    ofWord word ≠ .string ∧ ofWord word ≠ .illegal := by
  unfold ofWord
  cases reserved : ofReserved? word with
  | none =>
      decide
  | some kind =>
      obtain ⟨earlier, later, listed, -⟩ := List.lookup_eq_some_iff.mp reserved
      have member : (word, kind) ∈ reservedWords := by
        rw [listed]
        simp
      have neither :
          ∀ entry ∈ reservedWords, entry.2 ≠ .string ∧ entry.2 ≠ .illegal := by
        decide
      exact neither _ member

/-- A string is matched with the quotes at its two ends. -/
theorem LexicalRule.string?_quoted
    (matched : string? characters = some lexeme) :
    lexeme = '"' :: (lexeme.tail.dropLast ++ ['"']) := by
  cases characters with
  | nil =>
      contradiction
  | cons first others =>
      simp only [string?] at matched
      split at matched
      · rename_i opens
        split at matched
        · contradiction
        · rename_i close after closed
          have closes := List.head?_dropWhile_not (· != '"') others
          rw [closed] at closes
          have isQuote : close = '"' := by
            simpa using closes
          obtain rfl := Option.some.inj matched
          simp [opens, isQuote]
      · contradiction

/-- What a rule matches is the spelling of the token that it stands for. -/
theorem LexicalRule.spelling_reading
    {rule : LexicalRule}
    (member : rule ∈ table)
    (matched : rule.lexeme? characters = some lexeme)
    (reading : rule.reading? lexeme = some (kind, text)) :
    kind.spelling text = lexeme := by
  cases rule with
  | word =>
      obtain ⟨rfl, rfl⟩ := Prod.mk.inj (Option.some.inj reading)
      rw [TokenKind.spelling_of_ne (TokenKind.ofWord_ne _).1,
        String.toList_ofList]
  | number =>
      obtain ⟨rfl, rfl⟩ := Prod.mk.inj (Option.some.inj reading)
      exact String.toList_ofList
  | blanks =>
      contradiction
  | string =>
      obtain ⟨rfl, rfl⟩ := Prod.mk.inj (Option.some.inj reading)
      rw [TokenKind.spelling, String.toList_ofList,
        ← string?_quoted matched]
  | comment =>
      contradiction
  | symbol sign signKind =>
      obtain ⟨rfl, rfl⟩ := Prod.mk.inj (Option.some.inj reading)
      have noString : signKind ≠ .string := by
        rintro rfl
        simp [table] at member
      rw [TokenKind.spelling_of_ne noString]
      simp only [lexeme?, symbol?] at matched
      split at matched
      · exact Option.some.inj matched
      · contradiction

end Spelling

section Cutting

variable
  {offset : Nat}
  {characters gap rest : List Char}
  {piece : Piece}

/-- What is cut off a text was matched by a rule, or is an illegal character. -/
theorem Piece.cases_of_cut
    (found : cut? offset characters = some (piece, rest)) :
    (∃ rule,
      LexicalRule.firstMatch? characters = some (rule, piece.lexeme) ∧
        piece.reading? = rule.reading? piece.lexeme) ∨
      ∃ character,
        LexicalRule.firstMatch? characters = none ∧
          piece.lexeme = [character] ∧
          piece.reading? = some (.illegal, character.toString) := by
  cases characters with
  | nil =>
      contradiction
  | cons character others =>
      obtain ⟨rfl, -⟩ := Prod.mk.inj (Option.some.inj found)
      unfold first
      cases matched : LexicalRule.firstMatch? (character :: others) with
      | none =>
          exact .inr ⟨character, rfl, rfl, rfl⟩
      | some ruleAndLexeme =>
          exact .inl ⟨ruleAndLexeme.1, rfl, rfl⟩

/-- What is cut off a text is the spelling of the token that it stands for. -/
theorem Piece.spelling_of_cut
    {kind : TokenKind}
    {text : String}
    (found : cut? offset characters = some (piece, rest))
    (reading : piece.reading? = some (kind, text)) :
    kind.spelling text = piece.lexeme := by
  obtain ⟨rule, matched, same⟩ | ⟨character, -, lexeme, same⟩ :=
    cases_of_cut found
  · obtain ⟨member, matched⟩ := LexicalRule.firstMatch?_eq_some matched
    exact LexicalRule.spelling_reading member matched (same.symm.trans reading)
  · obtain ⟨rfl, rfl⟩ :=
      Prod.mk.inj (Option.some.inj (same.symm.trans reading))
    rw [lexeme, TokenKind.spelling_of_ne (by decide)]
    exact String.toList_singleton character

/-- Every character of a run satisfies the test. -/
theorem LexicalRule.all_of_run?
    {test : Char → Bool}
    {lexeme : List Char}
    (found : run? test characters = some lexeme) :
    ∀ character ∈ lexeme, test character = true := by
  unfold run? at found
  split at found
  · contradiction
  · obtain rfl := Option.some.inj found
    exact List.all_eq_true.mp List.all_takeWhile

/-- A comment goes on to the end of its line. -/
theorem LexicalRule.comment?_line
    {lexeme : List Char}
    (found : comment? (lexeme ++ rest) = some lexeme) :
    ∃ line,
      lexeme = '/' :: '/' :: line ∧
        '\n' ∉ line ∧
        ∀ character ∈ rest.head?, character = '\n' := by
  generalize whole : lexeme ++ rest = characters at found
  match characters, found with
  | first :: second :: others, found =>
      simp only [comment?] at found
      split at found
      · rename_i slashes
        obtain ⟨rfl, rfl⟩ := slashes
        obtain rfl := Option.some.inj found
        simp only [List.cons_append, List.cons.injEq, true_and] at whole
        have back : rest = others.dropWhile (· != '\n') := by
          apply List.append_cancel_left
          rw [whole, List.takeWhile_append_dropWhile]
        refine ⟨_, rfl, ?_, ?_⟩
        · intro member
          have inside := List.all_eq_true.mp List.all_takeWhile _ member
          simp at inside
        · intro character head
          have stops := List.head?_dropWhile_not (· != '\n') others
          rw [← back, head] at stops
          simpa using stops
      · contradiction

/-- What is cut off a text without a token for it widens the gap behind it. -/
theorem Skipped.of_cut
    (found : Piece.cut? offset characters = some (piece, gap ++ rest))
    (silent : piece.reading? = none)
    (later : Skipped gap rest) :
    Skipped (piece.lexeme ++ gap) rest := by
  obtain ⟨rule, matched, same⟩ | ⟨character, -, -, same⟩ :=
    Piece.cases_of_cut found
  · have reading := same.symm.trans silent
    have lexeme := (LexicalRule.firstMatch?_eq_some matched).2
    rw [← (Piece.cut?_eq_some found).1] at lexeme
    cases rule with
    | blanks =>
        have nonempty := (LexicalRule.run?_eq_some lexeme).1
        exact .blanks nonempty (LexicalRule.all_of_run? lexeme) later
    | comment =>
        obtain ⟨line, shape, oneLine, lineEnds⟩ :=
          LexicalRule.comment?_line lexeme
        rw [shape]
        exact .comment oneLine lineEnds later
    | word | number | string | symbol =>
        contradiction
  · rw [silent] at same
    contradiction

/-- A piece takes up at least one byte. -/
theorem Piece.size_pos_of_cut
    (found : cut? offset characters = some (piece, rest)) :
    0 < piece.size := by
  obtain ⟨whole, shorter⟩ := cut?_eq_some found
  rw [← whole, List.length_append] at shorter
  have nonempty : piece.lexeme ≠ [] := by
    rw [← List.length_pos_iff]
    omega
  obtain ⟨character, others, shape⟩ := List.exists_cons_of_ne_nil nonempty
  rw [size, shape, Text.byteSize_cons]
  have positive := character.utf8Size_pos
  omega

section Tokens

variable {file : String} {token : Token} {tokens : List Token}

/-- A piece without a token, in front of a tiled text, widens the first gap. -/
theorem Tiles.skip
    (found : Piece.cut? offset characters = some (piece, rest))
    (silent : piece.token? file = none)
    (later : Tiles file piece.stop rest tokens) :
    Tiles file offset characters tokens := by
  have unread := Option.map_eq_none_iff.mp silent
  have whole := (Piece.cut?_eq_some found).1
  cases later with
  | finish skipped =>
      have foundBefore :
          Piece.cut? offset characters = some (piece, rest ++ []) := by
        rw [List.append_nil, found]
      have wider := skipped.of_cut foundBefore unread
      rw [whole] at wider
      rw [Piece.stop_of_cut found]
      exact .finish wider
  | token skipped starts kind nonempty span laterTiles =>
      have wider := skipped.of_cut found unread
      rw [← whole, ← List.append_assoc]
      refine .token wider ?_ kind nonempty span laterTiles
      rw [starts, Piece.stop, Piece.offset_of_cut found, Piece.size,
        Text.byteSize_append, Nat.add_assoc]

/-- A piece with a token for it is the first tile, behind no gap. -/
theorem Tiles.cut
    (found : Piece.cut? offset characters = some (piece, rest))
    (made : piece.token? file = some token)
    (kind : token.kind ≠ .endOfInput)
    (later : Tiles file piece.stop rest tokens) :
    Tiles file offset characters (token :: tokens) := by
  obtain ⟨reading, read, rfl⟩ := Option.map_eq_some_iff.mp made
  have spelling : reading.1.spelling reading.2 = piece.lexeme :=
    Piece.spelling_of_cut found read
  have start := Piece.offset_of_cut found
  have positive := Piece.size_pos_of_cut found
  have whole := (Piece.cut?_eq_some found).1
  rw [Piece.size, ← spelling] at positive
  rw [Piece.stop, Piece.size, start, ← spelling] at later
  rw [← whole, ← spelling]
  refine .token .nothing rfl kind positive ?_ later
  rw [Piece.size, start, ← spelling]
  rfl

/-- A text is tiled by the tokens that are scanned from it. -/
theorem tiles_tokensFrom
    (file : String)
    (offset : Nat)
    (characters : List Char) :
    Tiles file offset characters
      (Piece.tokensFrom file offset characters ++
        [Piece.endFrom file offset characters]) := by
  -- The induction is on the length: each piece cut off leaves a shorter text.
  induction length : characters.length using Nat.strongRecOn
    generalizing offset characters with
  | ind count inductionHypothesis =>
      subst length
      cases found : Piece.cut? offset characters with
      | none =>
          cases characters with
          | nil =>
              exact .finish .nothing
          | cons character others =>
              contradiction
      | some cutOff =>
          obtain ⟨piece, rest⟩ := cutOff
          have shorter := (Piece.cut?_eq_some found).2
          have later :=
            inductionHypothesis rest.length shorter piece.stop rest rfl
          have sameEnd :
              Piece.endFrom file piece.stop rest =
                Piece.endFrom file offset characters := by
            rw [Piece.endFrom, Piece.endFrom, Piece.stop_of_cut found]
          rw [sameEnd] at later
          have tokens := Piece.tokensFrom_of_cut file found
          cases made : piece.token? file with
          | none =>
              rw [made, Option.toList_none, List.nil_append] at tokens
              rw [tokens]
              exact later.skip found made
          | some token =>
              rw [made, Option.toList_some, List.singleton_append] at tokens
              have first :
                  token ∈ Piece.tokensFrom file offset characters := by
                rw [tokens]
                exact List.mem_cons_self
              rw [tokens]
              exact later.cut found made (Piece.kind_of_mem_tokensFrom first)

end Tokens

end Cutting

end Scriptlet
