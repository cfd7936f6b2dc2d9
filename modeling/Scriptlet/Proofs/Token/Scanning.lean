import Scriptlet.Token.Stream

namespace Scriptlet

/-!
# What a text is scanned as

The tokens of a text are told by their readings: kind and text, without spans.
The readings of a text are those of its first piece and of what follows it, so
texts can be scanned part by part, as long as no piece goes on from one part
into the next.
-/

/-- The kinds and texts of the tokens of a text, in order. -/
def readings (characters : List Char) : List (TokenKind × String) :=
  (Piece.split characters).filterMap Piece.reading?

/-- The kind and the text of a token. -/
def Token.reading (token : Token) : TokenKind × String :=
  (token.kind, token.value)

section Cutting

variable {characters rest lexeme : List Char}

/-- What a text starts with does not depend on where the text stands. -/
theorem Piece.first_eq
    (offset : Nat)
    (character : Char)
    (rest : List Char) :
    Piece.first offset character rest =
      { Piece.first 0 character rest with offset } := by
  unfold Piece.first
  split
  · rfl
  · rfl

/-- Neither the offset nor a larger number of cuts changes the readings. -/
theorem filterMap_cutUpTo
    {count otherCount offset otherOffset : Nat}
    (enough : characters.length ≤ count)
    (otherEnough : characters.length ≤ otherCount) :
    (Piece.cutUpTo count offset characters).filterMap Piece.reading? =
      (Piece.cutUpTo otherCount otherOffset characters).filterMap
        Piece.reading? := by
  induction count generalizing otherCount offset otherOffset characters with
  | zero =>
      rw [List.length_eq_zero_iff.mp (Nat.le_zero.mp enough)]
      cases otherCount with
      | zero =>
          rfl
      | succ otherCount =>
          rfl
  | succ count inductionHypothesis =>
      cases otherCount with
      | zero =>
          rw [List.length_eq_zero_iff.mp (Nat.le_zero.mp otherEnough)]
          rfl
      | succ otherCount =>
          cases characters with
          | nil =>
              rfl
          | cons character others =>
              have same := Piece.first_eq offset character others
              have otherSame := Piece.first_eq otherOffset character others
              have shorter :=
                (Piece.cut?_eq_some
                  (rfl : Piece.cut? 0 (character :: others) = some _)).2
              simp only [Piece.cutUpTo, Piece.cut?, withStackFor_eq]
              rw [same, otherSame]
              simp only [List.filterMap_cons]
              cases (Piece.first 0 character others).reading? with
              | none =>
                  exact inductionHypothesis (by omega) (by omega)
              | some reading =>
                  exact congrArg (reading :: ·)
                    (inductionHypothesis (by omega) (by omega))

theorem readings_nil : readings [] = [] :=
  rfl

/-- A text that starts with a match has its reading and those of the rest. -/
theorem readings_of_firstMatch
    {rule : LexicalRule}
    (found :
      LexicalRule.firstMatch? (lexeme ++ rest) = some (rule, lexeme)) :
    readings (lexeme ++ rest) =
      (rule.reading? lexeme).toList ++ readings rest := by
  obtain ⟨member, matched⟩ := LexicalRule.firstMatch?_eq_some found
  obtain ⟨nonempty, -⟩ := LexicalRule.lexeme?_eq_some member matched
  obtain ⟨character, others, rfl⟩ := List.exists_cons_of_ne_nil nonempty
  have piece :
      Piece.first 0 character (others ++ rest) =
        ⟨0, character :: others, rule.reading? (character :: others)⟩ := by
    unfold Piece.first
    rw [← List.cons_append, found]
  unfold readings Piece.split
  rw [List.cons_append, List.length_cons, Piece.cutUpTo, Piece.cut?, piece]
  simp only [withStackFor_eq, List.length_cons, List.drop_succ_cons,
    List.drop_left, List.filterMap_cons]
  rw [filterMap_cutUpTo (by simp) (Nat.le_refl rest.length)]
  cases rule.reading? (character :: others) with
  | none =>
      rfl
  | some reading =>
      rfl

end Cutting

namespace LexicalRule

variable {character : Char} {rest : List Char}

theorem continuesWord_of_startsWord
    (starts : startsWord character = true) :
    continuesWord character = true := by
  simp only [startsWord, continuesWord, Char.isAlphanum, Bool.or_eq_true] at *
  exact starts.imp_left .inl

theorem continuesWord_of_isDigit
    (digit : character.isDigit = true) :
    continuesWord character = true := by
  simp [continuesWord, Char.isAlphanum, digit]

/-- The letters are given by their codes. -/
theorem isAlpha_iff :
    character.isAlpha = true ↔
      (65 ≤ character.toNat ∧ character.toNat ≤ 90) ∨
        (97 ≤ character.toNat ∧ character.toNat ≤ 122) := by
  have codes :
      character.isAlpha =
        (decide (65 ≤ character.val ∧ character.val ≤ 90) ||
          decide (97 ≤ character.val) && decide (character.val ≤ 122)) :=
    rfl
  simp only [codes, Bool.or_eq_true, Bool.and_eq_true, decide_eq_true_eq,
    UInt32.le_iff_toNat_le]
  rfl

theorem startsWord_of_isDigit
    (digit : character.isDigit = true) :
    startsWord character = false := by
  have notUnderscore : character ≠ '_' := by
    rintro rfl
    contradiction
  have notLetter : ¬ character.isAlpha = true := by
    rw [Char.isDigit_iff_toNat] at digit
    rw [isAlpha_iff]
    have zero : '0'.toNat = 48 := rfl
    have nine : '9'.toNat = 57 := rfl
    omega
  simp [startsWord, notUnderscore, notLetter]

/-- No blank character belongs to a word. -/
theorem continuesWord_of_isBlank
    (blank : Text.isBlank character = true) :
    continuesWord character = false := by
  have ranges := Text.CharacterRange.anyContains_eq_true_iff.mp blank
  simp only [Text.blankRanges, List.mem_cons, List.not_mem_nil, or_false,
    exists_eq_or_imp, exists_eq_left] at ranges
  have notUnderscore : character ≠ '_' := by
    rintro rfl
    revert ranges
    decide
  have notLetter : ¬ character.isAlpha = true := by
    rw [isAlpha_iff]
    omega
  have notDigit : ¬ character.isDigit = true := by
    rw [Char.isDigit_iff_toNat]
    have zero : '0'.toNat = 48 := rfl
    have nine : '9'.toNat = 57 := rfl
    omega
  simp [continuesWord, Char.isAlphanum, notLetter, notDigit, notUnderscore]

theorem takeWhile_append_of_head
    {test : Char → Bool}
    {run : List Char}
    (inside : ∀ character ∈ run, test character = true)
    (outside : ∀ character ∈ rest.head?, test character = false) :
    (run ++ rest).takeWhile test = run := by
  rw [List.takeWhile_append_of_pos inside]
  cases rest with
  | nil =>
      simp
  | cons first others =>
      simp [outside first rfl]

/-- A word is matched up to the first character that does not continue it. -/
theorem firstMatch?_word
    {run : List Char}
    (starts : startsWord character = true)
    (inside : ∀ other ∈ run, continuesWord other = true)
    (outside : ∀ other ∈ rest.head?, continuesWord other = false) :
    firstMatch? (character :: run ++ rest) = some (.word, character :: run) := by
  have whole := takeWhile_append_of_head inside outside
  simp [firstMatch?, table, lexeme?, word?, starts, whole]

/-- Digits are matched up to the first character that is no digit. -/
theorem firstMatch?_number
    {run : List Char}
    (digit : character.isDigit = true)
    (inside : ∀ other ∈ run, other.isDigit = true)
    (outside : ∀ other ∈ rest.head?, other.isDigit = false) :
    firstMatch? (character :: run ++ rest) =
      some (.number, character :: run) := by
  have whole := takeWhile_append_of_head inside outside
  simp [firstMatch?, table, lexeme?, word?, run?, startsWord_of_isDigit digit,
    digit, whole]

/-- Blanks are matched up to the first character that is not blank. -/
theorem firstMatch?_blanks
    (blank : Text.isBlank character = true) :
    firstMatch? (character :: rest) =
      some (.blanks, character :: rest.takeWhile Text.isBlank) := by
  have outsideWords := continuesWord_of_isBlank blank
  have noStart : startsWord character = false := by
    cases starts : startsWord character with
    | false => rfl
    | true => simp [continuesWord_of_startsWord starts] at outsideWords
  have noDigit : character.isDigit = false := by
    cases digit : character.isDigit with
    | false => rfl
    | true => simp [continuesWord_of_isDigit digit] at outsideWords
  simp [firstMatch?, table, lexeme?, word?, run?, noStart, noDigit, blank]

/-- A string is matched up to its second quote. -/
theorem firstMatch?_string
    {inside : List Char}
    (unquoted : '"' ∉ inside) :
    firstMatch? ('"' :: (inside ++ ['"']) ++ rest) =
      some (.string, '"' :: (inside ++ ['"'])) := by
  have noStart : startsWord '"' = false := by
    decide
  have noDigit : Char.isDigit '"' = false := by
    decide
  have noBlank : Text.isBlank '"' = false := by
    decide
  have all : ∀ character ∈ inside, (character != '"') = true := by
    intro character member
    simp only [bne_iff_ne, ne_eq]
    rintro rfl
    exact unquoted member
  simp [firstMatch?, table, lexeme?, word?, run?, string?, noStart, noDigit,
    noBlank, List.dropWhile_append_of_pos all, List.takeWhile_append_of_pos all]

/-- A rule is the first that matches when those in front of it do not. -/
theorem firstMatch?_at
    (index : Nat)
    {rule : LexicalRule}
    {characters lexeme : List Char}
    (listed : table = table.take index ++ rule :: table.drop (index + 1))
    (skipped :
      ∀ earlier ∈ table.take index, earlier.lexeme? characters = none)
    (matched : rule.lexeme? characters = some lexeme) :
    firstMatch? characters = some (rule, lexeme) := by
  have none :
      ((table.take index).findSome? fun earlier =>
        (earlier.lexeme? characters).map fun text => (earlier, text)) =
          none := by
    rw [List.findSome?_eq_none_iff]
    intro earlier member
    rw [skipped earlier member]
    rfl
  rw [firstMatch?, listed, List.findSome?_append, none, List.findSome?_cons,
    matched]
  rfl

theorem firstMatch?_not
    (distinct : character ≠ '=') :
    firstMatch? ('!' :: character :: rest) = some (.symbol "!" .not, ['!']) := by
  have longer : symbol? "!=" ('!' :: character :: rest) = none := by
    simp [symbol?, List.isPrefixOf, distinct.symm]
  refine firstMatch?_at 11 rfl ?_ rfl
  simp only [table, List.take_succ_cons, List.take_zero, List.forall_mem_cons]
  exact ⟨rfl, rfl, rfl, rfl, rfl, rfl, rfl, rfl, rfl, rfl, longer,
    List.forall_mem_nil _⟩

theorem firstMatch?_assignment
    (distinct : character ≠ '=') :
    firstMatch? ('=' :: character :: rest) =
      some (.symbol "=" .assignment, ['=']) := by
  have longer : symbol? "==" ('=' :: character :: rest) = none := by
    simp [symbol?, List.isPrefixOf, distinct.symm]
  refine firstMatch?_at 12 rfl ?_ rfl
  simp only [table, List.take_succ_cons, List.take_zero, List.forall_mem_cons]
  exact ⟨rfl, rfl, rfl, rfl, rfl, rfl, rfl, rfl, rfl, longer, rfl, rfl,
    List.forall_mem_nil _⟩

theorem firstMatch?_slash
    (distinct : character ≠ '/') :
    firstMatch? ('/' :: character :: rest) =
      some (.symbol "/" .slash, ['/']) := by
  have noComment : comment? ('/' :: character :: rest) = none := by
    simp [comment?, distinct]
  refine firstMatch?_at 19 rfl ?_ rfl
  simp only [table, List.take_succ_cons, List.take_zero, List.forall_mem_cons]
  exact ⟨rfl, rfl, rfl, rfl, noComment, rfl, rfl, rfl, rfl, rfl, rfl, rfl, rfl,
    rfl, rfl, rfl, rfl, rfl, rfl, List.forall_mem_nil _⟩

/--
A symbol is matched, unless it goes on as a longer symbol or as a comment, which
only three of them can.
-/
theorem firstMatch?_symbol
    {text : String}
    {kind : TokenKind}
    (member : LexicalRule.symbol text kind ∈ table)
    (ends :
      text ∈ ["!", "=", "/"] →
        ∀ other ∈ rest.head?, other ≠ '=' ∧ other ≠ '/') :
    firstMatch? (text.toList ++ rest) =
      some (.symbol text kind, text.toList) := by
  simp only [table, List.mem_cons, reduceCtorEq, false_or, symbol.injEq,
    List.not_mem_nil, or_false] at member
  cases rest with
  | nil =>
      rcases member with
        ⟨rfl, rfl⟩ | ⟨rfl, rfl⟩ | ⟨rfl, rfl⟩ | ⟨rfl, rfl⟩ | ⟨rfl, rfl⟩ |
        ⟨rfl, rfl⟩ | ⟨rfl, rfl⟩ | ⟨rfl, rfl⟩ | ⟨rfl, rfl⟩ | ⟨rfl, rfl⟩ |
        ⟨rfl, rfl⟩ | ⟨rfl, rfl⟩ | ⟨rfl, rfl⟩ | ⟨rfl, rfl⟩ | ⟨rfl, rfl⟩ |
        ⟨rfl, rfl⟩ <;>
        rfl
  | cons other others =>
      have distinct (extensible : text ∈ ["!", "=", "/"]) :
          other ≠ '=' ∧ other ≠ '/' :=
        ends extensible other rfl
      rcases member with
        ⟨rfl, rfl⟩ | ⟨rfl, rfl⟩ | ⟨rfl, rfl⟩ | ⟨rfl, rfl⟩ | ⟨rfl, rfl⟩ |
        ⟨rfl, rfl⟩ | ⟨rfl, rfl⟩ | ⟨rfl, rfl⟩ | ⟨rfl, rfl⟩ | ⟨rfl, rfl⟩ |
        ⟨rfl, rfl⟩ | ⟨rfl, rfl⟩ | ⟨rfl, rfl⟩ | ⟨rfl, rfl⟩ | ⟨rfl, rfl⟩ |
        ⟨rfl, rfl⟩
      all_goals
        first
          | rfl
          | exact firstMatch?_not (distinct (by simp)).1
          | exact firstMatch?_assignment (distinct (by simp)).1
          | exact firstMatch?_slash (distinct (by simp)).2

end LexicalRule

namespace TokenKind

/-- The text of the tokens of a kind, where all of them have the same one. -/
def wording? : TokenKind → Option String
  | .openCurly => some "\x7b"
  | .closeCurly => some "\x7d"
  | .openParen => some "("
  | .closeParen => some ")"
  | .assignment => some "="
  | .equals => some "=="
  | .not => some "!"
  | .notEquals => some "!="
  | .less => some "<"
  | .greater => some ">"
  | .semicolon => some ";"
  | .comma => some ","
  | .plus => some "+"
  | .dash => some "-"
  | .slash => some "/"
  | .star => some "*"
  | .letWord => some "let"
  | .fnWord => some "fn"
  | .returnWord => some "return"
  | .ifWord => some "if"
  | .elseWord => some "else"
  | .trueWord => some "true"
  | .falseWord => some "false"
  | .endOfInput | .illegal | .number | .string | .identifier => none

/-- A word that is not reserved. -/
def IsName (text : String) : Prop :=
  ofReserved? text = none ∧
    ∃ first others,
      text.toList = first :: others ∧
        LexicalRule.startsWord first = true ∧
        ∀ other ∈ others, LexicalRule.continuesWord other = true

/-- A nonempty row of decimal digits. -/
def IsNumeral (text : String) : Prop :=
  ∃ first others,
    text.toList = first :: others ∧
      first.isDigit = true ∧
      ∀ other ∈ others, other.isDigit = true

/-- The texts that tokens of a kind have in source text. -/
def Admits : TokenKind → String → Prop
  | .identifier, text => IsName text
  | .number, text => IsNumeral text
  | .string, text => '"' ∉ text.toList
  | .illegal, _ => True
  | kind, text => kind.wording? = some text

end TokenKind

section Provenance

variable {characters lexeme : List Char} {kind : TokenKind} {text : String}

theorem admits_reserved
    (reserved : TokenKind.ofReserved? text = some kind) :
    kind.Admits text := by
  obtain ⟨earlier, later, listed, -⟩ := List.lookup_eq_some_iff.mp reserved
  have member : (text, kind) ∈ TokenKind.reservedWords := by
    rw [listed]
    simp
  simp only [TokenKind.reservedWords, List.mem_cons, Prod.mk.injEq,
    List.not_mem_nil, or_false] at member
  rcases member with
    ⟨rfl, rfl⟩ | ⟨rfl, rfl⟩ | ⟨rfl, rfl⟩ | ⟨rfl, rfl⟩ | ⟨rfl, rfl⟩ |
    ⟨rfl, rfl⟩ | ⟨rfl, rfl⟩ <;>
    rfl

theorem admits_word
    (matched : LexicalRule.word? characters = some lexeme) :
    (TokenKind.ofWord (String.ofList lexeme)).Admits (String.ofList lexeme) := by
  unfold TokenKind.ofWord
  cases reserved : TokenKind.ofReserved? (String.ofList lexeme) with
  | some kind =>
      exact admits_reserved reserved
  | none =>
      cases characters with
      | nil =>
          contradiction
      | cons first others =>
          simp only [LexicalRule.word?] at matched
          split at matched
          · rename_i starts
            obtain rfl := Option.some.inj matched
            refine ⟨reserved, first, _, String.toList_ofList, starts, ?_⟩
            intro other member
            exact List.all_eq_true.mp List.all_takeWhile other member
          · contradiction

theorem admits_number
    (matched : LexicalRule.run? Char.isDigit characters = some lexeme) :
    TokenKind.number.Admits (String.ofList lexeme) := by
  unfold LexicalRule.run? at matched
  split at matched
  · contradiction
  · obtain rfl := Option.some.inj matched
    have digits : ∀ other ∈ characters.takeWhile Char.isDigit,
        other.isDigit = true :=
      fun other member => List.all_eq_true.mp List.all_takeWhile other member
    rename_i nonempty
    obtain ⟨first, others, shape⟩ := List.exists_cons_of_ne_nil nonempty
    rw [shape] at digits ⊢
    exact ⟨first, others, String.toList_ofList, digits first (by simp),
      fun other member => digits other (by simp [member])⟩

/-- What a string encloses has no quote in it. -/
theorem admits_string
    (matched : LexicalRule.string? characters = some lexeme) :
    TokenKind.string.Admits (String.ofList lexeme.tail.dropLast) := by
  cases characters with
  | nil =>
      contradiction
  | cons first others =>
      simp only [LexicalRule.string?] at matched
      split at matched
      · split at matched
        · contradiction
        · obtain rfl := Option.some.inj matched
          have unquoted :=
            List.all_eq_true.mp
              (List.all_takeWhile :
                (others.takeWhile (· != '"')).all (· != '"') = true)
          simp only [TokenKind.Admits, List.tail_cons, List.dropLast_concat,
            String.toList_ofList]
          intro member
          simpa using unquoted '"' member
      · contradiction

/-- Every rule reads texts that its kinds of token admit. -/
theorem admits_reading
    {rule : LexicalRule}
    (member : rule ∈ LexicalRule.table)
    (matched : rule.lexeme? characters = some lexeme)
    (reading : rule.reading? lexeme = some (kind, text)) :
    kind.Admits text := by
  cases rule with
  | word =>
      obtain ⟨rfl, rfl⟩ := Prod.mk.inj (Option.some.inj reading)
      exact admits_word matched
  | number =>
      obtain ⟨rfl, rfl⟩ := Prod.mk.inj (Option.some.inj reading)
      exact admits_number matched
  | blanks =>
      contradiction
  | string =>
      obtain ⟨rfl, rfl⟩ := Prod.mk.inj (Option.some.inj reading)
      exact admits_string matched
  | comment =>
      contradiction
  | symbol symbolText symbolKind =>
      obtain ⟨rfl, rfl⟩ := Prod.mk.inj (Option.some.inj reading)
      simp only [LexicalRule.table, List.mem_cons, reduceCtorEq, false_or,
        LexicalRule.symbol.injEq, List.not_mem_nil, or_false] at member
      rcases member with
        ⟨rfl, rfl⟩ | ⟨rfl, rfl⟩ | ⟨rfl, rfl⟩ | ⟨rfl, rfl⟩ | ⟨rfl, rfl⟩ |
        ⟨rfl, rfl⟩ | ⟨rfl, rfl⟩ | ⟨rfl, rfl⟩ | ⟨rfl, rfl⟩ | ⟨rfl, rfl⟩ |
        ⟨rfl, rfl⟩ | ⟨rfl, rfl⟩ | ⟨rfl, rfl⟩ | ⟨rfl, rfl⟩ | ⟨rfl, rfl⟩ |
        ⟨rfl, rfl⟩ <;>
        rfl

theorem admits_first
    {offset : Nat}
    {character : Char}
    {rest : List Char}
    (reading :
      (Piece.first offset character rest).reading? = some (kind, text)) :
    kind.Admits text := by
  unfold Piece.first at reading
  split at reading
  · rename_i rule lexeme found
    obtain ⟨member, matched⟩ := LexicalRule.firstMatch?_eq_some found
    exact admits_reading member matched reading
  · obtain ⟨rfl, rfl⟩ := Prod.mk.inj (Option.some.inj reading)
    exact trivial

theorem admits_of_mem_cutUpTo
    {count offset : Nat}
    {piece : Piece}
    (member : piece ∈ Piece.cutUpTo count offset characters)
    (reading : piece.reading? = some (kind, text)) :
    kind.Admits text := by
  induction count generalizing offset characters with
  | zero =>
      contradiction
  | succ count inductionHypothesis =>
      cases characters with
      | nil =>
          contradiction
      | cons character rest =>
          simp only [Piece.cutUpTo, Piece.cut?, withStackFor_eq,
            List.mem_cons] at member
          rcases member with rfl | later
          · exact admits_first reading
          · exact inductionHypothesis later

end Provenance

namespace Token

variable {source file : String}

/-- The tokens of a source text in front of its end. -/
theorem beforeEnd_tokenize (source file : String) :
    TokenStream.beforeEnd (tokenize source file) =
      (Piece.split source.toList).filterMap (Piece.token? file) := by
  unfold TokenStream.beforeEnd tokenize
  rw [List.takeWhile_append_of_pos]
  · simp [Token.endOfInput]
  · intro token member
    obtain ⟨piece, inside, made⟩ := List.mem_filterMap.mp member
    obtain ⟨⟨kind, text⟩, reading, rfl⟩ := Option.map_eq_some_iff.mp made
    have admitted := admits_of_mem_cutUpTo inside reading
    simp only [bne_iff_ne, ne_eq]
    rintro rfl
    contradiction

/-- Every token of a source text has a text that its kind admits. -/
theorem admits_of_mem_tokenize
    {token : Token}
    (member : token ∈ TokenStream.beforeEnd (tokenize source file)) :
    token.kind.Admits token.value := by
  rw [beforeEnd_tokenize] at member
  obtain ⟨piece, inside, made⟩ := List.mem_filterMap.mp member
  obtain ⟨⟨kind, text⟩, reading, rfl⟩ := Option.map_eq_some_iff.mp made
  exact admits_of_mem_cutUpTo inside reading

theorem map_reading_tokenize (source file : String) :
    (TokenStream.beforeEnd (tokenize source file)).map Token.reading =
      readings source.toList := by
  rw [beforeEnd_tokenize, List.map_filterMap, readings]
  congr 1
  funext piece
  cases made : piece.reading? with
  | none =>
      simp [Piece.token?, made]
  | some reading =>
      simp [Piece.token?, made, Token.reading]

end Token

end Scriptlet
