import Scriptlet.Proofs.Canonical.Rendering
import Scriptlet.Proofs.Parse.Displaced
import Scriptlet.Proofs.Token.Tiling

namespace Scriptlet

/-!
# Writing tokens out again

The tokens of a source text, written out in order with blanks between them, are
scanned as the same tokens again.  Words, numbers, strings and symbols are,
whatever source they come from.  An illegal character is one that starts no
piece of any text, or a quote that no later quote closes; and then none of the
tokens behind it has a quote in it.

Where tokens stand makes no difference to the parser, so the layout of a text
makes none to the program it is read as.
-/

namespace LexicalRule

variable {character : Char} {rest : List Char}

/-- No rule but that of strings matches a text with this first character. -/
def StartsNothing (character : Char) : Prop :=
  startsWord character = false ∧
    character.isDigit = false ∧
    Text.isBlank character = false ∧
    character ∉ "\x7b\x7d()=!<>;,+-/*".toList

/-- Only a quote behind the first one makes a string. -/
theorem string?_cons_eq_none_iff :
    string? (character :: rest) = none ↔ (character = '"' → '"' ∉ rest) := by
  have closes : rest.dropWhile (· != '"') = [] ↔ '"' ∉ rest := by
    induction rest with
    | nil =>
        simp
    | cons first others inductionHypothesis =>
        rw [List.dropWhile_cons]
        split
        · rename_i passes
          have distinct : '"' ≠ first := by
            simpa using Ne.symm (bne_iff_ne.mp passes)
          simp [inductionHypothesis, distinct]
        · rename_i stops
          have same : first = '"' := by
            simpa using stops
          simp [same]
  simp only [string?]
  split
  · rename_i opens
    rw [← closes]
    split
    · rename_i unclosed
      simp [unclosed]
    · rename_i closed
      simp [closed, opens]
  · rename_i other
    simp [other]

theorem run?_cons_eq_none_iff
    {test : Char → Bool} :
    run? test (character :: rest) = none ↔ test character = false := by
  unfold run?
  rw [List.takeWhile_cons]
  cases test character with
  | false =>
      simp
  | true =>
      simp

theorem comment?_of_ne
    (distinct : character ≠ '/') :
    comment? (character :: rest) = none := by
  cases rest with
  | nil =>
      rfl
  | cons second others =>
      simp [comment?, distinct]

/-- What no rule matches starts with nothing, or with a quote left open. -/
theorem firstMatch?_eq_none_iff :
    firstMatch? (character :: rest) = none ↔
      StartsNothing character ∧ (character = '"' → '"' ∉ rest) := by
  have tried :
      firstMatch? (character :: rest) = none ↔
        ∀ rule ∈ table, rule.lexeme? (character :: rest) = none := by
    simp [firstMatch?, List.findSome?_eq_none_iff]
  have comment : character ≠ '/' → comment? (character :: rest) = none :=
    comment?_of_ne
  rw [tried, StartsNothing]
  simp only [table, lexeme?, List.forall_mem_cons, string?_cons_eq_none_iff,
    run?_cons_eq_none_iff, word?, symbol?]
  simp only [ite_eq_right_iff, reduceCtorEq, imp_false, Bool.not_eq_true,
    Char.isValue, String.reduceToList, List.isPrefixOf_iff_prefix,
    List.cons_prefix_cons, List.nil_prefix, and_true, not_and,
    List.not_mem_nil, false_implies, implies_true, List.mem_cons, or_false,
    not_or]
  grind

/-- What a rule matches is not illegal. -/
theorem legal_reading
    {rule : LexicalRule}
    {lexeme : List Char}
    {kind : TokenKind}
    {text : String}
    (member : rule ∈ table)
    (reading : rule.reading? lexeme = some (kind, text)) :
    kind ≠ .illegal := by
  cases rule with
  | word =>
      obtain ⟨rfl, -⟩ := Prod.mk.inj (Option.some.inj reading)
      exact (TokenKind.ofWord_ne _).2
  | number | string =>
      obtain ⟨rfl, -⟩ := Prod.mk.inj (Option.some.inj reading)
      decide
  | blanks | comment =>
      contradiction
  | symbol sign signKind =>
      obtain ⟨rfl, -⟩ := Prod.mk.inj (Option.some.inj reading)
      rintro rfl
      simp [table] at member

end LexicalRule

section Cutting

variable
  {offset : Nat}
  {characters rest : List Char}
  {piece : Piece}

/-- Cutting off a piece leaves the readings of the rest. -/
theorem readings_of_cut
    (found : Piece.cut? offset characters = some (piece, rest)) :
    readings characters = piece.reading?.toList ++ readings rest := by
  have anywhere (text : List Char) (place : Nat) :
      readings text =
        (Piece.cutUpTo text.length place text).filterMap Piece.reading? :=
    filterMap_cutUpTo (Nat.le_refl _) (Nat.le_refl _)
  rw [anywhere characters offset, Piece.cutUpTo_of_cut found,
    List.filterMap_cons, anywhere rest piece.stop]
  cases piece.reading? with
  | none =>
      rfl
  | some reading =>
      rfl

/-- A character that starts nothing is read as an illegal one. -/
theorem readings_of_unmatched
    {character : Char}
    (unmatched : LexicalRule.firstMatch? (character :: rest) = none) :
    readings (character :: rest) =
      (.illegal, character.toString) :: readings rest := by
  have found :
      Piece.cut? 0 (character :: rest) =
        some (⟨0, [character], some (.illegal, character.toString)⟩, rest) := by
    simp [Piece.cut?, Piece.first, unmatched]
  rw [readings_of_cut found]
  rfl

/-- What holds of the empty text and of a text if it does behind its first piece. -/
theorem Piece.cut_induction
    {motive : List Char → Prop}
    (nil : motive [])
    (cut :
      ∀ characters piece rest,
        Piece.cut? 0 characters = some (piece, rest) →
          motive rest → motive characters)
    (characters : List Char) :
    motive characters := by
  induction length : characters.length using Nat.strongRecOn
    generalizing characters with
  | ind count inductionHypothesis =>
      subst length
      cases found : Piece.cut? 0 characters with
      | none =>
          cases characters with
          | nil =>
              exact nil
          | cons character others =>
              contradiction
      | some cutOff =>
          have shorter := (Piece.cut?_eq_some found).2
          exact cut characters _ _ found
            (inductionHypothesis _ shorter _ rfl)

/-- A token is spelled with characters of the text it is read from. -/
theorem mem_of_mem_spelling
    {reading : TokenKind × String}
    {character : Char}
    (read : reading ∈ readings characters)
    (member : character ∈ reading.1.spelling reading.2) :
    character ∈ characters := by
  induction characters using Piece.cut_induction with
  | nil =>
      contradiction
  | cut characters piece rest found inductionHypothesis =>
      rw [readings_of_cut found, List.mem_append, Option.mem_toList] at read
      rw [← (Piece.cut?_eq_some found).1, List.mem_append]
      rcases read with first | later
      · rw [← Piece.spelling_of_cut found first]
        exact .inl member
      · exact .inr (inductionHypothesis later)

end Cutting

/--
What the readings of any text are like: behind a quote that is illegal, no token
has a quote in it.
-/
inductive Written : List (TokenKind × String) → Prop where
  | nil :
      Written []
  | admitted
      {kind : TokenKind}
      {text : String}
      {words : List (TokenKind × String)}
      (legal : kind ≠ .illegal)
      (admits : kind.Admits text)
      (later : Written words) :
      Written ((kind, text) :: words)
  | illegal
      {character : Char}
      {text : String}
      {words : List (TokenKind × String)}
      (single : text = character.toString)
      (nothing : LexicalRule.StartsNothing character)
      (unclosed :
        character = '"' → ∀ word ∈ words, '"' ∉ word.1.spelling word.2)
      (later : Written words) :
      Written ((.illegal, text) :: words)

theorem written_readings (characters : List Char) :
    Written (readings characters) := by
  induction characters using Piece.cut_induction with
  | nil =>
      exact .nil
  | cut characters piece rest found inductionHypothesis =>
      have whole := (Piece.cut?_eq_some found).1
      rw [readings_of_cut found]
      obtain ⟨rule, matched, same⟩ | ⟨character, unmatched, lexeme, same⟩ :=
        Piece.cases_of_cut found
      · obtain ⟨member, matched⟩ := LexicalRule.firstMatch?_eq_some matched
        rw [same]
        cases reading : rule.reading? piece.lexeme with
        | none =>
            exact inductionHypothesis
        | some kindAndText =>
            exact .admitted (LexicalRule.legal_reading member reading)
              (admits_reading member matched reading) inductionHypothesis
      · rw [lexeme, List.singleton_append] at whole
        rw [← whole, LexicalRule.firstMatch?_eq_none_iff] at unmatched
        obtain ⟨nothing, unclosed⟩ := unmatched
        rw [same]
        refine .illegal rfl nothing ?_ inductionHypothesis
        intro quote word member inside
        exact unclosed quote (mem_of_mem_spelling member inside)

/-- Every token but an illegal one is scanned wherever its spelling stands. -/
theorem Scans.admitted
    {kind : TokenKind}
    {text : String}
    (legal : kind ≠ .illegal)
    (admits : kind.Admits text) :
    Scans (kind.spelling text) [(kind, text)] := by
  have sign
      {kind : TokenKind}
      {text : String}
      (member : LexicalRule.symbol text kind ∈ LexicalRule.table) :
      Scans text.toList [(kind, text)] := by
    have scanned := Scans.nil.symbol member nofun
    rwa [List.append_nil] at scanned
  cases kind with
  | illegal =>
      contradiction
  | endOfInput =>
      contradiction
  | identifier =>
      exact .name admits
  | number =>
      exact .numeral admits
  | string =>
      exact .quoted admits
  | letWord | fnWord | returnWord | ifWord | elseWord | trueWord | falseWord =>
      obtain rfl := Option.some.inj admits
      exact .reserved (by decide)
  | _ =>
      obtain rfl := Option.some.inj admits
      exact sign (by decide)

/-- Only blanks. -/
def AllBlank (gap : List Char) : Prop :=
  ∀ character ∈ gap, Text.isBlank character = true

/--
The text writes the tokens out in order: each is followed by blanks, of which
there is at least one where another token comes next.
-/
inductive Spaced : List Token → List Char → Prop where
  | nil :
      Spaced [] []
  | cons
      {token : Token}
      {tokens : List Token}
      {gap text : List Char}
      (blank : AllBlank gap)
      (apart : tokens ≠ [] → gap ≠ [])
      (later : Spaced tokens text) :
      Spaced (token :: tokens) (token.spelling ++ (gap ++ text))

section Spacing

variable {tokens : List Token} {gap text : List Char}

/-- Blanks in front of a text are skipped. -/
theorem readings_of_blank
    (blank : AllBlank gap) :
    readings (gap ++ text) = readings text := by
  induction gap with
  | nil =>
      rfl
  | cons character others inductionHypothesis =>
      obtain ⟨first, rest⟩ := List.forall_mem_cons.mp blank
      rw [List.cons_append, readings_blank first, inductionHypothesis rest]

/-- What follows a token of a spaced text stands apart from it. -/
theorem Spaced.apart
    (blank : AllBlank gap)
    (separates : tokens ≠ [] → gap ≠ [])
    (spaced : Spaced tokens text) :
    Apart (gap ++ text) := by
  cases gap with
  | nil =>
      cases spaced with
      | nil =>
          exact nofun
      | cons =>
          exact absurd rfl (separates (List.cons_ne_nil _ _))
  | cons character others =>
      have first : Text.isBlank character = true :=
        blank character List.mem_cons_self
      apply apart_cons (LexicalRule.continuesWord_of_isBlank first)
      constructor
      · rintro rfl
        revert first
        decide
      · rintro rfl
        revert first
        decide

theorem AllBlank.not_mem_quote
    (blank : AllBlank gap) :
    '"' ∉ gap :=
  fun member => absurd (blank _ member) (by decide)

/-- A spaced text has a quote only where one of its tokens has. -/
theorem Spaced.not_mem_quote
    (spaced : Spaced tokens text)
    (unquoted : ∀ token ∈ tokens, '"' ∉ token.spelling) :
    '"' ∉ text := by
  induction spaced with
  | nil =>
      exact nofun
  | cons blank _ _ inductionHypothesis =>
      obtain ⟨first, rest⟩ := List.forall_mem_cons.mp unquoted
      simp only [List.mem_append, not_or]
      exact ⟨first, blank.not_mem_quote, inductionHypothesis rest⟩

/-- Tokens that some text has are scanned when they are written out again. -/
theorem Spaced.readings_eq
    (spaced : Spaced tokens text)
    (written : Written (tokens.map Token.reading)) :
    readings text = tokens.map Token.reading := by
  induction spaced with
  | nil =>
      rfl
  | cons blank apart later inductionHypothesis =>
      rename_i token tokens gap text
      have apartRest := later.apart blank apart
      obtain ⟨kind, value, span⟩ := token
      rw [List.map_cons]
      cases written with
      | admitted legal admits writtenLater =>
          have scanned := Scans.admitted legal admits _ apartRest
          rw [readings_of_blank blank, inductionHypothesis writtenLater]
            at scanned
          exact scanned
      | illegal single nothing unclosed writtenLater =>
          rename_i character
          have unmatched :
              LexicalRule.firstMatch? (character :: (gap ++ text)) = none := by
            rw [LexicalRule.firstMatch?_eq_none_iff]
            refine ⟨nothing, ?_⟩
            intro quote
            have unquoted : ∀ token ∈ tokens, '"' ∉ token.spelling :=
              fun token member =>
                unclosed quote _ (List.mem_map_of_mem member)
            simp only [List.mem_append, not_or]
            exact ⟨blank.not_mem_quote, later.not_mem_quote unquoted⟩
          have spelling : TokenKind.illegal.spelling value = [character] := by
            rw [TokenKind.spelling_of_ne (by decide), ← String.toList_singleton]
            exact congrArg String.toList single
          rw [Token.spelling, spelling, List.singleton_append,
            readings_of_unmatched unmatched, readings_of_blank blank,
            inductionHypothesis writtenLater, ← single]
          rfl

/-- Any blanks at all can be put behind every token. -/
theorem spaced_evenly
    (tokens : List Token)
    (blank : AllBlank gap)
    (nonempty : gap ≠ []) :
    Spaced tokens (tokens.flatMap fun token => token.spelling ++ gap) := by
  induction tokens with
  | nil =>
      exact .nil
  | cons token tokens inductionHypothesis =>
      rw [List.flatMap_cons, List.append_assoc]
      exact .cons blank (fun _ => nonempty) inductionHypothesis

end Spacing

/-- Tokens with the same readings one by one read the same. -/
theorem Token.sameReadings_of_map_reading
    {left right : List Token}
    (same : left.map Token.reading = right.map Token.reading) :
    sameReadings left right = true := by
  induction left generalizing right with
  | nil =>
      rw [List.map_nil, eq_comm, List.map_eq_nil_iff] at same
      rw [same]
      rfl
  | cons first rest inductionHypothesis =>
      obtain ⟨other, others, rfl, sameFirst, sameRest⟩ :=
        List.map_eq_cons_iff.mp same.symm
      have later := inductionHypothesis sameRest.symm
      obtain ⟨kind, value⟩ := Prod.mk.inj sameFirst
      have firstSame : first.sameReading other = true :=
        sameReading_eq_true_iff.mpr ⟨kind.symm, value.symm⟩
      simp only [sameReadings, Bool.and_eq_true, beq_iff_eq] at later ⊢
      refine ⟨congrArg Nat.succ later.1, ?_⟩
      rw [List.zip_cons_cons, List.all_cons, firstSame, later.2]
      rfl

/-- The readings of the tokens of a source text, through its end of input. -/
theorem Token.map_reading_tokenize_all (source file : String) :
    (tokenize source file).map Token.reading =
      readings source.toList ++ [(.endOfInput, "EOF")] := by
  rw [← map_reading_tokenize source file, beforeEnd_tokenize, tokenize,
    List.map_append]
  rfl

/-- Texts with the same readings are displaced from each other. -/
theorem displaced_of_readings
    {source file otherSource otherFile : String}
    (same : readings otherSource.toList = readings source.toList) :
    (TokenStream.ofTokens (tokenize source file)).Displaced
      (TokenStream.ofTokens (tokenize otherSource otherFile)) := by
  constructor
  · simp only [TokenStream.ofTokens, Token.map_reading_tokenize, same]
  · rw [TokenStream.last_tokenize, TokenStream.last_tokenize]
    rfl

namespace Parsed

/--
Layout does not matter.  However the tokens of a source text are spaced out by
blanks, the text that results has the same tokens and is read as a program of
the same shape, with the same messages.
-/
theorem layout_is_free
    (source file otherFile : String)
    (lead text : List Char)
    (leadBlank : AllBlank lead)
    (spaced : Spaced (TokenStream.beforeEnd (tokenize source file)) text) :
    let respaced := String.ofList (lead ++ text)
    Token.sameReadings
        (tokenize respaced otherFile) (tokenize source file) =
          true ∧
      ∀ strictBlocks,
        (ofSource strictBlocks source file).program.sameShape
              (ofSource strictBlocks respaced otherFile).program =
            true ∧
          (ofSource strictBlocks respaced otherFile).messages =
            (ofSource strictBlocks source file).messages := by
  intro respaced
  have same : readings respaced.toList = readings source.toList := by
    have written := written_readings source.toList
    rw [← Token.map_reading_tokenize source file] at written ⊢
    rw [String.toList_ofList, readings_of_blank leadBlank,
      spaced.readings_eq written]
  refine ⟨?_, ?_⟩
  · apply Token.sameReadings_of_map_reading
    rw [Token.map_reading_tokenize_all, Token.map_reading_tokenize_all, same]
  · intro strictBlocks
    exact alike_ofStream strictBlocks (displaced_of_readings same)

/-- A source text with an illegal character and a quote that is left open. -/
def unclosedSource : String :=
  "let a=\"b\"!=1@\"c"

/-- Its tokens, a tab behind each of them. -/
def unclosedSpread : List Char :=
  (TokenStream.beforeEnd (tokenize unclosedSource "here")).flatMap
    fun token => token.spelling ++ ['\t']

/-- What is illegal stays so when it is written out again, and nothing else is. -/
theorem layout_is_free_unclosed :
    '\n' :: unclosedSpread =
        "\nlet\ta\t=\t\"b\"\t!=\t1\t@\t\"\tc\t".toList ∧
      AllBlank ['\n'] ∧
      Spaced (TokenStream.beforeEnd (tokenize unclosedSource "here"))
        unclosedSpread ∧
      Token.sameReadings
          (tokenize (String.ofList (['\n'] ++ unclosedSpread)) "there")
          (tokenize unclosedSource "here") =
        true ∧
      ∀ strictBlocks,
        (ofSource strictBlocks unclosedSource "here").program.sameShape
              (ofSource strictBlocks
                (String.ofList (['\n'] ++ unclosedSpread)) "there").program =
            true ∧
          (ofSource strictBlocks
              (String.ofList (['\n'] ++ unclosedSpread)) "there").messages =
            (ofSource strictBlocks unclosedSource "here").messages := by
  have lead : AllBlank ['\n'] :=
    List.forall_mem_singleton.mpr (by decide)
  have gap : AllBlank ['\t'] :=
    List.forall_mem_singleton.mpr (by decide)
  have spaced :
      Spaced (TokenStream.beforeEnd (tokenize unclosedSource "here"))
        unclosedSpread :=
    spaced_evenly _ gap (List.cons_ne_nil _ _)
  exact ⟨by decide +kernel, lead, spaced,
    layout_is_free unclosedSource "here" "there" _ _ lead spaced⟩

end Parsed

end Scriptlet
