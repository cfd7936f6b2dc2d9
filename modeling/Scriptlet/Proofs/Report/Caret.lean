import Scriptlet.Proofs.Text.Lookup
import Scriptlet.Proofs.Token.Joining
import Scriptlet.Report

namespace Scriptlet

/-!
# Where the caret of a report stands

A report prints the line that a token starts on, without its indentation, and below it a
caret behind as many dashes as the line has *bytes* in front of the token.  A reader
counts characters.  So the caret stands under the first character of the token when all
that is printed of the line in front of it takes one byte a character, and otherwise
stands too far to the right, by one column for every further byte.
-/

namespace Text

/-- The part of a text behind its last newline. -/
def lastLine (characters : List Char) : List Char :=
  (characters.reverse.takeWhile (· != '\n')).reverse

section Lines

variable
  {characters front back line passed behind : List Char}
  {lines : List (List Char)}
  {character : Char}

theorem lastLine_append_newline :
    lastLine (front ++ '\n' :: back) = lastLine back := by
  rw [lastLine, List.reverse_append, List.reverse_cons, List.append_assoc,
    List.singleton_append, LexicalRule.takeWhile_append_newline (by decide)]
  rfl

theorem lastLine_of_unbroken
    (unbroken : '\n' ∉ line) :
    lastLine line = line := by
  have all : ∀ character ∈ line.reverse, (character != '\n') = true := by
    intro character member
    rw [bne_iff_ne]
    rintro rfl
    exact unbroken (List.mem_reverse.mp member)
  have whole : (line.reverse ++ []).takeWhile (· != '\n') = line.reverse :=
    LexicalRule.takeWhile_append_of_head all (by simp)
  rw [List.append_nil] at whole
  rw [lastLine, whole, List.reverse_reverse]

/-- No newline is in front of a place on a line. -/
theorem Lines.unbroken_of_prefix
    {rest : List Char}
    (split : Lines characters ((front ++ rest) :: lines))
    (inside : rest ≠ []) :
    '\n' ∉ front := by
  generalize whole : front ++ rest = line at split
  intro member
  cases split with
  | last nonempty unbroken =>
      rw [← whole] at unbroken
      exact unbroken (List.mem_append_left _ member)
  | next unbroken later =>
      rename_i body behind
      rw [← List.dropLast_concat_getLast inside, ← List.append_assoc] at whole
      have isBody := (List.append_inj' whole rfl).1
      rw [← isBody] at unbroken
      exact unbroken (List.mem_append_left _ member)

/-- What is in front of a place on a line is the last line of what is passed. -/
theorem Lines.lastLine_eq
    {earlier : List (List Char)}
    {rest : List Char}
    (split : Lines characters (earlier ++ (front ++ rest) :: lines))
    (inside : rest ≠ []) :
    lastLine (earlier.flatten ++ front) = front := by
  induction earlier generalizing characters with
  | nil =>
      exact lastLine_of_unbroken (split.unbroken_of_prefix inside)
  | cons first others inductionHypothesis =>
      obtain ⟨body, behind, -, rfl, -, later⟩ := Lines.of_more split (by simp)
      rw [List.flatten_cons, List.append_assoc, List.append_assoc,
        List.singleton_append, lastLine_append_newline]
      exact inductionHypothesis later

theorem length_le_byteSize (characters : List Char) :
    characters.length ≤ byteSize characters := by
  induction characters with
  | nil =>
      exact Nat.le_refl 0
  | cons first rest inductionHypothesis =>
      have positive := first.utf8Size_pos
      rw [List.length_cons, byteSize_cons]
      omega

/-- A text has as many bytes as characters when each character takes one. -/
theorem byteSize_eq_length_iff :
    byteSize characters = characters.length ↔
      ∀ character ∈ characters, character.utf8Size = 1 := by
  induction characters with
  | nil =>
      simp
  | cons first rest inductionHypothesis =>
      have positive := first.utf8Size_pos
      have bound := length_le_byteSize rest
      rw [List.forall_mem_cons, ← inductionHypothesis, List.length_cons, byteSize_cons]
      omega

/-- The blanks at the end of a text are behind everything visible. -/
theorem dropBlankEnd_append_visible
    (visible : isBlank character = false) :
    dropBlankEnd (front ++ character :: behind) =
      front ++ character :: dropBlankEnd behind := by
  rw [dropBlankEnd, List.reverse_append, List.reverse_cons, List.append_assoc,
    List.dropWhile_append]
  split
  · rename_i blank
    rw [List.isEmpty_iff] at blank
    simp [dropBlankEnd, blank, visible]
  · simp [dropBlankEnd]

/-- The place of what stands behind a front part of a text. -/
theorem placeAt?_of_passed
    {content : String}
    (whole : content.toList = passed ++ character :: behind) :
    ∃ others,
      placeAt? content (byteSize passed) =
        some ⟨newlinesBefore content (byteSize passed) + 1,
          String.ofList (lastLine passed ++ character :: others),
          byteSize (lastLine passed)⟩ := by
  have inside : byteSize passed < byteSize (splitLines content.toList).flatten := by
    have positive := character.utf8Size_pos
    rw [flatten_splitLines, whole, byteSize_append, byteSize_cons]
    omega
  obtain ⟨earlier, line, later, column, isSplit, sum, within, found⟩ :=
    placeAmong?_of_lt 1 inside
  have split := lines_iff_eq_splitLines.mpr isSplit.symm
  have text : content.toList = earlier.flatten ++ (line ++ later.flatten) := by
    rw [← split.flatten]
    simp
  have isFront : earlier.flatten <+: passed := by
    refine prefix_of_byteSize_le ⟨_, text.symm⟩ ⟨_, whole.symm⟩ ?_
    omega
  obtain ⟨front, rfl⟩ := isFront
  rw [byteSize_append] at sum
  have sameRest : front ++ character :: behind = line ++ later.flatten := by
    rw [whole, List.append_assoc] at text
    exact List.append_cancel_left text
  have isLine : front <+: line := by
    refine prefix_of_byteSize_le ⟨_, rfl⟩ ⟨_, sameRest.symm⟩ ?_
    omega
  obtain ⟨rest, rfl⟩ := isLine
  have nonempty : rest ≠ [] := by
    rw [byteSize_append] at within
    rw [← byteSize_pos_iff]
    omega
  obtain ⟨first, others, rfl⟩ := List.exists_cons_of_ne_nil nonempty
  rw [List.append_assoc] at sameRest
  obtain ⟨rfl, -⟩ := List.cons.inj (List.append_cancel_left sameRest)
  have number := (Place.standsAt_of_lines split sum (.inl within)).number
  have isColumn : column = byteSize front := by
    omega
  have notPast : ¬ byteSize content.toList < byteSize (earlier.flatten ++ front) := by
    rw [flatten_splitLines] at inside
    omega
  refine ⟨others, ?_⟩
  simp only [placeAt?, if_neg notPast, found]
  rw [split.lastLine_eq nonempty, byteSize_append, ← number, Nat.add_comm 1, isColumn]

end Lines

end Text

section Tokens

variable
  {file : String}
  {offset : Nat}
  {characters rest : List Char}
  {piece : Piece}
  {token : Token}

/-- What is cut off a text for a token starts with a visible character. -/
theorem Piece.visible_of_cut
    (found : cut? offset characters = some (piece, rest))
    (speaks : piece.reading? ≠ none) :
    ∃ first others,
      piece.lexeme = first :: others ∧ Text.isBlank first = false := by
  cases characters with
  | nil =>
      contradiction
  | cons character behind =>
      obtain ⟨rfl, -⟩ := Prod.mk.inj (Option.some.inj found)
      obtain ⟨nonempty, front⟩ := first_lexeme offset character behind
      obtain ⟨first, others, shape⟩ := List.exists_cons_of_ne_nil nonempty
      rw [shape, List.cons_prefix_cons] at front
      obtain ⟨rfl, -⟩ := front
      refine ⟨first, others, shape, ?_⟩
      rw [Bool.eq_false_iff]
      intro blank
      -- A blank character would have been cut off with the blanks, without a token.
      apply speaks
      rw [Piece.first, LexicalRule.firstMatch?_blanks blank]
      rfl

/-- A token starts where its spelling stands, and visibly. -/
theorem Piece.exists_spelled
    (member : token ∈ tokensFrom file offset characters) :
    ∃ passed behind first others,
      characters = passed ++ (token.spelling ++ behind) ∧
        token.start = Position.ofOffset file (offset + Text.byteSize passed) ∧
        token.spelling = first :: others ∧
        Text.isBlank first = false := by
  -- The induction is on the length: each piece cut off leaves a shorter text.
  induction length : characters.length using Nat.strongRecOn
    generalizing offset characters with
  | ind count inductionHypothesis =>
      subst length
      cases found : cut? offset characters with
      | none =>
          cases characters with
          | nil =>
              contradiction
          | cons character others =>
              contradiction
      | some cutOff =>
          obtain ⟨piece, rest⟩ := cutOff
          obtain ⟨whole, shorter⟩ := cut?_eq_some found
          rw [tokensFrom_of_cut file found, List.mem_append, Option.mem_toList] at member
          rcases member with made | later
          · obtain ⟨reading, read, rfl⟩ := Option.map_eq_some_iff.mp made
            have spelling : reading.1.spelling reading.2 = piece.lexeme :=
              spelling_of_cut found read
            obtain ⟨first, others, shape, visible⟩ :=
              visible_of_cut found (by rw [read]; exact Option.some_ne_none reading)
            refine ⟨[], rest, first, others, ?_, ?_, spelling.trans shape, visible⟩
            · rw [← whole, ← spelling]
              rfl
            · rw [← offset_of_cut found]
              rfl
          · obtain ⟨passed, behind, first, others, text, start, shape, visible⟩ :=
              inductionHypothesis rest.length shorter later rfl
            refine ⟨piece.lexeme ++ passed, behind, first, others, ?_, ?_, shape,
              visible⟩
            · rw [← whole, text, List.append_assoc]
            · rw [start, stop, offset_of_cut found, size, Text.byteSize_append,
                Nat.add_assoc]

end Tokens

namespace Excerpt

/-- What is printed of a line in front of the place up to which a text is passed. -/
def shownBefore (passed : List Char) : List Char :=
  (Text.lastLine passed).dropWhile isIndentation

/-- What is printed in front of the line with a number. -/
def gutter (number : Nat) : List Char :=
  (toString number ++ " | ").toList

variable {passed behind : List Char} {character : Char}

theorem not_isIndentation
    (visible : Text.isBlank character = false) :
    isIndentation character = false := by
  rw [Bool.eq_false_iff]
  intro indents
  simp only [isIndentation, Bool.or_eq_true, beq_iff_eq] at indents
  rcases indents with rfl | rfl
  · contradiction
  · contradiction

/-- The excerpt for a place keeps what is printed in front of it and what is there. -/
theorem ofPlace_of_visible
    (number : Nat)
    (visible : Text.isBlank character = false) :
    ofPlace
        ⟨number, String.ofList (Text.lastLine passed ++ character :: behind),
          Text.byteSize (Text.lastLine passed)⟩ =
      ⟨number,
        String.ofList (shownBefore passed ++ character :: Text.dropBlankEnd behind),
        Text.byteSize (shownBefore passed)⟩ := by
  have indented :
      Text.byteSize (Text.lastLine passed) =
        Text.byteSize ((Text.lastLine passed).takeWhile isIndentation) +
          Text.byteSize (shownBefore passed) := by
    rw [shownBefore, ← Text.byteSize_append, List.takeWhile_append_dropWhile]
  have shown :
      (Text.lastLine passed ++ character :: behind).dropWhile isIndentation =
        shownBefore passed ++ character :: behind := by
    rw [List.dropWhile_append, shownBefore]
    split
    · rename_i none
      rw [List.isEmpty_iff.mp none, List.dropWhile_cons, if_neg]
      · rfl
      · simp [not_isIndentation visible]
    · rfl
  simp only [ofPlace, String.toList_ofList, shown,
    Text.dropBlankEnd_append_visible visible, Text.byteSize_append, indented,
    Excerpt.mk.injEq, true_and]
  omega

/-- The lines of an excerpt without colours. -/
theorem lines_plain
    (number dashes : Nat)
    (shown : List Char) :
    ∃ bar source pointer before,
      (⟨number, String.ofList shown, dashes⟩ : Excerpt).lines .plain =
          [bar, source, pointer] ∧
        source.toList = gutter number ++ shown ∧
        pointer.toList = before ++ ['^'] ∧
        '^' ∉ before ∧
        before.length = (gutter number).length + dashes := by
  refine ⟨_, _, _,
    List.replicate ((toString number).length + 1) ' ' ++
      ('|' :: ' ' :: List.replicate dashes '-'), rfl, ?_, ?_, ?_, ?_⟩
  · simp [gutter, Style.guide, Style.rule, Style.paint]
  · have one : "|".length = 1 := rfl
    simp [bar, pointer, alignRight, Style.rule, Style.alert, Style.paint, one]
  · simp
  · have three : " | ".toList.length = 3 := rfl
    simp only [gutter, String.toList_append, List.length_append, three,
      String.length_toList, List.length_replicate, List.length_cons]
    omega

end Excerpt

/--
The report on a fault at a token ends with the line of the text that the token starts on
and with the line of the caret.  The first number says how many characters of the one
line are printed in front of the first character of the token, the second how many of
the other are in front of the caret.
-/
inductive Diagnostic.Columns
    (content : String)
    (token : Token)
    (fault : Fault) :
    Nat → Nat → Prop where
  | lines
      {above : List String}
      {source pointer : String}
      {passed rest shown before : List Char}
      (report :
        (⟨fault, token.start⟩ : Diagnostic).report .plain content =
          above ++ [source, pointer])
      (text : content.toList = passed ++ (token.spelling ++ rest))
      (place : Text.byteSize passed = token.start.offset.toNat)
      (line :
        source.toList =
          Excerpt.gutter (Text.newlinesBefore content (Text.byteSize passed) + 1) ++
            Excerpt.shownBefore passed ++ shown)
      (starts : shown.head? = token.spelling.head?)
      (points : pointer.toList = before ++ ['^'])
      (only : '^' ∉ before) :
      Columns content token fault
        (Excerpt.gutter (Text.newlinesBefore content (Text.byteSize passed) + 1) ++
          Excerpt.shownBefore passed).length
        before.length

section Reports

variable
  {content file : String}
  {token : Token}
  {fault : Fault}
  {passed rest : List Char}

/-- A token of a text, the end of input apart, is spelled where it starts. -/
theorem Token.exists_spelled
    (small : content.utf8ByteSize < UInt32.size)
    (member : token ∈ tokenize content file)
    (notEnd : token.kind ≠ .endOfInput) :
    ∃ passed rest first others,
      content.toList = passed ++ (token.spelling ++ rest) ∧
        Text.byteSize passed = token.start.offset.toNat ∧
        token.spelling = first :: others ∧
        Text.isBlank first = false := by
  rw [tokenize_eq, List.mem_append, List.mem_singleton] at member
  rcases member with among | rfl
  · obtain ⟨passed, rest, first, others, text, start, shape, visible⟩ :=
      Piece.exists_spelled among
    refine ⟨passed, rest, first, others, text, ?_, shape, visible⟩
    have size : Text.byteSize passed ≤ content.utf8ByteSize := by
      rw [← Text.byteSize_toList, text, Text.byteSize_append]
      exact Nat.le_add_right _ _
    rw [start, Nat.zero_add, Position.toNat_offset_ofOffset (by omega)]
  · exact (notEnd rfl).elim

namespace Diagnostic

/-- How far the dashes lead is measured in bytes. -/
theorem columns_of_spelled
    {first : Char}
    {others : List Char}
    (text : content.toList = passed ++ (token.spelling ++ rest))
    (place : Text.byteSize passed = token.start.offset.toNat)
    (shape : token.spelling = first :: others)
    (visible : Text.isBlank first = false)
    (fault : Fault) :
    Columns content token fault
      (Excerpt.gutter (Text.newlinesBefore content (Text.byteSize passed) + 1) ++
        Excerpt.shownBefore passed).length
      ((Excerpt.gutter
          (Text.newlinesBefore content (Text.byteSize passed) + 1)).length +
        Text.byteSize (Excerpt.shownBefore passed)) := by
  have whole : content.toList = passed ++ first :: (others ++ rest) := by
    rw [text, shape, List.cons_append]
  obtain ⟨behind, found⟩ := Text.placeAt?_of_passed whole
  obtain ⟨bar, source, pointer, before, printed, line, points, only, dashes⟩ :=
    Excerpt.lines_plain (Text.newlinesBefore content (Text.byteSize passed) + 1)
      (Text.byteSize (Excerpt.shownBefore passed))
      (Excerpt.shownBefore passed ++ first :: Text.dropBlankEnd behind)
  rw [← List.append_assoc] at line
  have reported :
      ∃ above,
        (⟨fault, token.start⟩ : Diagnostic).report .plain content =
          above ++ [source, pointer] := by
    simp only [report, ← place, found, Excerpt.ofPlace_of_visible _ visible, printed]
    exact ⟨[_, _, bar], rfl⟩
  obtain ⟨above, reported⟩ := reported
  rw [← dashes]
  exact .lines reported text place line (by rw [shape]; rfl) points only

/-- There is one column of the token, and one of the caret. -/
theorem Columns.unique
    {column caret otherColumn otherCaret : Nat}
    (columns : Columns content token fault column caret)
    (others : Columns content token fault otherColumn otherCaret) :
    column = otherColumn ∧ caret = otherCaret := by
  cases columns with
  | lines report text place line starts points only =>
      rename_i above source pointer passed rest shown before
      cases others with
      | lines otherReport otherText otherPlace otherLine otherStarts otherPoints
          otherOnly =>
          rename_i otherAbove otherSource otherPointer otherPassed otherRest otherShown
            otherBefore
          have samePassed : passed = otherPassed := by
            have cut := Text.dropBytes?_append passed (token.spelling ++ rest)
            have otherCut :=
              Text.dropBytes?_append otherPassed (token.spelling ++ otherRest)
            rw [← text, place] at cut
            rw [← otherText, otherPlace, cut, Option.some.injEq] at otherCut
            rw [text, otherCut] at otherText
            exact List.append_cancel_right otherText
          have sameLines : [source, pointer] = [otherSource, otherPointer] :=
            (List.append_inj' (report.symm.trans otherReport) rfl).2
          have samePointer : pointer = otherPointer := by
            simpa using (List.cons.inj sameLines).2
          have sameBefore : before = otherBefore := by
            rw [samePointer, otherPoints] at points
            exact List.append_cancel_right points.symm
          rw [samePassed, sameBefore]
          exact ⟨rfl, rfl⟩

end Diagnostic

end Reports

/--
In the report on a fault at a token, the end of input apart, the columns of the token
and of the caret are those behind the line number and what is printed of the line in
front of the token, measured in characters for the token and in bytes for the caret.
So the caret is under the token exactly when each of these characters takes one byte.
-/
theorem Diagnostic.caret_under_token_iff
    (content file : String)
    (token : Token)
    (fault : Fault)
    (small : content.utf8ByteSize < UInt32.size)
    (member : token ∈ tokenize content file)
    (notEnd : token.kind ≠ .endOfInput) :
    ∃ passed rest margin,
      content.toList = passed ++ (token.spelling ++ rest) ∧
        Text.byteSize passed = token.start.offset.toNat ∧
        margin =
          (Excerpt.gutter
            (Text.newlinesBefore content (Text.byteSize passed) + 1)).length ∧
        (∀ column caret,
          Columns content token fault column caret ↔
            column = margin + (Excerpt.shownBefore passed).length ∧
              caret = margin + Text.byteSize (Excerpt.shownBefore passed)) ∧
        ((∃ column, Columns content token fault column column) ↔
          ∀ character ∈ Excerpt.shownBefore passed, character.utf8Size = 1) := by
  obtain ⟨passed, rest, first, others, text, place, shape, visible⟩ :=
    Token.exists_spelled small member notEnd
  have standing := columns_of_spelled text place shape visible fault
  rw [List.length_append] at standing
  generalize isMargin :
    (Excerpt.gutter
      (Text.newlinesBefore content (Text.byteSize passed) + 1)).length = margin
      at standing
  refine ⟨passed, rest, margin, text, place, isMargin.symm, ?_, ?_⟩
  · intro column caret
    constructor
    · exact fun columns => columns.unique standing
    · rintro ⟨rfl, rfl⟩
      exact standing
  · rw [← Text.byteSize_eq_length_iff]
    constructor
    · rintro ⟨column, columns⟩
      have same := columns.unique standing
      omega
    · intro same
      rw [same] at standing
      exact ⟨_, standing⟩

/-- A string with a character of two bytes in front of an illegal character. -/
def accentedText : String :=
  "\"é\" #"

/-- The illegal character, which starts at the sixth byte of the text. -/
def illegalToken : Token :=
  ⟨.illegal, "#", Span.ofOffset "caret" 5 1⟩

/-- A line with an indentation in front of the same illegal character. -/
def indentedText : String :=
  "let a = 1;\n\t  a #"

/-- The illegal character on the second line, which starts at byte 16. -/
def indentedToken : Token :=
  ⟨.illegal, "#", Span.ofOffset "caret" 16 1⟩

theorem Diagnostic.caret_under_token_iff_indented :
    indentedText.utf8ByteSize < UInt32.size ∧
      indentedToken ∈ tokenize indentedText "caret" ∧
      indentedToken.kind ≠ .endOfInput ∧
      ∃ passed rest margin,
        indentedText.toList = passed ++ (indentedToken.spelling ++ rest) ∧
          Text.byteSize passed = indentedToken.start.offset.toNat ∧
          margin =
            (Excerpt.gutter
              (Text.newlinesBefore indentedText (Text.byteSize passed) + 1)).length ∧
          (∀ column caret,
            Columns indentedText indentedToken (.noExpression .illegal) column caret ↔
              column = margin + (Excerpt.shownBefore passed).length ∧
                caret = margin + Text.byteSize (Excerpt.shownBefore passed)) ∧
          ((∃ column,
              Columns indentedText indentedToken (.noExpression .illegal) column
                column) ↔
            ∀ character ∈ Excerpt.shownBefore passed, character.utf8Size = 1) := by
  have small : indentedText.utf8ByteSize < UInt32.size := by
    decide +kernel
  have member : indentedToken ∈ tokenize indentedText "caret" := by
    decide +kernel
  have notEnd : indentedToken.kind ≠ .endOfInput := by
    decide
  exact ⟨small, member, notEnd,
    Diagnostic.caret_under_token_iff indentedText "caret" indentedToken
      (.noExpression .illegal) small member notEnd⟩

/--
The caret is not under every token: the illegal character of this text is printed in the
ninth column, and the caret in the tenth.
-/
theorem Diagnostic.caret_beside_token :
    accentedText.utf8ByteSize < UInt32.size ∧
      illegalToken ∈ tokenize accentedText "caret" ∧
      illegalToken.kind ≠ .endOfInput ∧
      (⟨.noExpression .illegal, illegalToken.start⟩ : Diagnostic) ∈
        (Parsed.ofSource true accentedText "caret").diagnostics ∧
      (⟨.noExpression .illegal, illegalToken.start⟩ : Diagnostic).report .plain
          accentedText =
        [ "Error: no prefix parse function for Illegal found " ++
            "(A \x60Illegal\x60 token cannot start an expression)",
          "-> caret:1",
          "  |",
          "1 | \"é\" #",
          "  | -----^" ] ∧
      Columns accentedText illegalToken (.noExpression .illegal) 8 9 ∧
      ¬ ∃ column,
        Columns accentedText illegalToken (.noExpression .illegal) column column := by
  have text :
      accentedText.toList = "\"é\" ".toList ++ (illegalToken.spelling ++ []) := by
    decide
  have place : Text.byteSize "\"é\" ".toList = illegalToken.start.offset.toNat := by
    decide
  have standing :=
    columns_of_spelled text place rfl (by decide) (.noExpression .illegal)
  have column :
      (Excerpt.gutter
            (Text.newlinesBefore accentedText (Text.byteSize "\"é\" ".toList) + 1) ++
          Excerpt.shownBefore "\"é\" ".toList).length = 8 := by
    decide +kernel
  have caret :
      (Excerpt.gutter
            (Text.newlinesBefore accentedText (Text.byteSize "\"é\" ".toList) + 1)).length +
          Text.byteSize (Excerpt.shownBefore "\"é\" ".toList) = 9 := by
    decide +kernel
  rw [column, caret] at standing
  refine ⟨by decide +kernel, by decide +kernel, by decide, by decide +kernel,
    by decide +kernel, standing, ?_⟩
  rintro ⟨both, columns⟩
  obtain ⟨isColumn, isCaret⟩ := columns.unique standing
  omega

end Scriptlet
