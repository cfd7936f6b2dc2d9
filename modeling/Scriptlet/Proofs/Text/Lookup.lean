import Scriptlet.Text.Lines

namespace Scriptlet.Text

/-!
# Looking up the line of an offset

A byte offset belongs to the line whose range of bytes it lies in, and each line has
the newline that ends it.  So the number of a line is one more than the number of
newlines in front of the offset, also where the offset lies inside a character, and
the bytes of the earlier lines and the offset within the line add up to the offset.
The end of a text belongs to its last line, where that has no newline.  Behind a
final newline there is no line any more: the last one is shown without its ending.
-/

/--
The lines of a text: each goes on to the first newline, which it keeps, and only the
last one may lack one.
-/
inductive Lines : List Char → List (List Char) → Prop where
  | nothing :
      Lines [] []
  | last
      {line : List Char}
      (nonempty : line ≠ [])
      (unbroken : '\n' ∉ line) :
      Lines line [line]
  | next
      {body rest : List Char}
      {lines : List (List Char)}
      (unbroken : '\n' ∉ body)
      (later : Lines rest lines) :
      Lines (body ++ '\n' :: rest) ((body ++ ['\n']) :: lines)

/-- The number of newlines among the bytes of a text in front of an offset. -/
def newlinesBefore (content : String) (offset : Nat) : Nat :=
  (content.toUTF8.data.toList.take offset).count '\n'.toUInt8

/-- The text does not end with a newline, and it is not empty. -/
def EndsOnLine (content : String) : Prop :=
  ∃ last, content.toList.getLast? = some last ∧ last ≠ '\n'

/-- The text ends with a newline. -/
def EndsBehindLine (content : String) : Prop :=
  content.toList.getLast? = some '\n'

/--
The place is that of the offset: as many newlines stand in front of it as lines do,
and these lines and the part of its own line take up the bytes in front of it.
-/
structure Place.StandsAt
    (content : String)
    (offset : Nat)
    (place : Place) :
    Prop where
  number : place.number = newlinesBefore content offset + 1
  line :
    ∃ front back,
      Lines content.toList (front ++ place.line.toList :: back) ∧
        place.number = front.length + 1 ∧
        byteSize front.flatten + place.offset = offset

/-- The place is the start of the last line, without the ending of the line. -/
structure Place.StandsOnLast
    (content : String)
    (place : Place) :
    Prop where
  line :
    ∃ front ending,
      Lines content.toList (front ++ [place.line.toList ++ ending]) ∧
        place.number = front.length + 1 ∧
        (ending = ['\r', '\n'] ∨
          ending = ['\n'] ∧ place.line.toList.getLast? ≠ some '\r')
  offset : place.offset = 0

section Splitting

variable {characters line body rest : List Char} {lines : List (List Char)}

theorem splitLines_of_unbroken
    (nonempty : line ≠ [])
    (unbroken : '\n' ∉ line) :
    splitLines line = [line] := by
  induction line with
  | nil =>
      contradiction
  | cons first others inductionHypothesis =>
      have step :
          splitLines (first :: others) = consToLines first (splitLines others) :=
        rfl
      rw [List.mem_cons, not_or] at unbroken
      rw [step]
      cases others with
      | nil =>
          simp [splitLines, consToLines, Ne.symm unbroken.1]
      | cons second others =>
          simp [inductionHypothesis (List.cons_ne_nil _ _) unbroken.2, consToLines,
            Ne.symm unbroken.1]

theorem splitLines_append_newline
    (unbroken : '\n' ∉ body) :
    splitLines (body ++ '\n' :: rest) = (body ++ ['\n']) :: splitLines rest := by
  induction body with
  | nil =>
      rfl
  | cons first others inductionHypothesis =>
      have step :
          splitLines (first :: others ++ '\n' :: rest) =
            consToLines first (splitLines (others ++ '\n' :: rest)) :=
        rfl
      rw [List.mem_cons, not_or] at unbroken
      rw [step, inductionHypothesis unbroken.2]
      simp [consToLines, Ne.symm unbroken.1]

/-- A text has its lines in one way only. -/
theorem lines_iff_eq_splitLines :
    Lines characters lines ↔ lines = splitLines characters := by
  constructor
  · intro split
    induction split with
    | nothing =>
        rfl
    | last nonempty unbroken =>
        exact (splitLines_of_unbroken nonempty unbroken).symm
    | next unbroken later inductionHypothesis =>
        rw [splitLines_append_newline unbroken, inductionHypothesis]
  · rintro rfl
    induction length : characters.length using Nat.strongRecOn
      generalizing characters with
    | ind count inductionHypothesis =>
        subst length
        by_cases broken : '\n' ∈ characters
        · obtain ⟨body, rest, rfl, unbroken⟩ :=
            List.eq_append_cons_of_mem broken
          rw [splitLines_append_newline unbroken]
          refine .next unbroken (inductionHypothesis _ ?_ rfl)
          rw [List.length_append, List.length_cons]
          omega
        · by_cases empty : characters = []
          · subst empty
            exact .nothing
          · rw [splitLines_of_unbroken empty broken]
            exact .last empty broken

/-- The lines of a text make up the text. -/
theorem Lines.flatten
    (split : Lines characters lines) :
    lines.flatten = characters := by
  rw [lines_iff_eq_splitLines.mp split, flatten_splitLines]

/-- No line is empty. -/
theorem Lines.ne_nil_of_mem
    (split : Lines characters lines)
    (member : line ∈ lines) :
    line ≠ [] := by
  induction split with
  | nothing =>
      contradiction
  | last nonempty unbroken =>
      rwa [List.mem_singleton.mp member]
  | next unbroken later inductionHypothesis =>
      rcases List.mem_cons.mp member with rfl | among
      · simp
      · exact inductionHypothesis among

/-- A text ends as its last line does. -/
theorem Lines.getLast?_eq
    {front : List (List Char)}
    (split : Lines characters (front ++ [line])) :
    characters.getLast? = line.getLast? := by
  have nonempty := split.ne_nil_of_mem (List.mem_append_right _ List.mem_cons_self)
  rw [← split.flatten, List.flatten_append, List.flatten_singleton,
    List.getLast?_append, List.getLast?_eq_some_getLast nonempty, Option.some_or]

end Splitting

section Bytes

variable {characters front : List Char}

/-- The bytes of a text are those of its characters. -/
theorem toList_toUTF8 (content : String) :
    content.toUTF8.data.toList =
      content.toList.flatMap String.utf8EncodeChar := by
  rw [String.toUTF8_eq_toByteArray, ← String.utf8Encode_toList,
    List.utf8Encode, List.data_toByteArray]

theorem length_flatMap_utf8 (characters : List Char) :
    (characters.flatMap String.utf8EncodeChar).length = byteSize characters := by
  induction characters with
  | nil =>
      rfl
  | cons first rest inductionHypothesis =>
      rw [List.flatMap_cons, List.length_append, String.length_utf8EncodeChar,
        byteSize_cons, inductionHypothesis]

/-- The byte of a newline is no part of any other character. -/
theorem newline_not_mem_utf8
    {character : Char}
    (other : character ≠ '\n') :
    '\n'.toUInt8 ∉ String.utf8EncodeChar character := by
  have code : character.val.toNat ≠ 10 := by
    intro same
    exact other (Char.ext (UInt32.toNat_inj.mp same))
  have isTen : '\n'.toUInt8.toNat = 10 := rfl
  -- A character of one byte has its code for it; the others have none below 128.
  simp only [String.utf8EncodeChar]
  repeat' split
  all_goals
    simp only [List.mem_cons, List.not_mem_nil, or_false, ← UInt8.toNat_inj, isTen,
      UInt8.toNat_ofNat']
    omega

theorem newline_not_mem_flatMap
    (unbroken : '\n' ∉ characters) :
    '\n'.toUInt8 ∉ characters.flatMap String.utf8EncodeChar := by
  intro member
  obtain ⟨character, inside, among⟩ := List.mem_flatMap.mp member
  refine newline_not_mem_utf8 ?_ among
  rintro rfl
  exact unbroken inside

end Bytes

section Counting

variable {characters line : List Char} {front back : List (List Char)} {column : Nat}

/-- A line that another one follows ends with the first newline of the text. -/
theorem Lines.of_more
    {first : List Char}
    {others : List (List Char)}
    (split : Lines characters (first :: others))
    (more : others ≠ []) :
    ∃ body rest,
      '\n' ∉ body ∧
        first = body ++ ['\n'] ∧
        characters = first ++ rest ∧
        Lines rest others := by
  cases split with
  | last nonempty unbroken =>
      contradiction
  | next unbroken later =>
      exact ⟨_, _, unbroken, rfl, by simp, later⟩

/-- As many newlines stand in front of what is on a line as lines do. -/
theorem Lines.count_newlines
    (split : Lines characters (front ++ line :: back))
    (inside :
      column < byteSize line ∨
        column = byteSize line ∧ line.getLast? ≠ some '\n') :
    ((characters.flatMap String.utf8EncodeChar).take
        (byteSize front.flatten + column)).count '\n'.toUInt8 =
      front.length := by
  induction front generalizing characters with
  | nil =>
      simp only [List.flatten_nil, byteSize_nil, Nat.zero_add, List.length_nil,
        List.count_eq_zero]
      intro member
      cases split with
      | last nonempty unbroken =>
          exact newline_not_mem_flatMap unbroken (List.mem_of_mem_take member)
      | next unbroken later =>
          rename_i body rest
          have short : column ≤ byteSize body := by
            rcases inside with before | ⟨-, unended⟩
            · have one : '\n'.utf8Size = 1 := rfl
              simp only [byteSize_append, byteSize_cons, byteSize_nil, one] at before
              omega
            · simp at unended
          rw [List.flatMap_append, List.take_append_of_le_length
            (by rwa [length_flatMap_utf8])] at member
          exact newline_not_mem_flatMap unbroken (List.mem_of_mem_take member)
  | cons first others inductionHypothesis =>
      obtain ⟨body, rest, unbroken, ended, rfl, later⟩ :=
        Lines.of_more split (by simp)
      have earlier :
          (first.flatMap String.utf8EncodeChar).count '\n'.toUInt8 = 1 := by
        rw [ended, List.flatMap_append, List.count_append,
          List.count_eq_zero.mpr (newline_not_mem_flatMap unbroken)]
        rfl
      have counted := inductionHypothesis later
      rw [List.flatten_cons, byteSize_append, Nat.add_assoc, List.flatMap_append,
        ← length_flatMap_utf8 first, List.take_length_add_append,
        List.count_append, earlier, counted, List.length_cons, Nat.add_comm]

end Counting

section Places

variable {content : String} {line : List Char} {lines : List (List Char)} {offset : Nat}

/-- An offset inside the text is found on the line that it lies in. -/
theorem placeAmong?_of_lt
    (number : Nat)
    (inside : offset < byteSize lines.flatten) :
    ∃ front line back column,
      lines = front ++ line :: back ∧
        byteSize front.flatten + column = offset ∧
        column < byteSize line ∧
        placeAmong? number lines offset =
          some ⟨number + front.length, String.ofList line, column⟩ := by
  induction lines generalizing number offset with
  | nil =>
      contradiction
  | cons first others inductionHypothesis =>
      by_cases here : offset < byteSize first
      · exact ⟨[], first, others, offset, rfl, by simp, here,
          by simp [placeAmong?, here]⟩
      · rw [List.flatten_cons, byteSize_append] at inside
        obtain ⟨front, line, back, column, rfl, sum, within, found⟩ :=
          inductionHypothesis (number + 1)
            (show offset - byteSize first < byteSize others.flatten by omega)
        refine ⟨first :: front, line, back, column, rfl, ?_, within, ?_⟩
        · rw [List.flatten_cons, byteSize_append]
          omega
        · simp only [placeAmong?, if_neg here, found, List.length_cons]
          congr 2
          omega

theorem placeAmong?_of_le
    (number : Nat)
    (outside : byteSize lines.flatten ≤ offset) :
    placeAmong? number lines offset = none := by
  induction lines generalizing number offset with
  | nil =>
      rfl
  | cons first others inductionHypothesis =>
      rw [List.flatten_cons, byteSize_append] at outside
      rw [placeAmong?, if_neg (by omega)]
      exact inductionHypothesis _ (by omega)

/-- What does not end with a newline has no line ending to remove. -/
theorem dropLineEnd_of_unended
    (unended : line.getLast? ≠ some '\n') :
    dropLineEnd line = line := by
  rw [← List.head?_reverse] at unended
  unfold dropLineEnd
  split
  · rename_i front backwards
    simp [backwards] at unended
  · rename_i front backwards
    simp [backwards] at unended
  · rfl

/-- A line ending is a newline, with the carriage return in front of it if any. -/
theorem dropLineEnd_of_ended
    (ended : line.getLast? = some '\n') :
    ∃ ending,
      line = dropLineEnd line ++ ending ∧
        (ending = ['\r', '\n'] ∨
          ending = ['\n'] ∧ (dropLineEnd line).getLast? ≠ some '\r') := by
  rw [← List.head?_reverse] at ended
  have whole := line.reverse_reverse
  unfold dropLineEnd
  split
  · rename_i front backwards
    refine ⟨_, ?_, .inl rfl⟩
    rw [← whole, backwards]
    simp
  · rename_i front noReturn backwards
    refine ⟨_, ?_, .inr ⟨rfl, ?_⟩⟩
    · rw [← whole, backwards]
      simp
    · intro returned
      rw [List.getLast?_reverse] at returned
      obtain ⟨others, rfl⟩ := List.head?_eq_some_iff.mp returned
      exact noReturn others rfl
  · rename_i neither other
    obtain ⟨others, backwards⟩ := List.head?_eq_some_iff.mp ended
    exact (other _ backwards).elim

theorem placeAt?_eq_none_iff :
    placeAt? content offset = none ↔ content.utf8ByteSize < offset := by
  rw [placeAt?, ← byteSize_toList]
  split
  · rename_i past
    simp [past]
  · rename_i within
    simp only [within, iff_false]
    split
    · simp
    · simp

/-- The end of a text has the place at its end. -/
theorem placeAt?_end (content : String) :
    placeAt? content content.utf8ByteSize =
      some (placeOfEnd (splitLines content.toList)) := by
  have size :
      byteSize (splitLines content.toList).flatten = content.utf8ByteSize := by
    rw [flatten_splitLines, byteSize_toList]
  simp only [placeAt?, byteSize_toList, Nat.lt_irrefl, if_false,
    placeAmong?_of_le 1 (Nat.le_of_eq size)]

/-- What lies on a line has the number of the line and the bytes in front of it. -/
theorem Place.standsAt_of_lines
    {front back : List (List Char)}
    {column : Nat}
    (split : Lines content.toList (front ++ line :: back))
    (sum : byteSize front.flatten + column = offset)
    (inside :
      column < byteSize line ∨
        column = byteSize line ∧ line.getLast? ≠ some '\n') :
    (⟨front.length + 1, String.ofList line, column⟩ : Place).StandsAt
      content offset := by
  constructor
  · rw [newlinesBefore, toList_toUTF8, ← sum, split.count_newlines inside]
  · have whole : (String.ofList line).toList = line :=
      String.toList_ofList
    rw [← whole] at split
    exact ⟨front, back, split, rfl, sum⟩

theorem exists_standsAt_of_lt
    (inside : offset < content.utf8ByteSize) :
    ∃ place, placeAt? content offset = some place ∧ place.StandsAt content offset := by
  rw [← byteSize_toList, ← flatten_splitLines content.toList] at inside
  obtain ⟨front, line, back, column, isSplit, sum, within, found⟩ :=
    placeAmong?_of_lt 1 inside
  have split := lines_iff_eq_splitLines.mpr isSplit.symm
  rw [flatten_splitLines] at inside
  rw [Nat.add_comm] at found
  refine ⟨_, ?_, Place.standsAt_of_lines split sum (.inl within)⟩
  simp only [placeAt?, found, Nat.not_lt_of_lt inside, if_false]

/-- A text that is not empty has a last line. -/
theorem exists_last_line
    {last : Char}
    (ends : content.toList.getLast? = some last) :
    ∃ front line,
      splitLines content.toList = front ++ [line] ∧
        Lines content.toList (front ++ [line]) ∧
        line.getLast? = some last := by
  have nonempty : splitLines content.toList ≠ [] := by
    intro none
    have whole := flatten_splitLines content.toList
    rw [none, List.flatten_nil] at whole
    rw [← whole] at ends
    contradiction
  have isSplit := (List.dropLast_concat_getLast nonempty).symm
  have split := lines_iff_eq_splitLines.mpr isSplit.symm
  exact ⟨_, _, isSplit, split, split.getLast?_eq.symm.trans ends⟩

/-- The end of a text that ends on a line belongs to that line. -/
theorem exists_standsAt_end
    (onLine : EndsOnLine content) :
    ∃ place,
      placeAt? content content.utf8ByteSize = some place ∧
        place.StandsAt content content.utf8ByteSize := by
  obtain ⟨last, ends, visible⟩ := onLine
  obtain ⟨front, line, isSplit, split, lineEnds⟩ := exists_last_line ends
  have unended : line.getLast? ≠ some '\n' := by
    rw [lineEnds]
    exact fun same => visible (Option.some.inj same)
  have sum : byteSize front.flatten + byteSize line = content.utf8ByteSize := by
    rw [← byteSize_toList, ← split.flatten, List.flatten_append,
      List.flatten_singleton, byteSize_append]
  refine ⟨_, ?_, Place.standsAt_of_lines split sum (.inr ⟨rfl, unended⟩)⟩
  simp [placeAt?_end, placeOfEnd, isSplit, unended, dropLineEnd_of_unended unended]

/-- The end of a text that ends with a newline is shown on its last line. -/
theorem exists_standsOnLast_end
    (behindLine : EndsBehindLine content) :
    ∃ place,
      placeAt? content content.utf8ByteSize = some place ∧
        place.StandsOnLast content := by
  obtain ⟨front, line, isSplit, split, ended⟩ := exists_last_line behindLine
  obtain ⟨ending, whole, ending_eq⟩ := dropLineEnd_of_ended ended
  refine ⟨_, placeAt?_end content, ?_⟩
  simp only [placeOfEnd, isSplit, List.getLast?_concat, ended, if_true]
  constructor
  · refine ⟨front, ending, ?_, by simp, ?_⟩
    · simpa [← whole] using split
    · simpa using ending_eq
  · rfl

end Places

/--
Looking up an offset is exact.  There is a place for the offsets up to the length of
the text.  The place of an offset in the text, and that of its end where it ends on
a line, has one more than the number of newlines in front of it, and its line is the
line with this number.  Behind a final newline it is the start of the last line,
which is shown without its ending; in the empty text it is the start.
-/
theorem placeAt?_exact (content : String) (offset : Nat) :
    (placeAt? content offset = none ↔ content.utf8ByteSize < offset) ∧
      (offset < content.utf8ByteSize ∨
          offset = content.utf8ByteSize ∧ EndsOnLine content →
        ∃ place,
          placeAt? content offset = some place ∧
            place.StandsAt content offset) ∧
      (offset = content.utf8ByteSize ∧ EndsBehindLine content →
        ∃ place,
          placeAt? content offset = some place ∧ place.StandsOnLast content) ∧
      placeAt? "" 0 = some ⟨1, "", 0⟩ := by
  refine ⟨placeAt?_eq_none_iff, ?_, ?_, rfl⟩
  · rintro (inside | ⟨rfl, onLine⟩)
    · exact exists_standsAt_of_lt inside
    · exact exists_standsAt_end onLine
  · rintro ⟨rfl, behindLine⟩
    exact exists_standsOnLast_end behindLine

/-- A line with a character of two bytes, an empty one, and one without an end. -/
def unendedText : String :=
  "é\n\nx"

/-- Two lines that end with a carriage return and a newline. -/
def endedText : String :=
  "\r\nx\r\n"

theorem placeAt?_exact_accent :
    (1 < unendedText.utf8ByteSize ∧
      ∃ place,
        placeAt? unendedText 1 = some place ∧ place.StandsAt unendedText 1) ∧
      (5 = unendedText.utf8ByteSize ∧
        EndsOnLine unendedText ∧
        ∃ place,
          placeAt? unendedText 5 = some place ∧
            place.StandsAt unendedText 5) ∧
      5 = endedText.utf8ByteSize ∧
      EndsBehindLine endedText ∧
      ∃ place,
        placeAt? endedText 5 = some place ∧ place.StandsOnLast endedText := by
  have inside : 1 < unendedText.utf8ByteSize := by
    decide +kernel
  have size : 5 = unendedText.utf8ByteSize := by
    decide +kernel
  have onLine : EndsOnLine unendedText :=
    ⟨'x', by decide +kernel, by decide⟩
  have endedSize : 5 = endedText.utf8ByteSize := by
    decide +kernel
  have behindLine : EndsBehindLine endedText := by
    unfold EndsBehindLine
    decide +kernel
  exact ⟨⟨inside, (placeAt?_exact unendedText 1).2.1 (.inl inside)⟩,
    ⟨size, onLine, (placeAt?_exact unendedText 5).2.1 (.inr ⟨size, onLine⟩)⟩,
    endedSize, behindLine,
    (placeAt?_exact endedText 5).2.2.1 ⟨endedSize, behindLine⟩⟩

/-- The last line is shown without its ending, and the end of input at its start. -/
example : placeAt? endedText 5 = some ⟨2, "x", 0⟩ := by
  decide +kernel

end Scriptlet.Text
