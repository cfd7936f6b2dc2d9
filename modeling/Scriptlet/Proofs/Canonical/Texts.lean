import Scriptlet.Proofs.Token.Scanning
import Scriptlet.Text.Decimal

namespace Scriptlet

/-!
# Scanning texts part by part

A text is scanned as some readings when it has them in front of whatever stands
apart from it.  Texts that are scanned one behind the other are scanned
together; how they may touch is said by their first characters.
-/

/-- What no word, number or symbol in front of it goes on into. -/
def Apart (text : List Char) : Prop :=
  ∀ character ∈ text.head?,
    LexicalRule.continuesWord character = false ∧
      character ≠ '=' ∧
      character ≠ '/'

/-- What no symbol in front of it goes on into. -/
def Clear (text : List Char) : Prop :=
  ∀ character ∈ text.head?, character ≠ '=' ∧ character ≠ '/'

/-- The text has the readings, in front of what stands apart. -/
def Scans (text : List Char) (words : List (TokenKind × String)) : Prop :=
  ∀ rest, Apart rest → readings (text ++ rest) = words ++ readings rest

section Touching

variable {character : Char} {text rest : List Char}

theorem Apart.clear (apart : Apart text) : Clear text :=
  fun character head => (apart character head).2

theorem Apart.append
    (apart : Apart text)
    (restApart : Apart rest) :
    Apart (text ++ rest) := by
  cases text with
  | nil =>
      exact restApart
  | cons first others =>
      intro character head
      exact apart character head

theorem Clear.append
    (clear : Clear text)
    (restClear : Clear rest) :
    Clear (text ++ rest) := by
  cases text with
  | nil =>
      exact restClear
  | cons first others =>
      intro character head
      exact clear character head

theorem apart_cons
    (outside : LexicalRule.continuesWord character = false)
    (distinct : character ≠ '=' ∧ character ≠ '/') :
    Apart (character :: rest) := by
  intro other head
  obtain rfl := Option.some.inj head
  exact ⟨outside, distinct⟩

theorem clear_cons
    (distinct : character ≠ '=' ∧ character ≠ '/') :
    Clear (character :: rest) := by
  intro other head
  obtain rfl := Option.some.inj head
  exact distinct

/-- Words and numbers start with no symbol. -/
theorem clear_of_continuesWord
    (inside : LexicalRule.continuesWord character = true) :
    Clear (character :: rest) := by
  apply clear_cons
  constructor
  · rintro rfl
    contradiction
  · rintro rfl
    contradiction

end Touching

namespace Scans

variable
  {text other : List Char}
  {words otherWords : List (TokenKind × String)}

theorem nil : Scans [] [] :=
  fun _ _ => rfl

/-- A text and what stands apart from it are scanned one behind the other. -/
theorem append
    (first : Scans text words)
    (second : Scans other otherWords)
    (apart : Apart other) :
    Scans (text ++ other) (words ++ otherWords) := by
  intro rest restApart
  rw [List.append_assoc, first _ (apart.append restApart), second _ restApart,
    List.append_assoc]

/-- A symbol is scanned in front of what it does not go on into. -/
theorem symbol
    {sign : String}
    {kind : TokenKind}
    (member : LexicalRule.symbol sign kind ∈ LexicalRule.table)
    (inner : Scans text words)
    (clear : Clear text) :
    Scans (sign.toList ++ text) ((kind, sign) :: words) := by
  intro rest restApart
  have found :=
    LexicalRule.firstMatch?_symbol member fun _ =>
      clear.append restApart.clear
  rw [List.append_assoc, readings_of_firstMatch found, inner rest restApart]
  rfl

end Scans

section Blanks

variable {character : Char} {rest : List Char}

theorem readings_blank_run
    (blank : Text.isBlank character = true) :
    readings (character :: rest) = readings (rest.dropWhile Text.isBlank) := by
  have found :
      LexicalRule.firstMatch?
          ((character :: rest.takeWhile Text.isBlank) ++
            rest.dropWhile Text.isBlank) =
        some (.blanks, character :: rest.takeWhile Text.isBlank) := by
    rw [List.cons_append, List.takeWhile_append_dropWhile]
    exact LexicalRule.firstMatch?_blanks blank
  have skipped := readings_of_firstMatch found
  rw [List.cons_append, List.takeWhile_append_dropWhile] at skipped
  exact skipped

/-- A blank is skipped, whatever follows it. -/
theorem readings_blank
    (blank : Text.isBlank character = true) :
    readings (character :: rest) = readings rest := by
  rw [readings_blank_run blank]
  cases rest with
  | nil =>
      rfl
  | cons next others =>
      by_cases alsoBlank : Text.isBlank next = true
      · rw [readings_blank_run alsoBlank, List.dropWhile_cons_of_pos alsoBlank]
      · rw [List.dropWhile_cons_of_neg alsoBlank]

end Blanks

namespace Scans

variable
  {text : List Char}
  {words : List (TokenKind × String)}
  {value : String}

theorem blank
    (inner : Scans text words) :
    Scans (" ".toList ++ text) words := by
  intro rest restApart
  have skipped : readings (" ".toList ++ text ++ rest) = readings (text ++ rest) :=
    readings_blank (by decide)
  rw [skipped, inner rest restApart]

/-- A word is scanned as what the table of reserved words makes of it. -/
theorem word
    {first : Char}
    {others : List Char}
    (shape : value.toList = first :: others)
    (starts : LexicalRule.startsWord first = true)
    (continues : ∀ other ∈ others, LexicalRule.continuesWord other = true) :
    Scans value.toList [(TokenKind.ofWord value, value)] := by
  intro rest restApart
  have found :=
    LexicalRule.firstMatch?_word starts continues fun other head =>
      (restApart other head).1
  rw [← shape] at found
  rw [readings_of_firstMatch found]
  simp [LexicalRule.reading?]

theorem name
    (named : TokenKind.IsName value) :
    Scans value.toList [(.identifier, value)] := by
  obtain ⟨free, first, others, shape, starts, continues⟩ := named
  have scanned := word shape starts continues
  rw [TokenKind.ofWord, free] at scanned
  exact scanned

theorem numeral
    (digits : TokenKind.IsNumeral value) :
    Scans value.toList [(.number, value)] := by
  obtain ⟨first, others, shape, digit, continues⟩ := digits
  intro rest restApart
  have outside : ∀ other ∈ rest.head?, other.isDigit = false := by
    intro other head
    cases isDigit : other.isDigit with
    | false =>
        rfl
    | true =>
        have inside := LexicalRule.continuesWord_of_isDigit isDigit
        rw [(restApart other head).1] at inside
        contradiction
  have found := LexicalRule.firstMatch?_number digit continues outside
  rw [← shape] at found
  rw [readings_of_firstMatch found]
  simp [LexicalRule.reading?]

theorem quoted
    (unquoted : '"' ∉ value.toList) :
    Scans ("\"".toList ++ (value.toList ++ "\"".toList))
      [(.string, value)] := by
  intro rest restApart
  have found :
      LexicalRule.firstMatch? ('"' :: (value.toList ++ ['"']) ++ rest) =
        some (.string, '"' :: (value.toList ++ ['"'])) :=
    LexicalRule.firstMatch?_string unquoted
  have scanned := readings_of_firstMatch found
  simpa [LexicalRule.reading?] using scanned

end Scans

section Numerals

variable {number : Nat}

theorem toList_toString_natCast :
    (toString (number : Int)).toList = Nat.toDigits 10 number :=
  Nat.toList_repr

/-- Numbers that are not negative are printed as digits only. -/
theorem isNumeral_toString_natCast :
    TokenKind.IsNumeral (toString (number : Int)) := by
  have nonempty : Nat.toDigits 10 number ≠ [] :=
    Nat.toDigits_ne_nil
  obtain ⟨first, others, shape⟩ := List.exists_cons_of_ne_nil nonempty
  have digits : ∀ other ∈ first :: others, other.isDigit = true := by
    intro other member
    rw [← shape] at member
    exact Nat.isDigit_of_mem_toDigits (by decide) (by decide) member
  refine ⟨first, others, ?_, digits first (by simp), ?_⟩
  · rw [toList_toString_natCast, shape]
  · intro other member
    exact digits other (by simp [member])

/-- Digits without a sign stand for the number they make up. -/
theorem readSigned?_of_isNumeral
    {text : String}
    (digits : TokenKind.IsNumeral text) :
    Text.readSigned? text.toList =
      some ((Nat.ofDigitChars 10 text.toList 0 : Nat) : Int) := by
  obtain ⟨first, others, shape, digit, continues⟩ := digits
  have all : (first :: others).all Char.isDigit = true := by
    simp only [List.all_cons, digit, Bool.true_and, List.all_eq_true]
    exact continues
  rw [shape]
  unfold Text.readSigned?
  split
  · rename_i same
    obtain ⟨rfl, -⟩ := List.cons.inj same
    contradiction
  · rename_i same
    obtain ⟨rfl, -⟩ := List.cons.inj same
    contradiction
  · simp [Text.readDigits?, all]

/-- What is printed of an integer that is not negative is read as it again. -/
theorem readInteger?_toString
    {value : Int64}
    (positive : 0 ≤ value.toInt) :
    Text.readInteger? (toString value.toInt) = some value := by
  obtain ⟨number, same⟩ := Int.eq_ofNat_of_zero_le positive
  have signed :
      Text.readSigned? (toString value.toInt).toList = some value.toInt := by
    rw [same, readSigned?_of_isNumeral isNumeral_toString_natCast,
      toList_toString_natCast, Nat.ofDigitChars_ten_toDigits]
  have bounds :
      Int64.minValue.toInt ≤ value.toInt ∧ value.toInt ≤ Int64.maxValue.toInt :=
    ⟨value.minValue_le_toInt, value.toInt_le⟩
  rw [Text.readInteger?, signed]
  simp only [bounds, and_self, ↓reduceIte, Int64.ofInt_toInt]

/-- Digits are never read as a negative integer. -/
theorem toInt_nonneg_of_readInteger?
    {text : String}
    {value : Int64}
    (digits : TokenKind.IsNumeral text)
    (read : Text.readInteger? text = some value) :
    0 ≤ value.toInt := by
  unfold Text.readInteger? at read
  rw [readSigned?_of_isNumeral digits] at read
  simp only at read
  split at read
  · rename_i bounds
    obtain rfl := Option.some.inj read
    rw [Int64.toInt_minValue, Int64.toInt_maxValue] at bounds
    rw [Int64.toInt_ofInt_of_le bounds.1 (by omega)]
    exact Int.natCast_nonneg _
  · contradiction

end Numerals

end Scriptlet
