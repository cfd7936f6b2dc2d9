import Scriptlet.Text.CharacterRange

namespace Scriptlet.Text

/-!
# Blank characters

Blank characters are those with the Unicode property `White_Space`: the
twenty-five characters that separate words without being visible themselves.
Source text may put any of them between two tokens.
-/

/-- The characters with the Unicode property `White_Space`. -/
def blankRanges : List CharacterRange :=
  [ ⟨0x9, 0xd⟩,
    ⟨0x20, 0x20⟩,
    ⟨0x85, 0x85⟩,
    ⟨0xa0, 0xa0⟩,
    ⟨0x1680, 0x1680⟩,
    ⟨0x2000, 0x200a⟩,
    ⟨0x2028, 0x2029⟩,
    ⟨0x202f, 0x202f⟩,
    ⟨0x205f, 0x205f⟩,
    ⟨0x3000, 0x3000⟩ ]

/-- Decide whether a character is blank. -/
def isBlank (character : Char) : Bool :=
  CharacterRange.anyContains blankRanges character

/-- Remove the blank characters at the end of a text. -/
def dropBlankEnd (characters : List Char) : List Char :=
  (characters.reverse.dropWhile isBlank).reverse

end Scriptlet.Text
