namespace Scriptlet.Text

/-!
# Ranges of characters

A character class of a standard is given as a list of closed ranges of code
points.  Membership in the class is membership in one of its ranges.
-/

/-- A closed range of code points. -/
structure CharacterRange where
  first : Nat
  last : Nat
  deriving Repr, DecidableEq

namespace CharacterRange

/-- A character belongs to a range when its code point lies between the ends. -/
def contains (range : CharacterRange) (character : Char) : Bool :=
  range.first ≤ character.toNat && character.toNat ≤ range.last

/-- A character belongs to a class when one range of the class contains it. -/
def anyContains (ranges : List CharacterRange) (character : Char) : Bool :=
  ranges.any fun range => range.contains character

/-- Membership in a range compares the code point with both ends. -/
theorem contains_eq_true_iff
    {range : CharacterRange}
    {character : Char} :
    range.contains character = true ↔
      range.first ≤ character.toNat ∧ character.toNat ≤ range.last := by
  simp [contains]

/-- Membership in a class exhibits the range that contains the character. -/
theorem anyContains_eq_true_iff
    {ranges : List CharacterRange}
    {character : Char} :
    anyContains ranges character = true ↔
      ∃ range ∈ ranges,
        range.first ≤ character.toNat ∧ character.toNat ≤ range.last := by
  simp [anyContains, contains_eq_true_iff]

end CharacterRange

end Scriptlet.Text
