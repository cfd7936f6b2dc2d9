import Scriptlet.Text.Unprintable

namespace Scriptlet.Text

/-!
# Quoted text

Text is shown between double quotes with escapes for what could not be read
back from the screen: the quote and the backslash themselves, the common
control characters by their letters, and every other character that does not
show by its code point in hexadecimal.
-/

/-- A code point as a braced hexadecimal escape, in lower case, unpadded. -/
def codePointEscape (character : Char) : String :=
  "\\u\x7b" ++ String.ofList (Nat.toDigits 16 character.toNat) ++ "\x7d"

/-- One character as it stands between the quotes. -/
def quotedCharacter (character : Char) : String :=
  if character = '"' then
    "\\\""
  else if character = '\\' then
    "\\\\"
  else if character = '\n' then
    "\\n"
  else if character = '\t' then
    "\\t"
  else if character = '\r' then
    "\\r"
  else if character = '\x00' then
    "\\0"
  else if isUnprintable character then
    codePointEscape character
  else
    character.toString

/-- A text between double quotes, with escapes. -/
def quoted (text : String) : String :=
  "\"" ++ String.join (text.toList.map quotedCharacter) ++ "\""

end Scriptlet.Text
