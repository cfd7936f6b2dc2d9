import Scriptlet.Text.Bytes

namespace Scriptlet.Text

/-!
# Lines of a text

A byte offset is shown to a reader as a line and an offset within it.  A line
keeps the newline that ends it, and only the last one may lack one.  The offset
just past the last character is the place of the end of input and belongs to
the last line, which is then shown without its line ending.
-/

/-- A place in a text: which line, what the line says, how far into it. -/
structure Place where
  number : Nat
  line : String
  offset : Nat
  deriving Repr, DecidableEq

/-- Put a character in front of a text given as lines. -/
def consToLines (first : Char) (lines : List (List Char)) : List (List Char) :=
  if first = '\n' then
    [first] :: lines
  else
    match lines with
    | [] =>
        [[first]]
    | line :: others =>
        (first :: line) :: others

/-- Split a text after each newline, keeping the newlines. -/
def splitLines (characters : List Char) : List (List Char) :=
  characters.foldr consToLines []

/-- Putting a character in front of lines puts it in front of their text. -/
theorem flatten_consToLines
    (first : Char)
    (lines : List (List Char)) :
    (consToLines first lines).flatten = first :: lines.flatten := by
  unfold consToLines
  split
  · simp
  · split
    · simp
    · simp

/-- The lines of a text make up the text. -/
theorem flatten_splitLines (characters : List Char) :
    (splitLines characters).flatten = characters := by
  induction characters with
  | nil =>
      rfl
  | cons first rest inductionHypothesis =>
      have step :
          splitLines (first :: rest) = consToLines first (splitLines rest) :=
        rfl
      rw [step, flatten_consToLines, inductionHypothesis]

/-- Remove a line ending, a newline with or without a carriage return. -/
def dropLineEnd (line : List Char) : List Char :=
  match line.reverse with
  | '\n' :: '\r' :: front =>
      front.reverse
  | '\n' :: front =>
      front.reverse
  | _ =>
      line

/--
Find the line that contains an offset, counting lines from `number`.  The
offset is relative to the start of the first line given.
-/
def placeAmong?
    (number : Nat) :
    List (List Char) → Nat → Option Place
  | [], _ =>
      none
  | line :: lines, offset =>
      if offset < byteSize line then
        some ⟨number, String.ofList line, offset⟩
      else
        placeAmong? (number + 1) lines (offset - byteSize line)

/-- The place of the end of a text: on its last line, past what it says. -/
def placeOfEnd (lines : List (List Char)) : Place :=
  match lines.getLast? with
  | none =>
      ⟨1, "", 0⟩
  | some last =>
      ⟨lines.length,
        String.ofList (dropLineEnd last),
        if last.getLast? = some '\n' then 0 else byteSize last⟩

/-- The place of a byte offset; there is none past the end of the text. -/
def placeAt? (content : String) (offset : Nat) : Option Place :=
  let lines := splitLines content.toList
  if byteSize content.toList < offset then
    none
  else
    match placeAmong? 1 lines offset with
    | some place =>
        some place
    | none =>
        some (placeOfEnd lines)

end Scriptlet.Text
