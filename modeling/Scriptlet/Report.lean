import Scriptlet.Fault
import Scriptlet.Text.Blank
import Scriptlet.Text.Lines

namespace Scriptlet

/-!
# Reports

A report shows a diagnostic to a reader: its message and tip, the file and line
it belongs to, the line itself without indentation, and a caret under the place
in the line that the diagnostic points at.
-/

/-- Whether text is painted with terminal colours. -/
inductive Style where
  | plain
  | coloured
  deriving Repr, DecidableEq

namespace Style

/-- Enclose a text in the terminal codes of a colour. -/
def paint (style : Style) (codes text : String) : String :=
  match style with
  | .plain =>
      text
  | .coloured =>
      "\x1b[" ++ codes ++ "m" ++ text ++ "\x1b[0m"

/-- Bold red, for the word that announces an error and for the caret. -/
def alert (style : Style) (text : String) : String :=
  style.paint "1;31" text

/-- Bold blue, for the place of an error. -/
def guide (style : Style) (text : String) : String :=
  style.paint "1;34" text

/-- Blue, for the bars beside the line of an error. -/
def rule (style : Style) (text : String) : String :=
  style.paint "34" text

/-- The word that announces an error, with what is to be said about it. -/
def errorLine (style : Style) (text : String) : String :=
  style.alert "Error" ++ ": " ++ text

end Style

/-- The line of a diagnostic as a report shows it. -/
structure Excerpt where
  number : Nat
  text : String
  dashes : Nat
  deriving Repr, DecidableEq

namespace Excerpt

/-- Indentation is made of spaces and tabs. -/
def isIndentation (character : Char) : Bool :=
  character == ' ' || character == '\t'

/--
The excerpt for a place: the line without indentation and without blanks at its
end, and as many dashes as bytes stand between the first one shown and the
place.
-/
def ofPlace (place : Text.Place) : Excerpt :=
  let line := place.line.toList
  let shown := line.dropWhile isIndentation
  let removed := Text.byteSize line - Text.byteSize shown
  ⟨place.number,
    String.ofList (Text.dropBlankEnd shown),
    place.offset - removed⟩

/-- A text aligned to the right. -/
def alignRight (width : Nat) (fill : Char) (text : String) : String :=
  String.ofList (List.replicate (width - text.length) fill) ++ text

/-- The bar above and below the line number. -/
def bar (style : Style) (excerpt : Excerpt) : String :=
  style.rule (alignRight ((toString excerpt.number).length + 2) ' ' "|")

/-- The dashes that lead to the caret, and the caret. -/
def pointer (excerpt : Excerpt) : String :=
  String.ofList (List.replicate excerpt.dashes '-') ++ "^"

/-- The lines of an excerpt. -/
def lines (style : Style) (excerpt : Excerpt) : List String :=
  [ excerpt.bar style,
    style.guide (toString excerpt.number) ++ " " ++ style.rule "|" ++ " " ++
      excerpt.text,
    excerpt.bar style ++ " " ++ style.alert excerpt.pointer ]

end Excerpt

namespace Diagnostic

/-- What is wrong, followed by the tip if there is one. -/
def headline (diagnostic : Diagnostic) : String :=
  match diagnostic.fault.tip? with
  | none =>
      diagnostic.message
  | some tip =>
      diagnostic.message ++ " (" ++ tip ++ ")"

/--
The lines of a report on a diagnostic in a source text.  A position past the
end of the text is reported without a line.
-/
def report (style : Style) (content : String) (diagnostic : Diagnostic) :
    List String :=
  let position := diagnostic.position
  match Text.placeAt? content position.offset.toNat with
  | none =>
      [ style.errorLine diagnostic.headline,
        style.guide "->" ++ " " ++ position.file ]
  | some place =>
      [ style.errorLine diagnostic.headline,
        style.guide "->" ++ " " ++ position.file ++ ":" ++
          toString place.number ] ++
        (Excerpt.ofPlace place).lines style

end Diagnostic

end Scriptlet
