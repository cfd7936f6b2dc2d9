import Scriptlet.Text.Blank
import Scriptlet.Token

namespace Scriptlet

/-!
# Lexical rules

The lexical grammar is an ordered table of rules.  A rule matches at the front
of a text or it does not; the first rule of the table that matches decides what
the text starts with.  Blanks and comments are matched like everything else but
yield no token.
-/

/-- The rules of the lexical grammar. -/
inductive LexicalRule where
  | word
  | number
  | blanks
  | string
  | comment
  | symbol (text : String) (kind : TokenKind)
  deriving Repr, DecidableEq

namespace LexicalRule

/-- The rules in the order they are tried; longer symbols come first. -/
def table : List LexicalRule :=
  [ .word,
    .number,
    .blanks,
    .string,
    .comment,
    .symbol "\x7b" .openCurly,
    .symbol "\x7d" .closeCurly,
    .symbol "(" .openParen,
    .symbol ")" .closeParen,
    .symbol "==" .equals,
    .symbol "!=" .notEquals,
    .symbol "!" .not,
    .symbol "=" .assignment,
    .symbol "<" .less,
    .symbol ">" .greater,
    .symbol ";" .semicolon,
    .symbol "," .comma,
    .symbol "+" .plus,
    .symbol "-" .dash,
    .symbol "/" .slash,
    .symbol "*" .star ]

/-- Words start with an ASCII letter or an underscore. -/
def startsWord (character : Char) : Bool :=
  character.isAlpha || character == '_'

/-- Words go on with ASCII letters, digits and underscores. -/
def continuesWord (character : Char) : Bool :=
  character.isAlphanum || character == '_'

/-- The longest nonempty front part whose characters all satisfy a test. -/
def run? (test : Char → Bool) (characters : List Char) : Option (List Char) :=
  match characters.takeWhile test with
  | [] =>
      none
  | lexeme =>
      some lexeme

/-- A word at the front of a text. -/
def word? : List Char → Option (List Char)
  | [] =>
      none
  | first :: rest =>
      if startsWord first then
        some (first :: rest.takeWhile continuesWord)
      else
        none

/-- A string at the front of a text, from its first quote to the next one. -/
def string? : List Char → Option (List Char)
  | [] =>
      none
  | first :: rest =>
      if first = '"' then
        match rest.dropWhile (· != '"') with
        | [] =>
            none
        | close :: _ =>
            some (first :: (rest.takeWhile (· != '"') ++ [close]))
      else
        none

/-- A comment at the front of a text, up to the end of its line. -/
def comment? : List Char → Option (List Char)
  | first :: second :: rest =>
      if first = '/' ∧ second = '/' then
        some (first :: second :: rest.takeWhile (· != '\n'))
      else
        none
  | _ =>
      none

/-- A given symbol at the front of a text. -/
def symbol? (text : String) (characters : List Char) : Option (List Char) :=
  if text.toList.isPrefixOf characters then
    some text.toList
  else
    none

/-- What a rule matches at the front of a text. -/
def lexeme? : LexicalRule → List Char → Option (List Char)
  | .word => word?
  | .number => run? Char.isDigit
  | .blanks => run? Text.isBlank
  | .string => string?
  | .comment => comment?
  | .symbol text _ => symbol? text

/--
The kind and the value of the token that a matched text stands for; blanks and
comments stand for none.  The value of a string is what its quotes enclose.
-/
def reading? : LexicalRule → List Char → Option (TokenKind × String)
  | .word, lexeme =>
      some (TokenKind.ofWord (String.ofList lexeme), String.ofList lexeme)
  | .number, lexeme =>
      some (.number, String.ofList lexeme)
  | .blanks, _ =>
      none
  | .string, lexeme =>
      some (.string, String.ofList lexeme.tail.dropLast)
  | .comment, _ =>
      none
  | .symbol text kind, _ =>
      some (kind, text)

/-- The first rule of the table that matches, with what it matches. -/
def firstMatch? (characters : List Char) : Option (LexicalRule × List Char) :=
  table.findSome? fun rule =>
    (rule.lexeme? characters).map fun lexeme => (rule, lexeme)

/-- A run is a nonempty front part of the text it is found in. -/
theorem run?_eq_some
    {test : Char → Bool}
    {characters lexeme : List Char}
    (found : run? test characters = some lexeme) :
    lexeme ≠ [] ∧ lexeme <+: characters := by
  unfold run? at found
  split at found
  · contradiction
  · rename_i nonempty
    obtain rfl := Option.some.inj found
    exact ⟨fun empty => nonempty empty, List.takeWhile_prefix test⟩

/-- A word is a nonempty front part of the text it is found in. -/
theorem word?_eq_some
    {characters lexeme : List Char}
    (found : word? characters = some lexeme) :
    lexeme ≠ [] ∧ lexeme <+: characters := by
  cases characters with
  | nil =>
      contradiction
  | cons first rest =>
      simp only [word?] at found
      split at found
      · obtain rfl := Option.some.inj found
        exact ⟨by simp,
          (List.prefix_cons_inj first).mpr (List.takeWhile_prefix _)⟩
      · contradiction

/-- A string is a nonempty front part of the text it is found in. -/
theorem string?_eq_some
    {characters lexeme : List Char}
    (found : string? characters = some lexeme) :
    lexeme ≠ [] ∧ lexeme <+: characters := by
  cases characters with
  | nil =>
      contradiction
  | cons first rest =>
      simp only [string?] at found
      split at found
      · split at found
        · contradiction
        · rename_i close after closed
          obtain rfl := Option.some.inj found
          refine ⟨by simp, (List.prefix_cons_inj first).mpr ⟨after, ?_⟩⟩
          have whole : rest.takeWhile (· != '"') ++ close :: after = rest := by
            rw [← closed]
            exact List.takeWhile_append_dropWhile
          simpa using whole
      · contradiction

/-- A comment is a nonempty front part of the text it is found in. -/
theorem comment?_eq_some
    {characters lexeme : List Char}
    (found : comment? characters = some lexeme) :
    lexeme ≠ [] ∧ lexeme <+: characters := by
  match characters, found with
  | first :: second :: rest, found =>
      simp only [comment?] at found
      split at found
      · obtain rfl := Option.some.inj found
        exact ⟨by simp,
          (List.prefix_cons_inj first).mpr
            ((List.prefix_cons_inj second).mpr (List.takeWhile_prefix _))⟩
      · contradiction

/-- A symbol of the table is not empty. -/
theorem symbol_text_ne_nil
    {text : String}
    {kind : TokenKind}
    (member : LexicalRule.symbol text kind ∈ table) :
    text.toList ≠ [] := by
  intro empty
  have textEmpty : text = "" := by
    simpa using empty
  subst textEmpty
  revert member
  cases kind <;> decide

/-- A rule of the table matches a nonempty front part of a text. -/
theorem lexeme?_eq_some
    {rule : LexicalRule}
    {characters lexeme : List Char}
    (member : rule ∈ table)
    (matched : rule.lexeme? characters = some lexeme) :
    lexeme ≠ [] ∧ lexeme <+: characters := by
  cases rule with
  | word =>
      exact word?_eq_some matched
  | number =>
      exact run?_eq_some matched
  | blanks =>
      exact run?_eq_some matched
  | string =>
      exact string?_eq_some matched
  | comment =>
      exact comment?_eq_some matched
  | symbol text kind =>
      simp only [lexeme?, symbol?] at matched
      split at matched
      · rename_i front
        obtain rfl := Option.some.inj matched
        exact ⟨symbol_text_ne_nil member,
          List.isPrefixOf_iff_prefix.mp front⟩
      · contradiction

/-- The first match is that of a rule of the table. -/
theorem firstMatch?_eq_some
    {characters lexeme : List Char}
    {rule : LexicalRule}
    (found : firstMatch? characters = some (rule, lexeme)) :
    rule ∈ table ∧ rule.lexeme? characters = some lexeme := by
  obtain ⟨tried, member, matched⟩ := List.exists_of_findSome?_eq_some found
  obtain ⟨text, textMatched, pairEq⟩ := Option.map_eq_some_iff.mp matched
  cases pairEq
  exact ⟨member, textMatched⟩

end LexicalRule

end Scriptlet
