import Scriptlet.Stack
import Scriptlet.Text.Bytes
import Scriptlet.Token.Rule

namespace Scriptlet

/-!
# Pieces of source text

The lexical rules cut a text into pieces.  A text that no rule matches starts
with an illegal character, which is a piece of its own.  Cutting off one piece
after another splits a text into the pieces it consists of, in order and
without a remainder.
-/

/--
A piece of source text: the byte offset it starts at, the characters it covers,
and the token they stand for, if they stand for one.
-/
structure Piece where
  offset : Nat
  lexeme : List Char
  reading? : Option (TokenKind × String)
  deriving Repr, DecidableEq

namespace Piece

/-- The number of bytes a piece covers. -/
def size (piece : Piece) : Nat :=
  Text.byteSize piece.lexeme

/-- The byte offset at which the next piece starts. -/
def stop (piece : Piece) : Nat :=
  piece.offset + piece.size

/-- The token a piece stands for. -/
def token? (file : String) (piece : Piece) : Option Token :=
  piece.reading?.map fun reading =>
    ⟨reading.1, reading.2, Span.ofOffset file piece.offset piece.size⟩

/-- The piece that a nonempty text at a byte offset starts with. -/
def first (offset : Nat) (character : Char) (rest : List Char) : Piece :=
  match LexicalRule.firstMatch? (character :: rest) with
  | some (rule, lexeme) =>
      ⟨offset, lexeme, rule.reading? lexeme⟩
  | none =>
      ⟨offset, [character], some (.illegal, character.toString)⟩

/-- Cut the first piece off a text at a byte offset; the empty text has none. -/
def cut? (offset : Nat) : List Char → Option (Piece × List Char)
  | [] =>
      none
  | character :: rest =>
      let piece := first offset character rest
      some (piece, (character :: rest).drop piece.lexeme.length)

/-- Cut at most the given number of pieces off a text at a byte offset. -/
def cutUpTo : Nat → Nat → List Char → List Piece
  | 0, _, _ =>
      []
  | count + 1, offset, characters =>
      match cut? offset characters with
      | none =>
          []
      | some (piece, rest) =>
          piece ::
            withStackFor count fun _ => cutUpTo count piece.stop rest

/-- All pieces of a text; each covers at least one of its characters. -/
def split (characters : List Char) : List Piece :=
  cutUpTo characters.length 0 characters

/-- The first piece of a text is a nonempty front part of it. -/
theorem first_lexeme
    (offset : Nat)
    (character : Char)
    (rest : List Char) :
    (first offset character rest).lexeme ≠ [] ∧
      (first offset character rest).lexeme <+: character :: rest := by
  unfold first
  split
  · rename_i rule lexeme found
    have matched := LexicalRule.firstMatch?_eq_some found
    exact LexicalRule.lexeme?_eq_some matched.1 matched.2
  · simp

/-- Cutting loses nothing and leaves a shorter text. -/
theorem cut?_eq_some
    {offset : Nat}
    {characters rest : List Char}
    {piece : Piece}
    (found : cut? offset characters = some (piece, rest)) :
    piece.lexeme ++ rest = characters ∧ rest.length < characters.length := by
  cases characters with
  | nil =>
      contradiction
  | cons character others =>
      have front := first_lexeme offset character others
      simp only [cut?, Option.some.injEq, Prod.mk.injEq] at found
      obtain ⟨pieceEq, restEq⟩ := found
      subst pieceEq restEq
      obtain ⟨after, whole⟩ := front.2
      have positive :
          0 < (first offset character others).lexeme.length :=
        List.length_pos_iff.mpr front.1
      constructor
      · rw [← whole]
        simp
      · simp only [List.length_drop]
        have nonempty : 0 < (character :: others).length := by
          simp
        omega

/-- With pieces to spare, cutting splits the whole text. -/
theorem flatten_cutUpTo
    {count offset : Nat}
    {characters : List Char}
    (enough : characters.length ≤ count) :
    ((cutUpTo count offset characters).map Piece.lexeme).flatten =
      characters := by
  induction count generalizing offset characters with
  | zero =>
      have empty : characters = [] :=
        List.length_eq_zero_iff.mp (by omega)
      simp [cutUpTo, empty]
  | succ count inductionHypothesis =>
      cases found : cut? offset characters with
      | none =>
          cases characters with
          | nil =>
              simp [cutUpTo, found]
          | cons character rest =>
              simp [cut?] at found
      | some cutOff =>
          obtain ⟨piece, rest⟩ := cutOff
          obtain ⟨whole, shorter⟩ := cut?_eq_some found
          have restWhole :
              ((cutUpTo count piece.stop rest).map Piece.lexeme).flatten =
                rest :=
            inductionHypothesis (by omega)
          simp only [cutUpTo, found, withStackFor_eq, List.map_cons,
            List.flatten_cons, restWhole]
          exact whole

/-- The pieces of a text make up the text. -/
theorem flatten_split (characters : List Char) :
    ((split characters).map Piece.lexeme).flatten = characters :=
  flatten_cutUpTo (Nat.le_refl _)

end Piece

end Scriptlet
