import Scriptlet.Token.Piece

namespace Scriptlet

/-!
# Scanning source text

A scanner reads a source text from a byte offset on and hands out one token per
call.  Past the last token it hands out the end of input forever.  The offset
may be moved by hand, also to a place from which no text can be read because it
lies inside a character: then no token can be handed out.

`tokenize` reads a whole text at once.
-/

/--
A source text being read: the characters from some earlier offset on, a bound on
their number, the number of bytes moved on since, and the offset reached.
-/
structure Scanner where
  ahead : List Char
  bound : Nat
  moved : Nat
  offset : Nat
  file : String
  deriving Repr, DecidableEq

namespace Scanner

/-- The name of source text that comes from no file. -/
def defaultFile : String :=
  "shell"

/-- Start reading a text at its first byte. -/
def ofSource (source file : String) : Scanner :=
  ⟨source.toList, source.length, 0, 0, file⟩

/-- The end of the text is reached at its length and at every offset past it. -/
def atEnd (scanner : Scanner) : Bool :=
  Text.byteSize scanner.ahead ≤ scanner.moved

/-- The span of the next `size` bytes. -/
def spanOf (scanner : Scanner) (size : Nat) : Span :=
  Span.ofOffset scanner.file scanner.offset size

/-- Move on by a number of bytes, wherever that leads. -/
def advance (scanner : Scanner) (count : Nat) : Scanner :=
  { scanner with
    moved := scanner.moved + count
    offset := scanner.offset + count }

/-- The end of input at the offset reached. -/
def endToken (scanner : Scanner) : Token :=
  Token.endOfInput (scanner.spanOf 0)

/--
The first token of a text at a byte offset, looked for among at most `count`
pieces, with the scanner behind it.
-/
def firstToken
    (file : String) :
    Nat → Nat → List Char → Token × Scanner
  | 0, offset, characters =>
      let scanner : Scanner := ⟨characters, 0, 0, offset, file⟩
      (scanner.endToken, scanner)
  | count + 1, offset, characters =>
      match Piece.cut? offset characters with
      | none =>
          let scanner : Scanner := ⟨characters, 0, 0, offset, file⟩
          (scanner.endToken, scanner)
      | some (piece, rest) =>
          match piece.token? file with
          | some token =>
              (token, ⟨rest, count, 0, piece.stop, file⟩)
          | none =>
              firstToken file count piece.stop rest

/--
Hand out the next token.  There is none exactly when the offset lies inside a
character.
-/
def next? (scanner : Scanner) : Option (Token × Scanner) :=
  match Text.dropBytes? scanner.ahead scanner.moved with
  | some characters =>
      some (firstToken scanner.file scanner.bound scanner.offset characters)
  | none =>
      if scanner.atEnd then
        some (scanner.endToken, scanner)
      else
        none

/--
Hand out tokens until the end of input, at most `count` of them before it.
-/
def drainUpTo : Nat → Scanner → List Token
  | 0, scanner =>
      [scanner.endToken]
  | count + 1, scanner =>
      match scanner.next? with
      | none =>
          []
      | some (token, rest) =>
          if token.kind = .endOfInput then
            [token]
          else
            token :: withStackFor count fun _ => drainUpTo count rest

end Scanner

/-- The tokens of a source text, through its end of input. -/
def tokenize (source file : String) : List Token :=
  (Piece.split source.toList).filterMap (Piece.token? file) ++
    [Token.endOfInput (Span.ofOffset file (Text.byteSize source.toList) 0)]

end Scriptlet
