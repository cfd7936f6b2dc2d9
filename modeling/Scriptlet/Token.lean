import Scriptlet.Position

namespace Scriptlet

/-!
# Tokens

A token is a kind, the text it was read from, and the span of that text.  The
span only says where the token was found: two tokens with the same kind and the
same text read the same wherever they stand.
-/

/-- The kinds of token of the language. -/
inductive TokenKind where
  | endOfInput
  | illegal
  | number
  | string
  | identifier
  | openCurly
  | closeCurly
  | openParen
  | closeParen
  | assignment
  | equals
  | not
  | notEquals
  | less
  | greater
  | semicolon
  | comma
  | plus
  | dash
  | slash
  | star
  | letWord
  | fnWord
  | returnWord
  | ifWord
  | elseWord
  | trueWord
  | falseWord
  deriving Repr, DecidableEq

namespace TokenKind

/-- Every kind of token. -/
def all : List TokenKind :=
  [ .endOfInput, .illegal, .number, .string, .identifier,
    .openCurly, .closeCurly, .openParen, .closeParen,
    .assignment, .equals, .not, .notEquals, .less, .greater,
    .semicolon, .comma, .plus, .dash, .slash, .star,
    .letWord, .fnWord, .returnWord, .ifWord, .elseWord,
    .trueWord, .falseWord ]

/-- The name of a kind in messages and listings. -/
def name : TokenKind → String
  | .endOfInput => "EOF"
  | .illegal => "Illegal"
  | .number => "Number"
  | .string => "String"
  | .identifier => "Identifier"
  | .openCurly => "OpenCurly"
  | .closeCurly => "CloseCurly"
  | .openParen => "OpenParen"
  | .closeParen => "CloseParen"
  | .assignment => "Assignment"
  | .equals => "Equals"
  | .not => "Not"
  | .notEquals => "NotEquals"
  | .less => "Less"
  | .greater => "Greater"
  | .semicolon => "Semicolon"
  | .comma => "Comma"
  | .plus => "Plus"
  | .dash => "Dash"
  | .slash => "Slash"
  | .star => "Star"
  | .letWord => "Let"
  | .fnWord => "Fn"
  | .returnWord => "Return"
  | .ifWord => "If"
  | .elseWord => "Else"
  | .trueWord => "True"
  | .falseWord => "False"

/-- The kind with a given name. -/
def ofName? (name : String) : Option TokenKind :=
  all.find? fun kind => kind.name == name

/-- The reserved words, each with the kind that stands for it. -/
def reservedWords : List (String × TokenKind) :=
  [ ("let", .letWord),
    ("return", .returnWord),
    ("fn", .fnWord),
    ("if", .ifWord),
    ("else", .elseWord),
    ("true", .trueWord),
    ("false", .falseWord) ]

/-- The kind of a reserved word; other words have none of their own. -/
def ofReserved? (word : String) : Option TokenKind :=
  reservedWords.lookup word

/-- The kind of a word: its own when it is reserved, else an identifier. -/
def ofWord (word : String) : TokenKind :=
  (ofReserved? word).getD .identifier

/-- Kinds whose texts differ from token to token, so that listings show them. -/
def showsValue : TokenKind → Bool
  | .string | .identifier | .number | .illegal => true
  | _ => false

/-- The list of kinds is complete. -/
theorem mem_all (kind : TokenKind) : kind ∈ all := by
  cases kind <;> decide

/-- Kinds are told apart by their names. -/
theorem ofName?_name (kind : TokenKind) : ofName? kind.name = some kind := by
  cases kind <;> decide

end TokenKind

/-- A token: its kind, its text, and where the text stands. -/
structure Token where
  kind : TokenKind
  value : String
  span : Span
  deriving Repr, DecidableEq

namespace Token

/-- The position a token starts at. -/
def start (token : Token) : Position :=
  token.span.start

/-- Two tokens read the same when only their spans may differ. -/
def sameReading (left right : Token) : Bool :=
  left.kind == right.kind && left.value == right.value

/-- Two token lists read the same token by token. -/
def sameReadings (left right : List Token) : Bool :=
  left.length == right.length &&
    (left.zip right).all fun pair => pair.1.sameReading pair.2

/-- The token that marks the end of input, at a given span. -/
def endOfInput (span : Span) : Token :=
  ⟨.endOfInput, "EOF", span⟩

/-- One line of a token listing. -/
def listing (token : Token) : String :=
  if token.kind.showsValue then
    token.kind.name ++ " (" ++ token.value ++ ")"
  else
    token.kind.name ++ " ()"

/-- A token with its kind and its text on lines of their own. -/
def description (token : Token) : String :=
  "Token \x7b\nkind: " ++ token.kind.name ++
    ",\nvalue: " ++ token.value ++ "\x7d"

/-- Reading the same means having the same kind and the same text. -/
theorem sameReading_eq_true_iff
    {left right : Token} :
    left.sameReading right = true ↔
      left.kind = right.kind ∧ left.value = right.value := by
  simp [sameReading]

end Token

end Scriptlet
