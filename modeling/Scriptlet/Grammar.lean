import Scriptlet.Token

namespace Scriptlet

/-!
# The tables of the grammar

Which form of expression or statement a token can introduce, and how tightly a
token in operator position binds the expression to its left.
-/

/-- How tightly an operator binds, from the loosest to the tightest. -/
inductive Precedence where
  | lowest
  | equality
  | relational
  | additive
  | multiplicative
  | unary
  | call
  deriving Repr, DecidableEq

namespace Precedence

/-- Every precedence, from the loosest to the tightest. -/
def all : List Precedence :=
  [.lowest, .equality, .relational, .additive, .multiplicative, .unary, .call]

/-- Precedences are compared by rank. -/
def rank : Precedence → Nat
  | .lowest => 0
  | .equality => 1
  | .relational => 2
  | .additive => 3
  | .multiplicative => 4
  | .unary => 5
  | .call => 6

/-- The name of a precedence in listings. -/
def name : Precedence → String
  | .lowest => "Default"
  | .equality => "Equals"
  | .relational => "Relational"
  | .additive => "Additive"
  | .multiplicative => "Multiplicative"
  | .unary => "Unary"
  | .call => "Call"

/-- The precedence with a given name. -/
def ofName? (name : String) : Option Precedence :=
  all.find? fun precedence => precedence.name == name

/-- A looser precedence has the smaller rank. -/
instance : LT Precedence :=
  ⟨fun left right => left.rank < right.rank⟩

instance (left right : Precedence) : Decidable (left < right) :=
  inferInstanceAs (Decidable (left.rank < right.rank))

end Precedence

/-- The forms of expression that a first token can introduce. -/
inductive OperandForm where
  | identifier
  | integer
  | string
  | boolean
  | prefixed
  | grouping
  | conditional
  | function
  deriving Repr, DecidableEq

/-- The forms of expression that go on from the expression to their left. -/
inductive OperatorForm where
  | binary
  | call
  deriving Repr, DecidableEq

/-- The forms of statement that a word of their own introduces. -/
inductive StatementForm where
  | binding
  | returning
  deriving Repr, DecidableEq

namespace TokenKind

/-- The precedence of a token in operator position. -/
def precedence : TokenKind → Precedence
  | .equals | .notEquals => .equality
  | .less | .greater => .relational
  | .plus | .dash => .additive
  | .star | .slash => .multiplicative
  | .openParen => .call
  | _ => .lowest

/-- The form of expression a token introduces as a first token. -/
def operandForm? : TokenKind → Option OperandForm
  | .identifier => some .identifier
  | .number => some .integer
  | .string => some .string
  | .trueWord | .falseWord => some .boolean
  | .not | .dash => some .prefixed
  | .openParen => some .grouping
  | .ifWord => some .conditional
  | .fnWord => some .function
  | _ => none

/-- The form of expression a token introduces in operator position. -/
def operatorForm? : TokenKind → Option OperatorForm
  | .equals | .notEquals | .less | .greater => some .binary
  | .plus | .dash | .star | .slash => some .binary
  | .openParen => some .call
  | _ => none

/-- The form of statement a token introduces; others introduce an expression. -/
def statementForm? : TokenKind → Option StatementForm
  | .letWord => some .binding
  | .returnWord => some .returning
  | _ => none

end TokenKind

end Scriptlet
