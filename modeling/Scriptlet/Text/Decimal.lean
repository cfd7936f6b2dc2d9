namespace Scriptlet.Text

/-!
# Decimal integers

Integers are read from decimal digits with an optional sign.  Only those that
fit into sixty-four bits with a sign can be read.
-/

/-- The number a nonempty row of decimal digits stands for. -/
def readDigits? (characters : List Char) : Option Nat :=
  if characters ≠ [] ∧ characters.all Char.isDigit = true then
    some (Nat.ofDigitChars 10 characters 0)
  else
    none

/-- The integer that digits with an optional sign stand for. -/
def readSigned? : List Char → Option Int
  | '-' :: digits =>
      (readDigits? digits).map fun magnitude => -(magnitude : Int)
  | '+' :: digits =>
      (readDigits? digits).map fun magnitude => (magnitude : Int)
  | digits =>
      (readDigits? digits).map fun magnitude => (magnitude : Int)

/-- The sixty-four bit integer a text stands for. -/
def readInteger? (text : String) : Option Int64 :=
  match readSigned? text.toList with
  | none =>
      none
  | some value =>
      if Int64.minValue.toInt ≤ value ∧ value ≤ Int64.maxValue.toInt then
        some (Int64.ofInt value)
      else
        none

end Scriptlet.Text
