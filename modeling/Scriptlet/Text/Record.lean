namespace Scriptlet.Text

/-!
# Record notation

Values are shown in full as records: a type or constructor name, followed by
named fields in curly brackets or by plain arguments in parentheses, with lists
in square brackets.
-/

/-- A constructor with named fields. -/
def recordOf (name : String) (fields : List (String × String)) : String :=
  name ++ " \x7b " ++
    String.intercalate ", "
      (fields.map fun field => field.1 ++ ": " ++ field.2) ++
    " \x7d"

/-- A constructor with named fields of which some are left out. -/
def partialRecordOf (name : String) (fields : List (String × String)) : String :=
  name ++ " \x7b " ++
    String.intercalate ", "
      (fields.map (fun field => field.1 ++ ": " ++ field.2) ++ [".."]) ++
    " \x7d"

/-- A constructor with plain arguments. -/
def appliedTo (name : String) (arguments : List String) : String :=
  name ++ "(" ++ String.intercalate ", " arguments ++ ")"

/-- A list. -/
def listOf (members : List String) : String :=
  "[" ++ String.intercalate ", " members ++ "]"

end Scriptlet.Text
