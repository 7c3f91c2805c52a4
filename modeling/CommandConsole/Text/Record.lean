/-! The one-line form in which structured things are shown: records, sequences and associations. -/
namespace CommandConsole.Text

def fieldText (f : String × String) : String := f.1 ++ ": " ++ f.2

/-- A record with all its fields. -/
def record (name : String) (fields : List (String × String)) : String :=
  name ++ " \x7b " ++ ", ".intercalate (fields.map fieldText) ++ " \x7d"

/-- A record of which only some fields are shown. -/
def openRecord (name : String) (fields : List (String × String)) : String :=
  name ++ " \x7b " ++ String.join (fields.map fun f => fieldText f ++ ", ") ++ ".. \x7d"

def sequence (items : List String) : String := "[" ++ ", ".intercalate items ++ "]"

def association (pairs : List (String × String)) : String :=
  "\x7b" ++ ", ".intercalate (pairs.map fieldText) ++ "\x7d"

/-- A value that may be absent. -/
def optional : Option String → String
  | none => "None"
  | some s => "Some(" ++ s ++ ")"

end CommandConsole.Text
