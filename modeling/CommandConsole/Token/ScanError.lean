/-! What can be wrong with the delimiters of a text. -/
namespace CommandConsole

inductive ScanProblem where
  | expectedValue
  /-- A character that cannot stand where it does. -/
  | unexpected (c : Char)
  /-- A character after a token of the given kind, where the text should end. -/
  | unexpectedAfter (c : Char) (kind : String)
  | unterminated (opener : String)
  /-- Something other than a comma or the closer after an item. -/
  | expectedSeparator (closer found : Char)
  | expectedColon
  | duplicateKey (key : String)
  | emptyPropertyName
  | unknownProperty (name : String)
  /-- A problem put into words by the host. -/
  | other (words : String)
  deriving DecidableEq, Inhabited

def ScanProblem.message : ScanProblem → String
  | .expectedValue => "expected a value"
  | .unexpected c => "unexpected '" ++ String.singleton c ++ "'"
  | .unexpectedAfter c kind => "unexpected '" ++ String.singleton c ++ "' after " ++ kind
  | .unterminated opener => "unterminated '" ++ opener ++ "'"
  | .expectedSeparator closer found =>
    "expected ',' or '" ++ String.singleton closer ++ "', found '" ++ String.singleton found ++ "'"
  | .expectedColon => "expected ':' after dictionary key"
  | .duplicateKey key => "duplicate key `" ++ key ++ "`"
  | .emptyPropertyName => "empty property name"
  | .unknownProperty name => "unknown property `" ++ name ++ "`"
  | .other words => words

/-- A problem, the text it begins at, and its byte position in the line. -/
structure ScanError where
  problem : ScanProblem
  fragment : String
  position : Nat
  deriving DecidableEq, Inhabited

/-- The error at a position of which `rest` is what follows. -/
def ScanError.here (problem : ScanProblem) (rest : List Char) (position : Nat) : ScanError :=
  ⟨problem, if rest = [] then "end of input" else String.ofList rest, position⟩

end CommandConsole
