import CommandConsole.Text.Bytes

/-! Tokens: what one word of a command line says once its delimiters are understood. -/
namespace CommandConsole

inductive Token where
  /-- A bare text such as `alpha` or `30`. -/
  | plain (text : String)
  /-- A text in double quotes, kept verbatim. -/
  | literal (text : String)
  /-- `[a,b,c]` -/
  | collection (items : List Token)
  /-- `{k:v,l:w}` -/
  | dictionary (pairs : List (Token × Token))
  /-- `${name}` together with the value that the name stands for. -/
  | property (name value : String)
  deriving Inhabited

namespace Token

/-- The text of a token that is a single piece of text. -/
def scalar? : Token → Option String
  | .plain s => some s
  | .literal s => some s
  | .property _ v => some v
  | .collection _ => none
  | .dictionary _ => none

def isScalar (t : Token) : Bool := t.scalar?.isSome

def kind : Token → String
  | .plain _ => "word"
  | .literal _ => "string literal"
  | .collection _ => "collection"
  | .dictionary _ => "dictionary"
  | .property _ _ => "property"

end Token

mutual

/-- A token in the notation of input. -/
def Token.display : Token → String
  | .plain s => s
  | .literal s => "\"" ++ s ++ "\""
  | .collection items => "[" ++ ",".intercalate (displayTokens items) ++ "]"
  | .dictionary pairs => "\x7b" ++ ",".intercalate (displayPairs pairs) ++ "\x7d"
  | .property name _ => "$\x7b" ++ name ++ "\x7d"

def displayTokens : List Token → List String
  | [] => []
  | t :: r => t.display :: displayTokens r

def displayPairs : List (Token × Token) → List String
  | [] => []
  | (k, v) :: r => (k.display ++ ":" ++ v.display) :: displayPairs r

end

/-- What a dictionary key is recognised by: its text, or its notation if it has no text. -/
def Token.keyText (t : Token) : String := t.scalar?.getD t.display

end CommandConsole
