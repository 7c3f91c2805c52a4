import CommandConsole.Value
import CommandConsole.Text.Quoted
import CommandConsole.Text.Record

/-! Values written out: as input would have them, and as they are shown for inspection. -/
namespace CommandConsole

open Text

def Foreign.text (f : Foreign) : String := "<" ++ f.typeName ++ ">"

def boolText (b : Bool) : String := if b then "true" else "false"

mutual

/-- The plain form of a value, close to the notation of input. -/
def Value.display : Value → String
  | .nil => "nil"
  | .bool b => boolText b
  | .int n => Decimal.int64Text n
  | .float x => x.text
  | .text s => s
  | .variant e => e.variant
  | .list items => "[" ++ ",".intercalate (displayItems items) ++ "]"
  | .map entries => "\x7b" ++ ",".intercalate (displayEntries entries) ++ "\x7d"
  | .foreign f => f.text

def displayItems : List Value → List String
  | [] => []
  | x :: r => x.display :: displayItems r

def displayEntries : List (Value × Value) → List String
  | [] => []
  | (k, v) :: r => (k.display ++ ":" ++ v.display) :: displayEntries r

end

mutual

/-- The form of a value that shows texts in quotes and variants with their type. -/
def Value.inspect : Value → String
  | .nil => "nil"
  | .bool b => boolText b
  | .int n => Decimal.int64Text n
  | .float x => x.text
  | .text s => quoted s
  | .variant e => e.typeName ++ "::" ++ e.variant
  | .list items => sequence (inspectItems items)
  | .map entries => association (inspectEntries entries)
  | .foreign f => f.text

def inspectItems : List Value → List String
  | [] => []
  | x :: r => x.inspect :: inspectItems r

def inspectEntries : List (Value × Value) → List (String × String)
  | [] => []
  | (k, v) :: r => (k.inspect, v.inspect) :: inspectEntries r

end
end CommandConsole
