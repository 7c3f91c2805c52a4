import CommandConsole.Number.Binary64.Text
import CommandConsole.Table

/-! The values that arguments take. -/
namespace CommandConsole

/-- One variant of an enumeration: the enumeration's name, the variant's, and its place. -/
structure EnumValue where
  typeName : String
  variant : String
  ordinal : Nat
  deriving DecidableEq, Inhabited

/-- Where a foreign value was made. Two of them are the same only if they were made in one place. -/
abbrev Identity := List Nat

/-- A value of the host's own that is carried without being understood. `payload` is its content in
the host's notation. -/
structure Foreign where
  typeName : String
  payload : String
  identity : Identity
  deriving DecidableEq, Inhabited

/-- What an argument is bound to. `nil` is the absence of a value; a map is kept in the order in
which its keys came. -/
inductive Value where
  | nil
  | bool (b : Bool)
  | int (n : Int64)
  | float (x : Binary64)
  | text (s : String)
  | variant (e : EnumValue)
  | list (items : List Value)
  | map (entries : List (Value × Value))
  | foreign (f : Foreign)
  deriving Inhabited

namespace Value

/-- The name of the kind of a value. -/
def kind : Value → String
  | .nil => "nil"
  | .bool _ => "bool"
  | .int _ => "int"
  | .float _ => "float"
  | .text _ => "string"
  | .variant _ => "enum"
  | .list _ => "list"
  | .map _ => "map"
  | .foreign _ => "opaque"

def isNil : Value → Bool
  | .nil => true
  | _ => false

def bool? : Value → Option Bool
  | .bool b => some b
  | _ => none

def int? : Value → Option Int64
  | .int n => some n
  | _ => none

/-- A float, or the float nearest to an integer. -/
def float? : Value → Option Binary64
  | .int n => some (.ofInt n.toInt)
  | .float x => some x
  | _ => none

def text? : Value → Option String
  | .text s => some s
  | _ => none

def variant? : Value → Option EnumValue
  | .variant e => some e
  | _ => none

def list? : Value → Option (List Value)
  | .list items => some items
  | _ => none

def map? : Value → Option (List (Value × Value))
  | .map entries => some entries
  | _ => none

def foreign? : Value → Option Foreign
  | .foreign f => some f
  | _ => none

end Value
end CommandConsole
