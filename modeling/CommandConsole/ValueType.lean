import CommandConsole.Text.Ascii
import CommandConsole.Value.Equality

/-! The declared types of arguments, and which values belong to them. -/
namespace CommandConsole

/-- A closed set of named variants, in the order of their ordinals. -/
structure EnumType where
  name : String
  variants : List String
  deriving DecidableEq, Inhabited

/-- The ordinal of a variant, whose name may be given in either case. -/
def EnumType.position? (e : EnumType) (name : String) : Option Nat :=
  e.variants.findIdx? (Text.sameIgnoringCase · name)

inductive ValueType where
  | bool
  | int
  | float
  | text
  /-- A type of the host's own, read by the parser registered under its name. -/
  | custom (name : String)
  | enum (e : EnumType)
  | optional (inner : ValueType)
  | list (element : ValueType)
  | map (key value : ValueType)
  deriving DecidableEq, Inhabited

namespace ValueType

/-- How a type is shown; also the key under which a parser for exactly this type is registered. -/
def display : ValueType → String
  | .bool => "bool"
  | .int => "int"
  | .float => "float"
  | .text => "string"
  | .custom name => name
  | .enum e => e.name
  | .optional t => "option<" ++ t.display ++ ">"
  | .list t => "list<" ++ t.display ++ ">"
  | .map k v => "map<" ++ k.display ++ ", " ++ v.display ++ ">"

def isOptional : ValueType → Bool
  | .optional _ => true
  | _ => false

/-- Whether a value has the form that a type describes. A custom type takes anything, since only
its author knows; a float type takes integers too. -/
def accepts : ValueType → Value → Bool
  | .optional _, .nil => true
  | .custom _, _ => true
  | .optional t, v => t.accepts v
  | .bool, .bool _ => true
  | .int, .int _ => true
  | .float, .int _ => true
  | .float, .float _ => true
  | .text, .text _ => true
  | .enum e, .variant v => v.typeName == e.name
  | .list t, .list items => items.all t.accepts
  | .map k v, .map entries => entries.all fun e => k.accepts e.1 && v.accepts e.2
  | _, _ => false

/-- Makes floats of the integers that stand where a type says float. -/
def coerce : ValueType → Value → Value
  | .float, .int n => .float (.ofInt n.toInt)
  | .optional t, v => if v.isNil then v else t.coerce v
  | .list t, .list items => .list (items.map t.coerce)
  | .map k v, .map entries => .ofPairs (entries.map fun e => (k.coerce e.1, v.coerce e.2))
  | _, v => v

end ValueType
end CommandConsole
