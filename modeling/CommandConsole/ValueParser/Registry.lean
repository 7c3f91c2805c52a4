import CommandConsole.ValueParser.Builtin
import CommandConsole.Value.Text

/-! Finding the parser for a declared type. -/
namespace CommandConsole

/-- Parsers under the display text of the types they are for. -/
structure ParserRegistry where
  parsers : Table String ValueParser

/-- The parser found for a declared type, and whether that type was optional. -/
structure ResolvedParser where
  parser : ValueParser
  nullable : Bool

namespace ParserRegistry

def empty : ParserRegistry := ⟨[]⟩

/-- Registers a parser, in place of an earlier one under the same key. -/
def register (r : ParserRegistry) (key : String) (p : ValueParser) : ParserRegistry :=
  ⟨r.parsers.insert key p⟩

/-- The registry of the four basic types. -/
def builtin : ParserRegistry :=
  empty |>.register "bool" .bool |>.register "int" .int |>.register "float" .float
    |>.register "string" .text

def find? (r : ParserRegistry) (key : String) : Option ValueParser := r.parsers.find? key

/-- A parser registered for exactly a type is used for it. Otherwise enumerations bring their own,
and optionals, lists and maps are put together from the parsers of their parts. The error is the
leftmost basic or custom type without a parser. -/
def resolve (r : ParserRegistry) (t : ValueType) : Except ValueType ValueParser :=
  match r.find? t.display with
  | some p => .ok p
  | none =>
    match t with
    | .enum e => .ok (.variant e)
    | .optional inner => (r.resolve inner).map .optional
    | .list element => (r.resolve element).map .list
    | .map key value =>
      match r.resolve key with
      | .error e => .error e
      | .ok k => (r.resolve value).map (.map k)
    | t => .error t

def resolved (r : ParserRegistry) (t : ValueType) : Except ValueType ResolvedParser :=
  (r.resolve t).map fun p => ⟨p, t.isOptional⟩

/-- What is said of a type that has no parser. -/
def unsupported (t : ValueType) : String := "no parser registered for type `" ++ t.display ++ "`"

def inspect (r : ParserRegistry) : String :=
  Text.record "ParserRegistry"
    [("types", Text.sequence ((r.parsers.keys.mergeSort (· ≤ ·)).map Text.quoted))]

end ParserRegistry

def ResolvedParser.inspect (p : ResolvedParser) : String :=
  Text.record "ResolvedParser"
    [("expected", Text.quoted p.parser.expected), ("nullable", boolText p.nullable)]

end CommandConsole
