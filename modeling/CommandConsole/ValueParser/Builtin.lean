import CommandConsole.Text.Blank
import CommandConsole.ValueParser
import CommandConsole.ValueType

/-! The parsers of the basic types. Text that stands in quotes or comes from a property is read like
a bare word, except that only a bare word can be nil. -/
namespace CommandConsole.ValueParser

/-- `true`, `yes`, `on`, `1` and their opposites, in either case. -/
def bool : ValueParser :=
  scalar "bool" fun _ s =>
    let word := Text.lowerAscii s
    if ["true", "yes", "on", "1"].contains word then .ok (.bool true)
    else if ["false", "no", "off", "0"].contains word then .ok (.bool false)
    else .error .notBool

def int : ValueParser :=
  scalar "int" fun _ s =>
    match Decimal.int64? (Text.trim s).toList with
    | some n => .ok (.int n)
    | none => .error .notInteger

/-- Any number that is neither infinite nor a NaN. -/
def float : ValueParser :=
  scalar "float" fun _ s =>
    match Binary64.read? (Text.trim s).toList with
    | some x => if x.isFinite then .ok (.float x) else .error .notNumber
    | none => .error .notNumber

def text : ValueParser := scalar "string" fun _ s => .ok (.text s)

/-- The ordinal that a word stands for: a name of a variant, else a number. -/
def ordinal? (e : EnumType) (word : String) : Option Nat :=
  e.position? word <|>
    (Decimal.unsigned? word.toList).filter (· < e.variants.length)

/-- A variant by its name in either case, or by its ordinal. -/
def variant (e : EnumType) : ValueParser :=
  scalar e.name fun _ s =>
    match ordinal? e (Text.trim s) with
    | some n => .ok (.variant ⟨e.name, e.variants.getD n "", n⟩)
    | none => .error (.notVariant e.variants)

def isNilWord (s : String) : Bool :=
  Text.sameIgnoringCase s "null" || Text.sameIgnoringCase s "nil"

/-- A bare `null` or `nil` is nil. All else is for the inner parser. -/
def optional (inner : ValueParser) : ValueParser where
  expected := "option<" ++ inner.expected ++ ">"
  parse place token :=
    match token with
    | .plain s => if isNilWord s then .ok .nil else inner.parse place token
    | other => inner.parse place other

end CommandConsole.ValueParser
