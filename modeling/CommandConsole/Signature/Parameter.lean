import CommandConsole.Constraint
import CommandConsole.Text.Lowercase
import CommandConsole.ValueParser.Registry

/-! Parameters of a command: how they are declared, and what a declaration must satisfy. -/
namespace CommandConsole

/-- What can be wrong with the parameters of a signature. -/
inductive SignatureProblem where
  | emptyName
  | blankInName
  | noType
  | unsupported (type : ValueType)
  | remainderOfType (type : ValueType)
  | optionalRemainder
  | missingDefault
  | needlessDefault
  /-- The default, which is shown, does not belong to the type. -/
  | defaultOfOtherType (shown : String) (type : ValueType)
  | duplicate
  | remainderNotLast
  | requiredAfterOptional
  /-- A modifier was given when there was nothing yet to modify. -/
  | nothingToModify (modifier : String)
  deriving DecidableEq

def SignatureProblem.message : SignatureProblem → String
  | .emptyName => "argument name must not be empty"
  | .blankInName => "name must not contain whitespace"
  | .noType => "no type declared"
  | .unsupported type => ParserRegistry.unsupported type
  | .remainderOfType type => "remainder must be of type string, not `" ++ type.display ++ "`"
  | .optionalRemainder => "remainder cannot be optional"
  | .missingDefault => "optional argument needs a default"
  | .needlessDefault => "default given for a required argument"
  | .defaultOfOtherType shown type =>
    "default `" ++ shown ++ "` does not match type `" ++ type.display ++ "`"
  | .duplicate => "declared more than once"
  | .remainderNotLast => "remainder must be the last argument"
  | .requiredAfterOptional => "required argument follows an optional one"
  | .nothingToModify modifier => "`" ++ modifier ++ "` called before any argument was added"

/-- A problem, and the parameter that has it, if it has a name. -/
structure SignatureError where
  parameter : Option String
  problem : SignatureProblem
  deriving DecidableEq

def SignatureError.message (e : SignatureError) : String :=
  match e.parameter with
  | none => e.problem.message
  | some name => "argument `" ++ name ++ "`: " ++ e.problem.message

/-- A parameter as its author declares it, not yet checked. -/
structure Declaration where
  name : String
  type : Option ValueType := none
  isOptional : Bool := false
  default : Option Value := none
  isRemainder : Bool := false
  description : Option String := none
  constraints : List Constraint := []
  parser : Option ValueParser := none

/-- A checked parameter. `key` is the name in lower case. A parameter with a default may be left
out; one that is the remainder takes the rest of the line verbatim. -/
structure Parameter where
  name : String
  key : String
  type : ValueType
  default : Option Value
  isRemainder : Bool
  description : Option String
  constraints : List Constraint
  parser : ResolvedParser

namespace Declaration

/-- The parser of the declaration's own, or else the one registered for its type. -/
def resolveParser (d : Declaration) (type : ValueType) (r : ParserRegistry) :
    Except SignatureProblem ResolvedParser :=
  match d.parser with
  | some p => .ok ⟨p, type.isOptional⟩
  | none =>
    match r.resolved type with
    | .ok p => .ok p
    | .error t => .error (.unsupported t)

/-- The default that an optional parameter is bound to. One of an optional type may do without,
and then is nil. -/
def resolveDefault (d : Declaration) (type : ValueType) : Except SignatureProblem (Option Value) :=
  match d.default, d.isOptional with
  | some v, true =>
    if type.accepts v then .ok (some (type.coerce v))
    else .error (.defaultOfOtherType v.display type)
  | none, true => if type.isOptional then .ok (some .nil) else .error .missingDefault
  | some _, false => .error .needlessDefault
  | none, false => .ok none

/-- What is wrong with a declaration of the given type as a remainder. -/
def remainderProblem? (d : Declaration) (type : ValueType) : Option SignatureProblem :=
  if d.isRemainder ∧ type ≠ .text then some (.remainderOfType type)
  else if d.isRemainder ∧ d.isOptional then some .optionalRemainder
  else none

/-- Checks a declaration whose trimmed name and type are known. -/
def checkParts (d : Declaration) (name : String) (type : ValueType) (r : ParserRegistry) :
    Except SignatureProblem Parameter :=
  match d.resolveParser type r with
  | .error e => .error e
  | .ok parser =>
    match d.remainderProblem? type with
    | some e => .error e
    | none =>
      match d.resolveDefault type with
      | .error e => .error e
      | .ok default =>
        .ok {
          name, key := Text.lowercase name, type, default, parser
          isRemainder := d.isRemainder, description := d.description, constraints := d.constraints }

def check (d : Declaration) (r : ParserRegistry) : Except SignatureError Parameter :=
  let name := Text.trim d.name
  if name = "" then .error ⟨none, .emptyName⟩
  else if name.toList.any Text.isBlank then .error ⟨some name, .blankInName⟩
  else
    match d.type with
    | none => .error ⟨some name, .noType⟩
    | some type =>
      match d.checkParts name type r with
      | .error e => .error ⟨some name, e⟩
      | .ok p => .ok p

def inspect (d : Declaration) : String :=
  Text.openRecord "ArgumentSpec"
    [("name", Text.quoted d.name), ("ty", Text.optional (d.type.map (·.display))),
      ("optional", boolText d.isOptional), ("default", Text.optional (d.default.map (·.inspect))),
      ("remainder", boolText d.isRemainder)]

end Declaration

namespace Parameter

def isOptional (p : Parameter) : Bool := p.default.isSome

/-- The type as it is named in messages. -/
def expected (p : Parameter) : String := p.type.display

/-- How a parameter stands in a usage line. -/
def usage (p : Parameter) : String :=
  if p.isRemainder then "<" ++ p.name ++ "...>"
  else
    match p.default with
    | none => "<" ++ p.name ++ ":" ++ p.expected ++ ">"
    | some .nil => "[" ++ p.name ++ ":" ++ p.expected ++ "]"
    | some v => "[" ++ p.name ++ ":" ++ p.expected ++ "=" ++ v.display ++ "]"

def inspect (p : Parameter) : String :=
  Text.record "ArgumentDefinition"
    [("name", Text.quoted p.name), ("ty", p.expected),
      ("default", Text.optional (p.default.map (·.inspect))),
      ("remainder", boolText p.isRemainder),
      ("validators", Decimal.naturalText p.constraints.length)]

end Parameter
end CommandConsole
