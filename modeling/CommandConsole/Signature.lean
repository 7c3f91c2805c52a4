import CommandConsole.Signature.Parameter

/-! Signatures: the parameters of one overload of a command. -/
namespace CommandConsole

/-- The parameters in order, and how many of them are required (a remainder counts as required) and
optional. -/
structure Signature where
  parameters : List Parameter
  required : Nat
  optional : Nat
  hasRemainder : Bool

namespace Signature

def empty : Signature := ⟨[], 0, 0, false⟩

/-- Whether the signature can take so many words. -/
def accepts (s : Signature) (provided : Nat) : Bool :=
  s.required ≤ provided && (s.hasRemainder || provided ≤ s.required + s.optional)

/-- The parameter of a name, which may be given in either case. -/
def find? (s : Signature) (name : String) : Option Parameter :=
  let key := Text.lowercase name
  s.parameters.find? (·.key == key)

/-- One line such as `tag <colors:list<string>> [note:string=x]`. -/
def usage (s : Signature) (command : String) : String :=
  command ++ String.join (s.parameters.map fun p => " " ++ p.usage)

def inspect (s : Signature) : String :=
  Text.record "ArgumentSchema"
    [("arguments", Text.sequence (s.parameters.map (·.inspect))),
      ("required", Decimal.naturalText s.required), ("optional", Decimal.naturalText s.optional),
      ("remainder", boolText s.hasRemainder)]

/-- Adds a checked parameter, unless it does not fit behind those before. `isLast` says that no
other follows. -/
def add (s : Signature) (p : Parameter) (isLast : Bool) : Except SignatureError Signature :=
  if (s.find? p.name).isSome then .error ⟨some p.name, .duplicate⟩
  else if p.isRemainder && !isLast then .error ⟨some p.name, .remainderNotLast⟩
  else if !p.isOptional && 0 < s.optional then .error ⟨some p.name, .requiredAfterOptional⟩
  else .ok {
    parameters := s.parameters ++ [p]
    required := if p.isOptional then s.required else s.required + 1
    optional := if p.isOptional then s.optional + 1 else s.optional
    hasRemainder := s.hasRemainder || p.isRemainder }

/-- Adds declared parameters one by one. The first that is wrong in itself or in its place is the
error. -/
def addAll (r : ParserRegistry) : Signature → List Declaration → Except SignatureError Signature
  | s, [] => .ok s
  | s, d :: rest =>
    match d.check r with
    | .error e => .error e
    | .ok p =>
      match s.add p rest.isEmpty with
      | .error e => .error e
      | .ok s => addAll r s rest

/-- A signature in the making: its declarations so far, and the first modifier that came before
there was anything to modify. -/
structure Draft where
  declarations : List Declaration
  misplaced : Option String

namespace Draft

def empty : Draft := ⟨[], none⟩

def declare (d : Draft) (p : Declaration) : Draft :=
  { d with declarations := d.declarations ++ [p] }

/-- A required parameter. -/
def argument (d : Draft) (name : String) (type : ValueType) : Draft :=
  d.declare { name, type := some type }

/-- A parameter that is bound to a default when it is left out. -/
def optional (d : Draft) (name : String) (type : ValueType) (default : Value) : Draft :=
  d.declare { name, type := some type, isOptional := true, default := some default }

/-- A text that takes the rest of the line. -/
def remainder (d : Draft) (name : String) : Draft :=
  d.declare { name, type := some .text, isRemainder := true }

/-- Changes the last declaration. -/
def modify (d : Draft) (modifier : String) (f : Declaration → Declaration) : Draft :=
  match d.declarations.getLast? with
  | some last => { d with declarations := d.declarations.dropLast ++ [f last] }
  | none => { d with misplaced := d.misplaced <|> some modifier }

def described (d : Draft) (text : String) : Draft :=
  d.modify "described" fun p => { p with description := some text }

def constrained (d : Draft) (c : Constraint) : Draft :=
  d.modify "validated_by" fun p => { p with constraints := p.constraints ++ [c] }

def parsedBy (d : Draft) (parser : ValueParser) : Draft :=
  d.modify "with_parser" fun p => { p with parser := some parser }

/-- Checks the draft. -/
def build (d : Draft) (r : ParserRegistry) : Except SignatureError Signature :=
  match d.misplaced with
  | some modifier => .error ⟨none, .nothingToModify modifier⟩
  | none => Signature.empty.addAll r d.declarations

def inspect (d : Draft) : String :=
  Text.record "ArgumentBuilder"
    [("specs", Text.sequence (d.declarations.map (·.inspect))),
      ("dangling", Text.optional (d.misplaced.map Text.quoted))]

end Draft
end Signature
end CommandConsole
