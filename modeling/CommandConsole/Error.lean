import CommandConsole.Response
import CommandConsole.Signature.Parameter
import CommandConsole.Token.ScanError

/-! Everything that can go wrong with a line, a command or a handler, and how it is worded. -/
namespace CommandConsole

/-- Why a command cannot be registered. -/
inductive CommandProblem where
  | notOneWord
  | overload (index : Nat) (e : SignatureError)
  | aliasTaken (name : String)
  | nameIsAlias
  | other (words : String)
  deriving DecidableEq

def CommandProblem.message : CommandProblem → String
  | .notOneWord => "command names must be a single non-empty word"
  | .overload index e => "overload " ++ Decimal.naturalText index ++ ": " ++ e.message
  | .aliasTaken name => "alias `" ++ name ++ "` is already taken"
  | .nameIsAlias => "name is already an alias of another command"
  | .other words => words

/-- How a handler can break the rule that an invocation is answered once. -/
inductive Breach where
  | continuedWithoutCallback (command : String)
  | answeredTwice (command : String) (first : ResponseKind)
  | other (words : String)
  deriving DecidableEq

def Breach.message : Breach → String
  | .continuedWithoutCallback command =>
    "`" ++ command ++ "` answered continued without a callback"
  | .answeredTwice command first =>
    "`" ++ command ++ "` already responded (" ++ first.inspect ++ ")"
  | .other words => words

inductive ErrorKind where
  | scan (e : ScanError)
  | schema (command : String) (problem : CommandProblem)
  | bind (argument expected raw : String) (reason : Refusal)
  | noOverload (provided : Nat) (usage : String)
  | unknownCommand (name : String)
  | permissionDenied (command permission : String)
  | runnerFault (command message : String)
  | contractViolation (breach : Breach)
  | internal (message : String)
  deriving DecidableEq

/-- Where an error occurred. -/
structure ErrorContext where
  command : Option String := none
  input : Option String := none
  notes : List String := []
  deriving DecidableEq, Inhabited

structure Error where
  kind : ErrorKind
  context : Option ErrorContext := none
  deriving DecidableEq

namespace ErrorKind

def message : ErrorKind → String
  | .scan e =>
    "scan error at " ++ Decimal.naturalText e.position ++ ": " ++ e.problem.message ++
      " (near `" ++ e.fragment ++ "`)"
  | .schema command problem => "invalid schema for `" ++ command ++ "`: " ++ problem.message
  | .bind argument expected raw reason =>
    "invalid value `" ++ raw ++ "` for <" ++ argument ++ ": " ++ expected ++ ">: " ++ reason.message
  | .noOverload provided usage =>
    "wrong number of arguments (" ++ Decimal.naturalText provided ++ ")\n" ++ usage
  | .unknownCommand name => "unknown command: " ++ name
  | .permissionDenied command permission =>
    "permission denied: `" ++ command ++ "` requires " ++ permission
  | .runnerFault command message => "command `" ++ command ++ "` failed: " ++ message
  | .contractViolation breach => "contract violation: " ++ breach.message
  | .internal message => "internal error: " ++ message

/-- The name of the kind of an error. -/
def name : ErrorKind → String
  | .scan _ => "Scan"
  | .schema .. => "Schema"
  | .bind .. => "Bind"
  | .noOverload .. => "NoOverload"
  | .unknownCommand _ => "UnknownCommand"
  | .permissionDenied .. => "PermissionDenied"
  | .runnerFault .. => "RunnerFault"
  | .contractViolation _ => "ContractViolation"
  | .internal _ => "Internal"

def inspect (k : ErrorKind) : String :=
  let named (fields : List (String × String)) := Text.record k.name fields
  let single (s : String) := k.name ++ "(" ++ Text.quoted s ++ ")"
  match k with
  | .scan e =>
    named [("message", Text.quoted e.problem.message), ("fragment", Text.quoted e.fragment),
      ("position", Decimal.naturalText e.position)]
  | .schema command problem =>
    named [("command", Text.quoted command), ("message", Text.quoted problem.message)]
  | .bind argument expected raw reason =>
    named [("argument", Text.quoted argument), ("expected", Text.quoted expected),
      ("raw", Text.quoted raw), ("reason", Text.quoted reason.message)]
  | .noOverload provided usage =>
    named [("provided", Decimal.naturalText provided), ("usage", Text.quoted usage)]
  | .unknownCommand s => single s
  | .permissionDenied command permission =>
    named [("command", Text.quoted command), ("permission", Text.quoted permission)]
  | .runnerFault command message =>
    named [("command", Text.quoted command), ("message", Text.quoted message)]
  | .contractViolation breach => single breach.message
  | .internal s => single s

end ErrorKind

namespace ErrorContext

def display (c : ErrorContext) : String :=
  (match c.command with
    | some name => "in `" ++ name ++ "`"
    | none => "") ++
  (match c.input with
    | some line => " (input: " ++ Text.quoted line ++ ")"
    | none => "") ++
  String.join (c.notes.map ("\n  note: " ++ ·))

def inspect (c : ErrorContext) : String :=
  Text.record "ErrorContext"
    [("command", Text.optional (c.command.map Text.quoted)),
      ("input", Text.optional (c.input.map Text.quoted)),
      ("notes", Text.sequence (c.notes.map Text.quoted))]

end ErrorContext

namespace Error

def message (e : Error) : String := e.kind.message

/-- Whether what the user typed is to blame. -/
def isUserError (e : Error) : Bool :=
  match e.kind with
  | .scan _ | .bind .. | .noOverload .. | .unknownCommand _ | .permissionDenied .. => true
  | _ => false

/-- The byte of the line at which a scan error lies. -/
def position? (e : Error) : Option Nat :=
  match e.kind with
  | .scan s => some s.position
  | _ => none

/-- The answer to a line that failed so. -/
def response (e : Error) : Response := .fail e.message

def inspect (e : Error) : String :=
  Text.record "Error"
    [("kind", e.kind.inspect), ("context", Text.optional (e.context.map (·.inspect)))]

end Error
end CommandConsole
