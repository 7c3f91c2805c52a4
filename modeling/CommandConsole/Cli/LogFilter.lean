import CommandConsole.Cli.FieldPattern
import CommandConsole.Cli.Logging
import CommandConsole.Number.Binary64.Text
import CommandConsole.Text.Ascii
import CommandConsole.Text.Bytes

/-! Log filters: which events are worth a line in the log. -/
namespace CommandConsole.Cli

/-- One part of a filter: whatever comes from under `target` and has the field, if one is named, is
logged up to a level, 0 being nothing at all and 5 everything. A part that names a span or the value
of a field speaks of what happens within such spans only; no event here does. -/
structure LogDirective where
  target : String
  field : Option String
  ofSpans : Bool
  level : Nat
  deriving DecidableEq

abbrev LogFilter := List LogDirective

inductive LogFilterProblem where
  | malformed
  | noLevel
  | badPattern (problem : PatternProblem)
  deriving DecidableEq

def LogFilterProblem.message : LogFilterProblem → String
  | .malformed => "invalid filter directive"
  | .noLevel =>
    "error parsing level filter: expected one of \"off\", \"error\", \"warn\", \"info\", " ++
      "\"debug\", \"trace\", or a number 0-5"
  | .badPattern problem => "invalid field filter: " ++ problem.message

/-- The text of a directive. It is read without the blanks around it, but its parts are cut out of
it as it stands, at the positions at which they were found. -/
structure DirectiveText where
  source : List Char

namespace DirectiveText

def body (t : DirectiveText) : List Char := Text.trimRight (Text.trimLeft t.source)

/-- The text from the position of a rest of its body on. -/
def onFrom (t : DirectiveText) (rest : List Char) : List Char :=
  (Text.dropBytes? (Text.width t.body - Text.width rest) t.source).getD []

/-- The text between the positions of two rests of its body. -/
def between (t : DirectiveText) (rest later : List Char) : List Char :=
  Text.takeBytes (Text.width rest - Text.width later) (t.onFrom rest)

end DirectiveText

/-- What a directive says of a field: its name, and whether its value matters too. -/
structure FieldFilter where
  name : String
  hasValue : Bool
  deriving DecidableEq

/-- Reads a name and maybe, behind an equals sign, a value. A value that is no number is a pattern,
and ends before the next equals sign. -/
def FieldFilter.parse (s : List Char) : Except PatternProblem FieldFilter := do
  let name := String.ofList (s.takeWhile (· ≠ '='))
  match s.dropWhile (· ≠ '=') with
  | [] => pure ⟨name, false⟩
  | _ :: r =>
    let value := r.takeWhile (· ≠ '=')
    if (Binary64.read? value).isNone then checkPattern value
    pure ⟨name, true⟩

namespace LogDirective

def allLevels : Nat := 5

def levelNames : List String := ["off", "error", "warn", "info", "debug", "trace"]

/-- A level by its number or its name, in any case. -/
def level? (s : List Char) : Option Nat :=
  match Decimal.unsigned? s with
  | some n => if n ≤ allLevels then some n else none
  | none => levelNames.findIdx? (Text.sameIgnoringCase (String.ofList s))

/-- Completes a directive that is about everything so far by the level behind an equals sign. None
written means everything. -/
def withLevel (d : LogDirective) (s : List Char) : Except LogFilterProblem LogDirective :=
  if s = [] then .ok d
  else
    match level? s with
    | some level => .ok { d with level := level }
    | none => .error .noLevel

/-- What follows a span: nothing, or a level. -/
def afterSpan (t : DirectiveText) (d : LogDirective) :
    List Char → Except LogFilterProblem LogDirective
  | [] => .ok d
  | '=' :: r => d.withLevel (t.onFrom r)
  | _ => .error .malformed

/-- A field in braces, from behind the opening one, and the end of the span that it belongs to. -/
def afterBrace (t : DirectiveText) (d : LogDirective) (s : List Char) :
    Except LogFilterProblem LogDirective :=
  match s.dropWhile (· ≠ '}') with
  | [] => .error .malformed
  | '}' :: r =>
    let rest := '}' :: r
    if rest = s then .error .malformed
    else
      match FieldFilter.parse (t.between s rest), r with
      | .error problem, _ => .error (.badPattern problem)
      | .ok f, ']' :: r =>
        afterSpan t { d with field := some f.name, ofSpans := d.ofSpans || f.hasValue } r
      | .ok _, _ => .error .malformed
  | _ => .error .malformed

/-- A span from behind its opening bracket: a name, a field if there is one, and the closing
bracket. Where there is a field the name may be missing, and then no span is meant. -/
def span (t : DirectiveText) (target : String) (s : List Char) :
    Except LogFilterProblem LogDirective :=
  let rest := s.dropWhile fun c => c ≠ ']' ∧ c ≠ '{'
  match rest with
  | ']' :: r => afterSpan t ⟨target, none, true, allLevels⟩ r
  | '{' :: r => afterBrace t ⟨target, none, decide (rest ≠ s), allLevels⟩ r
  | _ => .error .malformed

/-- Whether a directive may begin with a character. -/
def isLead (c : Char) : Bool := c = '-' || c = ':' || c = '_' || Text.isAlphanumeric c

/-- Reads a directive: a level, or a target, with a span in brackets or a level behind an equals
sign or both. -/
def parse (source : String) : Except LogFilterProblem LogDirective :=
  let t : DirectiveText := ⟨source.toList⟩
  match t.body with
  | [] => .error .malformed
  | '[' :: r => span t "" r
  | c :: _ =>
    if isLead c then
      let rest := t.body.dropWhile fun c => c ≠ '=' ∧ c ≠ '['
      let target := String.ofList (t.between t.body rest)
      match rest with
      | '=' :: r => withLevel ⟨target, none, false, allLevels⟩ (t.onFrom r)
      | '[' :: r => span t target r
      | _ =>
        match level? source.toList with
        | some level => .ok ⟨"", none, false, level⟩
        | none => .ok ⟨source, none, false, allLevels⟩
    else .error .malformed

/-- Whether an event with these fields that comes from `target` is one that a directive is about. -/
def isAbout (d : LogDirective) (target : String) (fields : List String) : Bool :=
  !d.ofSpans && d.target.toList.isPrefixOf target.toList && d.field.all fields.contains

/-- Whether one directive is preferred to another that is about the same event: for its longer
target, or else for the field it names, or else for the later name. -/
def outranks (d e : LogDirective) : Bool :=
  e.target.length < d.target.length ||
    e.target.length = d.target.length &&
      match d.field, e.field with
      | some f, some g => decide (g < f)
      | some _, none => true
      | none, _ => false

end LogDirective

namespace LogFilter

def parseAll : List String → Except LogFilterProblem LogFilter
  | [] => .ok []
  | s :: rest => do
    let d ← LogDirective.parse s
    let ds ← parseAll rest
    pure (d :: ds)

def errorsOnly : LogFilter := [⟨"", none, false, 1⟩]

def warnings : LogFilter := [⟨"", none, false, 2⟩]

/-- Reads directives with commas between. None at all stand for errors only. -/
def parse (s : String) : Except LogFilterProblem LogFilter := do
  let filter ← parseAll (((s.toList.splitOn ',').map String.ofList).filter (· ≠ ""))
  pure (if filter.isEmpty then errorsOnly else filter)

/-- The directive that is preferred, and the last of those that are alike. -/
def choose (best d : LogDirective) : LogDirective := if best.outranks d then best else d

/-- Whether events of a severity that come from `target`, with these fields, are logged. -/
def allows (f : LogFilter) (target : String) (fields : List String) (s : Severity) : Bool :=
  match f.filter (·.isAbout target fields) with
  | [] => false
  | d :: rest => s.rank < (rest.foldl choose d).level

end LogFilter

/-! Log lines -/

/-- The target under which an event is logged. -/
def logTarget : Event → String
  | .parserRegistered _ => "parley_parser::parsers"
  | .commandRegistered .. => "parley_runtime::registry"
  | .runnerBusy _ | .handlerFailed .. | .slowWorker _ => "parley_runtime::runner"
  | _ => "parley_runtime::engine"

/-- The names of the fields that an event is logged with. Its message is one of them, and of a slow
worker it is logged how long it has been at work. -/
def logFields (e : Event) : List String :=
  let rest :=
    match e with
    | .slowWorker _ => ["message", "elapsed_ms"]
    | _ => ["message"]
  e.fields.map (·.1) ++ rest

def severityLabel : Severity → String
  | .error => "ERROR"
  | .warn => " WARN"
  | .info => " INFO"
  | .debug => "DEBUG"

def logLine (e : Event) : String :=
  severityLabel e.severity ++ " " ++ e.message ++
    String.join (e.fields.map fun (name, text) => " " ++ name ++ "=" ++ text) ++ "\n"

/-- The log that a filter lets through. -/
def LogFilter.log (f : LogFilter) : Log := fun e =>
  if f.allows (logTarget e) (logFields e) e.severity then some (logLine e) else none

/-- Logging by filters of directives, with warnings and errors as the standard. -/
def Logging.byDirectives : Logging where
  read s :=
    match LogFilter.parse s with
    | .ok f => .ok f.log
    | .error problem => .error problem.message
  standard := LogFilter.warnings.log

end CommandConsole.Cli
