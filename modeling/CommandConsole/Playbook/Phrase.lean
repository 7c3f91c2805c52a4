import CommandConsole.Script

/-! Texts with blanks that are filled from the invocation at hand. -/
namespace CommandConsole

inductive Phrase where
  | text (s : String)
  | sequence (parts : List Phrase)
  /-- The value bound to a name. -/
  | argument (name : String)
  | command
  | line
  | words
  | bindings
  | invoker
  | depth
  | responded
  /-- The answer of the turn before. -/
  | previousResponse
  /-- The line of the turn before. -/
  | previousLine
  | help
  deriving Inhabited

mutual

def Phrase.fill (s : Scene) : Phrase → String
  | .text t => t
  | .sequence parts => fillAll s parts
  | .argument name =>
    match s.invocation.arguments.value? name with
    | some v => v.display
    | none => "<unbound>"
  | .command => s.invocation.command
  | .line => s.invocation.turn.line
  | .words => "|".intercalate s.invocation.turn.words
  | .bindings => s.invocation.arguments.inspect
  | .invoker => s.invocation.invoker.name
  | .depth => Decimal.naturalText s.invocation.depth
  | .responded => boolText s.invocation.hasResponded
  | .previousResponse =>
    match s.invocation.previous? >>= (·.response) with
    | some r => r.display
    | none => "<none>"
  | .previousLine =>
    match s.invocation.previous? with
    | some t => t.line
    | none => "<none>"
  | .help => s.help

def fillAll (s : Scene) : List Phrase → String
  | [] => ""
  | p :: r => p.fill s ++ fillAll s r

end

/-- The phrase of a name, if it names a part of the invocation. -/
def Phrase.ofName? : String → Option Phrase
  | "command" => some .command
  | "raw" => some .line
  | "args" => some .words
  | "bound" => some .bindings
  | "invoker" => some .invoker
  | "depth" => some .depth
  | "responded" => some .responded
  | "previous" => some .previousResponse
  | "previous_raw" => some .previousLine
  | "describe" => some .help
  | _ => none

end CommandConsole
