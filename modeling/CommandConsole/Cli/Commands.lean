import CommandConsole.Engine

/-! The commands that the console program offers. -/
namespace CommandConsole.Cli

/-- The code of the program's handlers. -/
inductive Handler where
  | echo
  | greet
  | tag
  | mode
  | countdown
  /-- A countdown under way. -/
  | remaining (n : Int)
  | remind
  | confirm
  /-- Takes the answer whether an action is meant. -/
  | confirmed (action : String)
  | help

namespace Handler

def argument (name : String) : Script Handler String := do
  let s ← Script.scene
  pure ((s.invocation.arguments.text? name).getD "")

/-- One greeting for each of `times`. -/
def greeting (name : String) (times : Int) : String :=
  " ".intercalate (List.replicate (if times < 0 then 1 else times.toNat) ("hello, " ++ name ++ "!"))

def body : Handler → Script Handler Unit
  | .echo => do
    Script.respond (.ok (← argument "text"))
  | .greet => do
    let arguments := (← Script.scene).invocation.arguments
    let times := ((arguments.int? "times").map (·.toInt)).getD 1
    Script.respond (.ok (greeting ((arguments.text? "name").getD "stranger") times))
  | .tag => do
    let colors := ((← Script.scene).invocation.arguments.list? "colors").getD []
    Script.respond (.ok ("tagged: " ++ ", ".intercalate (colors.map (·.display))))
  | .mode => do
    let level := ((← Script.scene).invocation.arguments.variant? "level").map (·.variant)
    Script.respond (.ok ("mode set to " ++ level.getD ""))
  | .confirm => do
    let action ← argument "action"
    Script.prompt ("really " ++ action ++ "? (yes/no)") (.confirmed action)
  | .confirmed action => do
    let line := (← Script.scene).invocation.turn.line
    if Text.sameIgnoringCase (Text.trim line) "yes" then
      Script.respond (.ok (action ++ ": done"))
    else
      Script.respond (.fail (action ++ ": cancelled"))
  | .help => do
    Script.respond (.ok (Text.trimEnd (← Script.scene).help))
  | _ => pure ()

/-- Counts down one number a step. -/
def count (n : Int) : Script Handler (Option Handler) :=
  if 0 < n then do
    Script.print (Decimal.integerText n ++ "...")
    pure (some (.remaining (n - 1)))
  else do
    Script.respond (.ok "liftoff")
    pure none

def resume : Handler → Script Handler (Option Handler)
  | .countdown => do
    let arguments := (← Script.scene).invocation.arguments
    count (((arguments.int? "from").map (·.toInt)).getD 3)
  | .remaining n => count n
  | _ => pure none

/-- The seconds that the argument `after` holds. -/
def delay (s : Scene) : Nat :=
  match s.invocation.arguments.value? "after" with
  | some (.foreign f) => (Decimal.natural? f.payload.toList).getD 0
  | _ => 0

def launch (h : Handler) (_ : Scene) : Launch Handler := ⟨[], .ok h⟩

/-- The reminder comes once its time has passed. -/
def work (_ : Handler) (s : Scene) (signals : Signals) : Option (Except Fault Response) :=
  if signals.elapsed.nanoseconds < (Duration.ofSeconds (delay s)).nanoseconds then none
  else
    some (.ok (.ok ("reminder for " ++ s.invocation.invoker.name ++ ": " ++
      (s.invocation.arguments.text? "text").getD "")))

instance : Code Handler := ⟨body, resume, launch, work⟩

end Handler

/-- `90s`, `5m`, `2h`, or a bare number of seconds. The value is the number of seconds, which does
not grow beyond 64 bits. -/
def durationParser : ValueParser :=
  .scalar "duration" fun place s =>
    let digits := s.toList.takeWhile Char.isDigit
    let rest := String.ofList (s.toList.dropWhile Char.isDigit)
    let limit := UInt64.size - 1
    match (Decimal.natural? digits).filter (· ≤ limit) with
    | none => .error (.other ("expected duration, got '" ++ s ++ "'"))
    | some n =>
      let factor? :=
        if rest = "" ∨ rest = "s" then some 1
        else if rest = "m" then some 60
        else if rest = "h" then some 3600
        else none
      match factor? with
      | none => .error (.other ("unknown duration unit '" ++ rest ++ "'"))
      | some k => .ok (.foreign ⟨"duration", Decimal.naturalText (min (n * k) limit), place⟩)

/-- The program's commands, in the order of their registration. -/
def commands : List (CommandDeclaration Handler) :=
  let draft := Signature.Draft.empty
  [ { name := "echo", execution := .sync .echo, aliases := ["say"]
      description := some "Repeat the rest of the line"
      overloads := [draft.remainder "text"] },
    { name := "greet", execution := .sync .greet
      description := some "Say hello"
      overloads := [draft, (draft.argument "name" .text |>.optional "times" .int (.int 1)
        |>.constrained (.integerRange 1 5))] },
    { name := "tag", execution := .sync .tag
      description := some "Tag with a list of colors"
      overloads := [draft.argument "colors" (.list .text) |>.constrained (.size 1 none)] },
    { name := "mode", execution := .sync .mode
      description := some "Set the output mode"
      permission := some "console.mode"
      overloads := [draft.argument "level" (.enum ⟨"level", ["quiet", "normal", "loud"]⟩)] },
    { name := "countdown", execution := .stepped .countdown
      description := some "Count down one number per tick"
      overloads := [draft.argument "from" .int |>.constrained (.integerRange 1 20)] },
    { name := "remind", execution := .worker .remind
      description := some "Wait off the main loop, then remind"
      overloads := [draft.argument "after" (.custom "duration") |>.remainder "text"] },
    { name := "confirm", execution := .sync .confirm
      description := some "Ask before doing something"
      overloads := [draft.argument "action" .text] },
    { name := "help", execution := .sync .help, aliases := ["?"]
      description := some "List commands" } ]

/-- Registers commands in order. The first that is refused is the error. -/
def registerAll : Engine Handler → List (CommandDeclaration Handler) →
    Reported (Except Error (Engine Handler))
  | e, [] => pure (.ok e)
  | e, d :: rest => do
    match ← e.register d with
    | (.ok _, e) => registerAll e rest
    | (.error err, _) => pure (.error err)

/-- An engine with the program's commands. -/
def engine (config : Config) : Reported (Except Error (Engine Handler)) := do
  let e ← (Engine.ofConfig config).registerParser "duration" durationParser
  registerAll e commands

end CommandConsole.Cli
