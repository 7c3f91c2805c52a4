import CommandConsole.Cli.Commands
import CommandConsole.Cli.Input
import CommandConsole.Cli.Logging
import CommandConsole.Cli.Options
import CommandConsole.Console.Session

/-! The console program from its arguments to its exit code. Its host reads files and lines and lets
time pass, as the program wants, and the library that it logs with is given. -/
namespace CommandConsole.Cli

/-- Where the program stands. -/
inductive Stage where
  /-- A script is to be read; others follow. -/
  | opening (c : Console Handler) (path : String) (rest : List String)
  /-- A line of a script is suspended; other lines and other scripts follow. -/
  | waiting (c : Console Handler) (id : RunId) (responses : List Response) (lines : List String)
    (rest : List String)
  /-- Lines are read, and an unfinished text may have been read already. -/
  | session (s : Session Handler) (unfinished : String)
  | over (code : Nat)

/-- A run of the program: whether it ends after its scripts, what it logs, and where it stands. -/
structure Program where
  batch : Bool
  log : Log
  stage : Stage

/-- What the program needs from its host. -/
inductive Need where
  | exit (code : Nat)
  | file (path : String)
  | time
  | line (prompt : String)
  deriving DecidableEq

namespace Program

def exit (code : Nat) : Program := ⟨false, fun _ => none, .over code⟩

def fail (message : String) : Reported Program := do
  Reported.errors ("\x1b[31mError: " ++ message ++ "\x1b[0m\n")
  pure (exit 1)

def want (p : Program) : Need :=
  match p.stage with
  | .opening _ path _ => .file path
  | .waiting .. => .time
  | .session s _ =>
    match s.want with
    | .line prompt => .line prompt
    | .time => .time
    | .nothing => .exit 0
  | .over code => .exit code

/-- Keeps of a report what is seen from outside. -/
def seen {α : Type} (log : Log) (r : Reported α) : Reported α :=
  ⟨r.value, r.notes.filterMap log.seen⟩

/-- Turns to the next script. After the last the program ends, or the session begins. -/
def next (p : Program) (c : Console Handler) : List String → Reported Program
  | path :: rest => pure { p with stage := .opening c path rest }
  | [] =>
    if p.batch then pure (exit 0)
    else do
      let s ← Session.start c
      pure { p with stage := .session s "" }

/-- The command lines of a script: blank lines and those that begin with a hash sign are none. -/
def scriptLines (text : String) : List String :=
  ((text.toList.splitOn '\n').map fun line => Text.trim (String.ofList line)).filter fun line =>
    line ≠ "" ∧ line.toList.head? ≠ some '#'

/-- Runs the lines of a script up to one that is suspended. -/
def runLines (p : Program) (rest : List String) (c : Console Handler) :
    List String → Reported Program
  | [] => p.next c rest
  | line :: lines => do
    Reported.output ("> " ++ line ++ "\n")
    let (progress, c) ← c.handle line
    match progress with
    | .answered responses => do
      Console.showAll responses
      p.runLines rest c lines
    | .waiting id responses => pure { p with stage := .waiting c id responses lines rest }

/-- Takes the content of the script that is to be read, or why there is none. -/
def giveFile (p : Program) (content : Except String String) : Reported Program :=
  seen p.log <|
    match p.stage, content with
    | .opening c _ rest, .ok text => p.runLines rest c (scriptLines text)
    | .opening _ path _, .error problem => fail ("cannot read " ++ path ++ ": " ++ problem)
    | _, _ => pure p

/-- Goes on with a session, and ends the program with it. -/
def resume (p : Program) (s : Session Handler) : Reported Program :=
  match s.stage with
  | .over (.error e) => fail e.message
  | .over (.ok ()) => pure (exit 0)
  | _ => pure { p with stage := .session s "" }

/-- Takes a line of the input with its break, or the end of the input. -/
def giveInput (p : Program) (line : Option String) : Reported Program :=
  seen p.log <|
    match p.stage, line with
    | .session s unfinished, some line =>
      match Entry.add unfinished line with
      | .unfinished text => pure { p with stage := .session s text }
      | .whole text => do
        let s ← s.read (.line text)
        p.resume s
    | .session s _, none => do
      let s ← s.read .endOfInput
      p.resume s
    | _, _ => pure p

/-- Lets a suspended command go on. -/
def advance (p : Program) : Reported Program :=
  seen p.log <|
    match p.stage with
    | .waiting c id responses lines rest => do
      let (progress, c) ← c.advance id responses
      match progress with
      | .answered responses => do
        Console.showAll responses
        p.runLines rest c lines
      | .waiting id responses => pure { p with stage := .waiting c id responses lines rest }
    | .session s _ => do
      let s ← s.advance
      p.resume s
    | _ => pure p

/-- Sets up the program's console and turns to the first script. -/
def begin (o : Options) (log : Log) : Reported Program :=
  seen log do
    match ← engine (if o.development then .development else {}) with
    | .error e => fail e.message
    | .ok engine =>
      let invoker := Invoker.named (o.invoker.getD "console")
      let console : Console Handler :=
        { engine, invoker := { invoker with properties := [("home", "spawn")] }
          showBanner := o.scripts.isEmpty }
      next ⟨o.batch, log, .over 0⟩ console o.scripts

/-- Starts the program. Help goes before the version, and both before anything else. -/
def start (logging : Logging) (arguments : List String) : Reported Program :=
  match Options.parse {} arguments with
  | .error problem => fail problem.message
  | .ok o =>
    if o.help then do
      Reported.output helpText
      pure (exit 0)
    else if o.version then do
      Reported.output versionText
      pure (exit 0)
    else
      match (o.log.map logging.read).getD (.ok logging.standard) with
      | .error message => fail message
      | .ok log => begin o log

end Program
end CommandConsole.Cli
