import CommandConsole.Cli.Directory
import CommandConsole.Cli.LogFilter
import CommandConsole.Cli.Program

/-! The console program at a terminal or a pipe. -/
namespace CommandConsole.Cli

def write (notes : List Note) : IO Unit := do
  for note in notes do
    match note with
    | .output text => (← IO.getStdout).putStr text
    | .errors text => (← IO.getStderr).putStr text
    | _ => pure ()
  (← IO.getStdout).flush

/-- What a host's error means for a path, if it is one of the usual problems. Hosts give the number
of a problem as it is or negated. -/
def FileProblem.ofError? : IO.Error → Option FileProblem
  | .noFileOrDirectory .. => some .notFound
  | .inappropriateType _ number _ =>
    some (if number = 20 ∨ number = -20 then .notADirectory else .isADirectory)
  | .invalidArgument _ number _ =>
    if number = 36 ∨ number = -36 then some .nameTooLong else none
  | _ => none

def readScript (path : String) : IO (Except String String) := do
  try
    return .ok (← IO.FS.readFile path)
  catch e =>
    return .error (((FileProblem.ofError? e).map FileProblem.message).getD (toString e))

def prompt (text : String) : IO Unit := do
  if ← (← IO.getStdin).isTty then
    (← IO.getStdout).putStr ("\x1b[1;32m" ++ text ++ "\x1b[0m")
    (← IO.getStdout).flush

/-- Gives the program what it wants until it exits. -/
partial def run (r : Reported Program) : IO UInt32 := do
  write r.notes
  match r.value.want with
  | .exit code => return code.toUInt32
  | .file path => run (r.value.giveFile (← readScript path))
  | .time =>
    let r := r.value.advance
    if r.value.want == .time then
      IO.sleep (Console.tickInterval.nanoseconds / 1000000).toUInt32
    run r
  | .line text =>
    prompt text
    let line ← (← IO.getStdin).getLine
    run (r.value.giveInput (if line.isEmpty then none else some line))

end CommandConsole.Cli

def main (arguments : List String) : IO UInt32 :=
  CommandConsole.Cli.run (CommandConsole.Cli.Program.start .byDirectives arguments)
