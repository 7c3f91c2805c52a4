import CommandConsole.Console
import CommandConsole.Line.Balance
import CommandConsole.Text.Blank

/-! A session at a console: lines are read until the input ends. A session is advanced by its host,
which reads lines and lets time pass as the session wants. -/
namespace CommandConsole

/-- What reading a line can come to. -/
inductive ReadResult where
  | line (text : String)
  | interrupted
  | endOfInput
  | failed (message : String)

/-- Where a session stands. While it reads, `input` is what has been read of a text that is not yet
balanced. -/
inductive Stage where
  | reading (input : Option String)
  | handling (p : Progress)
  | over (result : Except Error Unit)

structure Session (κ : Type) where
  console : Console κ
  stage : Stage
  /-- The texts dispatched, oldest first. -/
  history : List String
  /-- The names offered for completion. -/
  keywords : List String

/-- What a session needs next. -/
inductive Want where
  | line (prompt : String)
  | time
  | nothing

namespace Session

variable {κ : Type}

/-- Begins a session. -/
def start (c : Console κ) : Reported (Session κ) := do
  if c.showBanner then
    Reported.output Console.banner
  pure ⟨c, .reading none, [], c.engine.commands.names⟩

def want (s : Session κ) : Want :=
  match s.stage with
  | .reading none => .line s.console.currentPrompt
  | .reading (some _) => .line s.console.continuationPrompt
  | .handling _ => .time
  | .over _ => .nothing

/-- Shows the answers to a line, if it has them, and goes back to reading. -/
def proceed (s : Session κ) (p : Progress) : Reported (Session κ) :=
  match p with
  | .answered responses => do
    Console.showAll responses
    pure { s with stage := .reading none }
  | .waiting .. => pure { s with stage := .handling p }

/-- Cancels what is going on: an open conversation, or else an unfinished input. -/
def interrupt (s : Session κ) (unfinished : Bool) : Reported (Session κ) := do
  let (ended, engine) ← s.console.engine.endConversation s.console.invoker.conversationKey
  Reported.output
    (if ended then "\nConversation cancelled.\n"
    else if unfinished then "\nInput cancelled.\n" else "\n")
  pure { s with console := { s.console with engine }, stage := .reading none }

def finish (s : Session κ) (result : Except Error Unit) : Session κ :=
  { s with stage := .over result }

variable [Code κ]

/-- Takes a balanced text. A blank one is passed over. -/
def submit (s : Session κ) (text : String) : Reported (Session κ) :=
  if Text.trim text = "" then pure { s with stage := .reading none }
  else do
    let (p, console) ← s.console.handle text
    { s with console, history := s.history ++ [text] }.proceed p

/-- Adds a line to what has been read, with a space between. -/
def addLine (s : Session κ) (input : Option String) (line : String) : Reported (Session κ) :=
  let text :=
    match input with
    | none => line
    | some before => before ++ " " ++ line
  if Line.isBalanced text then s.submit text
  else pure { s with stage := .reading (some text) }

/-- Takes what reading a line has come to. -/
def read (s : Session κ) (r : ReadResult) : Reported (Session κ) :=
  match s.stage, r with
  | .reading input, .line text => s.addLine input text
  | .reading input, .interrupted => s.interrupt input.isSome
  | .reading none, .endOfInput => do
    Reported.output "\nGoodbye!\n"
    pure (s.finish (.ok ()))
  | .reading (some _), .endOfInput =>
    pure (s.finish (.error { kind := .internal "unexpected EOF in multi-line input" }))
  | .reading _, .failed message =>
    pure (s.finish (.error { kind := .internal message }))
  | _, _ => pure s

/-- Lets a suspended command go on for one tick. -/
def advance (s : Session κ) : Reported (Session κ) :=
  match s.stage with
  | .handling (.waiting id responses) => do
    let (p, console) ← s.console.advance id responses
    { s with console }.proceed p
  | .handling p => s.proceed p
  | _ => pure s

end Session
end CommandConsole
