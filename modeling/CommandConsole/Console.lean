import CommandConsole.Engine

/-! A console: one invoker's lines, each answered before the next is taken. -/
namespace CommandConsole

/-- An engine that serves one invoker, and how the console looks. -/
structure Console (κ : Type) where
  engine : Engine κ
  invoker : Invoker
  showBanner : Bool := true
  prompt : String := "> "
  continuationPrompt : String := ".. "
  replyPrompt : String := "?> "

/-- How far a line has come: answered, or suspended with the answers that ticks have brought so
far. -/
inductive Progress where
  | answered (responses : List Response)
  | waiting (id : RunId) (responses : List Response)

namespace Console

variable {κ : Type}

/-- The time between two ticks while a command is suspended. -/
def tickInterval : Duration := .ofMilliseconds 50

/-- The prompt for a line: another one if the line will answer a question. -/
def currentPrompt (c : Console κ) : String :=
  if c.engine.hasConversation c.invoker.conversationKey then c.replyPrompt else c.prompt

def banner : String :=
  "\x1b[1;36mparley\x1b[0m console v0.1.0\n" ++
    "Type `help` to list commands. Use Ctrl+D to exit.\n\n"

/-- Shows an answer. An empty one does not show; a failure is red, and goes to the errors. -/
def showResponse (r : Response) : Reported Unit :=
  if r.message = "" then pure ()
  else if r.isFail then Reported.errors ("\x1b[31m" ++ r.display ++ "\x1b[0m\n")
  else Reported.output (r.display ++ "\n")

def showAll : List Response → Reported Unit
  | [] => pure ()
  | r :: rest => do
    showResponse r
    showAll rest

variable [Code κ]

/-- Dispatches a line. -/
def handle (c : Console κ) (line : String) : Reported (Progress × Console κ) := do
  let (d, engine) ← c.engine.execute line c.invoker
  match d with
  | .completed r => pure (.answered [r], { c with engine })
  | .continued r => pure (.answered [r], { c with engine })
  | .pending id => pure (.waiting id [], { c with engine })

/-- One tick for a line that is suspended. It is answered once its own run is done. -/
def advance (c : Console κ) (id : RunId) (responses : List Response) :
    Reported (Progress × Console κ) := do
  let (completions, engine) ← (c.engine.work []).tick
  let responses := responses ++ completions.map (·.response)
  if completions.any (·.id == id) then pure (.answered responses, { c with engine })
  else pure (.waiting id responses, { c with engine := engine.elapse tickInterval })

end Console
end CommandConsole
