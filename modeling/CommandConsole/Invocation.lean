import CommandConsole.Bindings
import CommandConsole.Error
import CommandConsole.Invoker

/-! Invocations: a command at work for an invoker, from its first line to the latest reply. -/
namespace CommandConsole

/-- One line of an invocation: the line itself, its words, and the answer once there is one. -/
structure Turn where
  line : String
  words : List String
  response : Option Response

/-- Everything known about an invocation. All turns share the command, the invoker and the
arguments; `earlier` holds the turns before the present one, the latest first. -/
structure Invocation where
  command : String
  invoker : Invoker
  arguments : Bindings
  turn : Turn
  earlier : List Turn

namespace Invocation

/-- An invocation at its first line. -/
def start (command line : String) (words : List String) (arguments : Bindings)
    (invoker : Invoker) : Invocation :=
  ⟨command, invoker, arguments, ⟨line, words, none⟩, []⟩

/-- The number of replies so far. -/
def depth (i : Invocation) : Nat := i.earlier.length

def previous? (i : Invocation) : Option Turn := i.earlier.head?

def response? (i : Invocation) : Option Response := i.turn.response

def hasResponded (i : Invocation) : Bool := i.turn.response.isSome

/-- The invocation at its next line. -/
def reply (i : Invocation) (line : String) (words : List String) : Invocation :=
  { i with turn := ⟨line, words, none⟩, earlier := i.turn :: i.earlier }

/-- What is handed to a worker: the line without its past and its answer. -/
def request (i : Invocation) : Invocation :=
  { i with turn := { i.turn with response := none }, earlier := [] }

def inspect (i : Invocation) : String :=
  Text.openRecord "CommandContext"
    [("command", Text.quoted i.command), ("raw_input", Text.quoted i.turn.line),
      ("invoker", Text.quoted i.invoker.name), ("arguments", i.arguments.inspect),
      ("response", Text.optional (i.turn.response.map (·.inspect))),
      ("depth", Decimal.naturalText i.depth)]

def inspectReply (i : Invocation) : String :=
  Text.openRecord "ContinuedContext" [("context", i.inspect)]

def inspectRequest (i : Invocation) : String :=
  Text.openRecord "WorkerRequest"
    [("command", Text.quoted i.command), ("raw_input", Text.quoted i.turn.line),
      ("invoker", Text.quoted i.invoker.name)]

end Invocation

/-- An invocation in the hands of its handler. `callback` is the code that takes the next line, if
the answer asks for one. -/
structure Context (κ : Type) where
  invocation : Invocation
  callback : Option κ

namespace Context

variable {κ : Type}

def ofInvocation (i : Invocation) : Context κ := ⟨i, none⟩

/-- Answers, if there is no answer yet. -/
def settle (c : Context κ) (r : Response) (callback : Option κ) : Except Breach (Context κ) :=
  match c.invocation.turn.response with
  | some first => .error (.answeredTwice c.invocation.command first.kind)
  | none =>
    .ok ⟨{ c.invocation with turn := { c.invocation.turn with response := some r } }, callback⟩

/-- Gives a final answer. One that asks for another line needs a callback. -/
def respond (c : Context κ) (r : Response) : Except Breach (Context κ) :=
  if r.isContinued then .error (.continuedWithoutCallback c.invocation.command)
  else c.settle r none

/-- Asks for another line, which the callback is to take. -/
def ask (c : Context κ) (prompt : String) (callback : κ) : Except Breach (Context κ) :=
  c.settle (.continued prompt) (some callback)

/-- Gives the empty answer if there is none. -/
def ensureResponse (c : Context κ) : Context κ :=
  match c.settle .empty none with
  | .ok c => c
  | .error _ => c

end Context
end CommandConsole
