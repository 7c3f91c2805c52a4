import CommandConsole.Number.Decimal
import CommandConsole.Response

/-! What is reported beside the answers: events for the operator, and what handlers themselves say.
-/
namespace CommandConsole

inductive Severity where
  | error
  | warn
  | info
  | debug
  deriving DecidableEq

namespace Severity

def name : Severity → String
  | .error => "error"
  | .warn => "warn"
  | .info => "info"
  | .debug => "debug"

def rank : Severity → Nat
  | .error => 0
  | .warn => 1
  | .info => 2
  | .debug => 3

end Severity

inductive Event where
  | parserRegistered (type : String)
  | commandRegistered (command : String) (overloads : Nat) (strategy : String)
  | malformedLine (error context : String)
  | unknownCommand (command invoker : String)
  | permissionDenied (command invoker : String)
  | bindFailed (command error context : String)
  | argumentsBound (command : String) (overload : Nat)
  | suspended (command : String) (run : Nat)
  | completed (command : String) (run : Nat) (kind : ResponseKind)
  | continued (command : String) (depth : Nat)
  | conversationEnded (key : String)
  | conversationAbandoned (key : String)
  | conversationReplaced (key : String)
  | staleRunner (command : String)
  | runnerBusy (command : String)
  | handlerFailed (command error : String)
  | slowWorker (command : String)
  deriving DecidableEq

namespace Event

def severity : Event → Severity
  | .handlerFailed .. => .error
  | .conversationAbandoned _ | .conversationReplaced _ | .slowWorker _ => .warn
  | .commandRegistered .. | .unknownCommand .. => .info
  | _ => .debug

def message : Event → String
  | .parserRegistered _ => "registered argument parser"
  | .commandRegistered .. => "registered command"
  | .malformedLine .. => "rejected malformed line"
  | .unknownCommand .. => "unknown command"
  | .permissionDenied .. => "permission denied"
  | .bindFailed .. => "bind failed"
  | .argumentsBound .. => "bound arguments"
  | .suspended .. => "command suspended"
  | .completed .. => "command completed"
  | .continued .. => "continued"
  | .conversationEnded _ => "conversation ended"
  | .conversationAbandoned _ => "abandoning oldest conversation"
  | .conversationReplaced _ => "replaced an open conversation"
  | .staleRunner _ => "dropping runner of a replaced command"
  | .runnerBusy _ => "runner busy, run ignored"
  | .handlerFailed .. => "command handler failed"
  | .slowWorker _ => "worker task is running slowly"

/-- The particulars of an event, by name. -/
def fields : Event → List (String × String)
  | .parserRegistered type => [("ty", type)]
  | .commandRegistered command overloads strategy =>
    [("command", command), ("overloads", Decimal.naturalText overloads), ("strategy", strategy)]
  | .malformedLine error context => [("error", error), ("context", context)]
  | .unknownCommand command invoker => [("command", command), ("invoker", invoker)]
  | .permissionDenied command invoker => [("command", command), ("invoker", invoker)]
  | .bindFailed command error context =>
    [("command", command), ("error", error), ("context", context)]
  | .argumentsBound command overload =>
    [("command", command), ("overload", Decimal.naturalText overload)]
  | .suspended command run => [("command", command), ("run", Decimal.naturalText run)]
  | .completed command run kind =>
    [("command", command), ("run", Decimal.naturalText run), ("kind", kind.inspect)]
  | .continued command depth => [("command", command), ("depth", Decimal.naturalText depth)]
  | .conversationEnded key => [("conversation", key)]
  | .conversationAbandoned key => [("conversation", key)]
  | .conversationReplaced key => [("conversation", key)]
  | .staleRunner command => [("command", command)]
  | .runnerBusy command => [("command", command)]
  | .handlerFailed command error => [("command", command), ("error", error)]
  | .slowWorker command => [("command", command)]

end Event

/-- One thing reported: an event, a line that a handler says on its own account, or text that a
console writes as its output or as its errors. -/
inductive Note where
  | event (e : Event)
  | said (text : String)
  | output (text : String)
  | errors (text : String)
  deriving DecidableEq

/-- A result together with what was reported on the way to it, in order. -/
structure Reported (α : Type) where
  value : α
  notes : List Note

namespace Reported

protected def pure {α : Type} (a : α) : Reported α := ⟨a, []⟩

protected def bind {α β : Type} (x : Reported α) (f : α → Reported β) : Reported β :=
  ⟨(f x.value).value, x.notes ++ (f x.value).notes⟩

instance : Monad Reported where
  pure := Reported.pure
  bind := Reported.bind

def event (e : Event) : Reported Unit := ⟨(), [.event e]⟩

def output (text : String) : Reported Unit := ⟨(), [.output text]⟩

def errors (text : String) : Reported Unit := ⟨(), [.errors text]⟩

@[simp] theorem value_pure {α : Type} (a : α) : (pure a : Reported α).value = a := rfl

@[simp] theorem value_bind {α β : Type} (x : Reported α) (f : α → Reported β) :
    (x >>= f).value = (f x.value).value := rfl

@[simp] theorem notes_pure {α : Type} (a : α) : (pure a : Reported α).notes = [] := rfl

@[simp] theorem notes_bind {α β : Type} (x : Reported α) (f : α → Reported β) :
    (x >>= f).notes = x.notes ++ (f x.value).notes := rfl

@[simp] theorem notes_event (e : Event) : (event e).notes = [.event e] := rfl

end Reported
end CommandConsole
