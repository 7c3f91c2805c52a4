import CommandConsole.Duration
import CommandConsole.Invocation

/-! Handler code: what a handler does between being called and stopping. -/
namespace CommandConsole

/-- Why handler code stopped short. -/
inductive Fault where
  /-- The handler failed; the causes follow, the innermost last. -/
  | failed (message : String) (causes : List String)
  /-- The handler panicked, with a text or with something that is none. -/
  | panicked (payload : Option String)
  /-- The handler answered when it must not. -/
  | breach (b : Breach)
  /-- A worker went away without a result. -/
  | workerLost
  deriving DecidableEq

namespace Fault

/-- The outermost message. -/
def message : Fault → String
  | .failed message _ => message
  | .panicked payload => "panicked: " ++ payload.getD "unknown panic"
  | .breach b => (ErrorKind.contractViolation b).message
  | .workerLost => "worker task panicked or was dropped"

/-- The message with all the causes behind it. -/
def chain : Fault → String
  | .failed message causes => ": ".intercalate (message :: causes)
  | f => f.message

def isPanic : Fault → Bool
  | .panicked _ => true
  | _ => false

end Fault

/-- What handler code sees: its invocation as it stands, and the help text of all commands. -/
structure Scene where
  invocation : Invocation
  help : String

/-- One stretch of handler code. `κ` names the code that may take a later line; `α` is what the
stretch ends with. After an attempt to answer the code goes on, and is told of a breach. Code reads
its context and answers in it, but cannot put another in its place. It does not change the catalogue
either: what it does there stands beside it, as the changes that are made while a run begins or a
finished one is settled. -/
inductive Script (κ α : Type) where
  | done (a : α)
  | raise (f : Fault)
  | say (text : String) (next : Script κ α)
  | look (next : Scene → Script κ α)
  | answer (r : Response) (next : Option Breach → Script κ α)
  | ask (prompt : String) (callback : κ) (next : Option Breach → Script κ α)

namespace Script

variable {κ α β : Type}

protected def bind : Script κ α → (α → Script κ β) → Script κ β
  | .done a, f => f a
  | .raise e, _ => .raise e
  | .say text next, f => .say text (next.bind f)
  | .look next, f => .look fun s => (next s).bind f
  | .answer r next, f => .answer r fun b => (next b).bind f
  | .ask prompt k next, f => .ask prompt k fun b => (next b).bind f

instance : Monad (Script κ) where
  pure := .done
  bind := Script.bind

/-- Runs a stretch of code to its end and hands a failure to the code that follows. A panic goes
through. -/
def attempt : Script κ α → Script κ (Except Fault α)
  | .done a => .done (.ok a)
  | .raise f => if f.isPanic then .raise f else .done (.error f)
  | .say text next => .say text next.attempt
  | .look next => .look fun s => (next s).attempt
  | .answer r next => .answer r fun b => (next b).attempt
  | .ask prompt k next => .ask prompt k fun b => (next b).attempt

/-- Goes on unless a rule was broken. -/
def orRaise : Option Breach → Script κ Unit
  | none => .done ()
  | some b => .raise (.breach b)

/-- Gives a final answer; it is an error if that is not allowed. -/
def respond (r : Response) : Script κ Unit := .answer r orRaise

/-- Asks for another line; it is an error if there is an answer already. -/
def prompt (message : String) (callback : κ) : Script κ Unit := .ask message callback orRaise

def scene : Script κ Scene := .look .done

def print (text : String) : Script κ Unit := .say text (.done ())

/-- What running a script comes to. -/
structure Outcome (κ α : Type) where
  context : Context κ
  said : List String
  result : Except Fault α

/-- Runs a script in a context. -/
def run (help : String) : Script κ α → Context κ → Outcome κ α
  | .done a, c => ⟨c, [], .ok a⟩
  | .raise f, c => ⟨c, [], .error f⟩
  | .say text next, c =>
    let o := next.run help c
    { o with said := text :: o.said }
  | .look next, c => (next ⟨c.invocation, help⟩).run help c
  | .answer r next, c =>
    match c.respond r with
    | .ok c => (next none).run help c
    | .error b => (next (some b)).run help c
  | .ask prompt k next, c =>
    match c.ask prompt k with
    | .ok c => (next none).run help c
    | .error b => (next (some b)).run help c

end Script

/-- How a command's handler is carried out. -/
inductive Execution (κ : Type) where
  /-- At once, when the line is dispatched. -/
  | sync (code : κ)
  /-- Step by step, one at the dispatch and one at every tick after. -/
  | stepped (code : κ)
  /-- On a worker; ticks look whether it has a result. -/
  | worker (code : κ)
  deriving DecidableEq

namespace Execution

variable {κ : Type}

def strategy : Execution κ → String
  | .sync _ => "sync"
  | .stepped _ => "stepped"
  | .worker _ => "worker"

def inspect (e : Execution κ) : String := "Execution::" ++ e.strategy

end Execution

/-- What a worker may wait for: gates that have been opened, and the time since it began. -/
structure Signals where
  opened : List String
  elapsed : Duration

/-- What a worker does when it is called: it says something and then has a job, or fails. -/
structure Launch (κ : Type) where
  said : List String
  job : Except Fault κ

/-- The meaning of code. Any behaviour of handlers can be given by a choice of `κ`. -/
class Code (κ : Type) where
  /-- A synchronous handler, or the callback that takes a reply. -/
  body : κ → Script κ Unit
  /-- One step of a stepped handler. It ends with the code of the next step, or with none. -/
  resume : κ → Script κ (Option κ)
  /-- The call of a worker handler. -/
  launch : κ → Scene → Launch κ
  /-- The result of a job, if it has one by now. -/
  work : κ → Scene → Signals → Option (Except Fault Response)

end CommandConsole
