import CommandConsole.Event
import CommandConsole.Script

/-! Runners: each carries out one invocation at a time of one handler. -/
namespace CommandConsole

variable {κ : Type}

/-- Identifies a dispatched invocation. -/
structure RunId where
  number : Nat
  deriving DecidableEq, Inhabited

def RunId.display (id : RunId) : String := "#" ++ Decimal.naturalText id.number

/-- The work of a worker: going on, or ended with a result that nobody has collected yet. -/
inductive Job (κ : Type) where
  | working (code : κ)
  | ended (result : Except Fault Response)

/-- A suspended invocation: the code to resume, or the worker to wait for, and the context. -/
inductive InFlight (κ : Type) where
  | stepping (code : κ) (context : Context κ)
  | awaiting (job : Job κ) (context : Context κ) (elapsed : Duration) (warned : Bool)

def InFlight.context : InFlight κ → Context κ
  | .stepping _ c => c
  | .awaiting _ c _ _ => c

/-- A context under the number of its run: what is posted at the end of an invocation. -/
structure Posted (κ : Type) where
  id : RunId
  context : Context κ

inductive RunnerState where
  | idle
  | inProgress
  | finished
  deriving DecidableEq

/-- Whoever waits for the end of an invocation is known by the number under which the finished
context is posted; `completion` is that number, until it is used. -/
structure Runner (κ : Type) where
  execution : Execution κ
  slowAfter : Duration
  state : RunnerState
  inFlight : Option (InFlight κ)
  completion : Option RunId

/-- Reports a fault of a handler, and answers with it if there is no answer yet. -/
def Context.fault (c : Context κ) (f : Fault) : Reported (Context κ) := do
  Reported.event (.handlerFailed c.invocation.command f.message)
  match c.respond (.fail (ErrorKind.runnerFault c.invocation.command f.chain).message) with
  | .ok c => pure c
  | .error _ => pure c

/-- Runs a script in a context, reporting what it says. A fault is answered for. -/
def Context.carryOut {α : Type} (c : Context κ) (help : String) (s : Script κ α) :
    Reported (Context κ × Option α) := do
  let o := s.run help c
  ⟨(), o.said.map .said⟩
  match o.result with
  | .ok a => pure (o.context, some a)
  | .error f => do
    let c ← o.context.fault f
    pure (c, none)

namespace Runner

def create (execution : Execution κ) : Runner κ := ⟨execution, .ofSeconds 5, .idle, none, none⟩

def isInProgress (r : Runner κ) : Bool := r.state == .inProgress

def isFinished (r : Runner κ) : Bool := r.state == .finished

def stateName (r : Runner κ) : String :=
  match r.state with
  | .idle => "Idle"
  | .inProgress => "InProgress"
  | .finished => "Finished"

/-- Whether a runner may be kept for another invocation. A worker's is not. -/
def shouldPool (r : Runner κ) : Bool :=
  match r.execution with
  | .worker _ => false
  | _ => true

/-- A finished runner is made idle and emptied. Any other stays as it is. -/
def reset (r : Runner κ) : Bool × Runner κ :=
  if r.isFinished then (true, { r with state := .idle, inFlight := none, completion := none })
  else (false, r)

/-- Ends the invocation. The context, which now has an answer, is posted to whoever waits for it. -/
def finish (r : Runner κ) (c : Context κ) : Runner κ × Option (Posted κ) :=
  ({ r with state := .finished, inFlight := none, completion := none },
    r.completion.map fun id => ⟨id, c.ensureResponse⟩)

/-- Lets time pass. -/
def elapse (r : Runner κ) (d : Duration) : Runner κ :=
  match r.inFlight with
  | some (.awaiting job c elapsed warned) =>
    { r with inFlight := some (.awaiting job c ⟨elapsed.nanoseconds + d.nanoseconds⟩ warned) }
  | _ => r

def inspect (r : Runner κ) : String :=
  Text.openRecord "CommandRunner" [("execution", r.execution.inspect), ("state", r.stateName)]

variable [Code κ]

/-- One step of a stepped invocation. -/
def step (r : Runner κ) (help : String) (code : κ) (c : Context κ) :
    Reported (Runner κ × Option (Posted κ)) := do
  let (c, next) ← c.carryOut help (Code.resume code)
  match next with
  | some (some code) => pure ({ r with inFlight := some (.stepping code c) }, none)
  | _ => pure (r.finish c)

/-- Calls a worker. -/
def launch (r : Runner κ) (help : String) (code : κ) (c : Context κ) :
    Reported (Runner κ × Option (Posted κ)) := do
  let l := Code.launch code ⟨c.invocation.request, help⟩
  ⟨(), l.said.map .said⟩
  match l.job with
  | .ok job => pure ({ r with inFlight := some (.awaiting (.working job) c ⟨0⟩ false) }, none)
  | .error f => do
    let c ← c.fault f
    pure (r.finish c)

/-- Starts an invocation, unless one is in progress. Its context is posted under the given number,
at once if the invocation finishes at once. -/
def run (r : Runner κ) (help : String) (c : Context κ) (id : RunId) :
    Reported (Runner κ × Option (Posted κ)) :=
  if r.isInProgress then do
    Reported.event (.runnerBusy c.invocation.command)
    pure (r, none)
  else
    let r := { r with state := .inProgress, completion := some id }
    match r.execution with
    | .sync code => do
      let (c, _) ← c.carryOut help (Code.body code)
      pure (r.finish c)
    | .stepped code => r.step help code c
    | .worker code => r.launch help code c

/-- Applies the result of a worker to the context. A worker may not ask for another line. -/
def collect (c : Context κ) : Except Fault Response → Reported (Context κ)
  | .error f => c.fault f
  | .ok response =>
    match c.respond response with
    | .ok c => pure c
    | .error b => c.fault (.breach b)

/-- Advances an invocation in progress by one step, or looks whether its worker has a result. What is
in flight is taken out meanwhile. -/
def poll (r : Runner κ) (help : String) : Reported (Runner κ × Option (Posted κ)) :=
  if !r.isInProgress then pure (r, none)
  else
    let taken := { r with inFlight := none }
    match r.inFlight with
    | none => pure (taken, none)
    | some (.stepping code c) => taken.step help code c
    | some (.awaiting (.ended result) c _ _) => do
      let c ← collect c result
      pure (taken.finish c)
    | some (.awaiting (.working code) c elapsed warned) =>
      if !warned && r.slowAfter.nanoseconds ≤ elapsed.nanoseconds then do
        Reported.event (.slowWorker c.invocation.command)
        pure ({ taken with inFlight := some (.awaiting (.working code) c elapsed true) }, none)
      else pure ({ taken with inFlight := some (.awaiting (.working code) c elapsed warned) }, none)

/-- Lets the worker go as far as it can. -/
def work (r : Runner κ) (help : String) (opened : List String) : Runner κ :=
  match r.inFlight with
  | some (.awaiting (.working code) c elapsed warned) =>
    match Code.work code ⟨c.invocation.request, help⟩ ⟨opened, elapsed⟩ with
    | none => r
    | some (.error f) =>
      let f := if f.isPanic then .workerLost else f
      { r with inFlight := some (.awaiting (.ended (.error f)) c elapsed warned) }
    | some (.ok response) =>
      { r with inFlight := some (.awaiting (.ended (.ok response)) c elapsed warned) }
  | _ => r

end Runner
end CommandConsole
