import CommandConsole.Engine

/-! Engines whose runs report their end by post: a finished context is posted under the number of its
run, and lies there until the engine takes it; which command a run is for is kept by the same
number. -/
namespace CommandConsole

variable {κ : Type}

/-- An engine, the commands of the runs in flight, and the finished contexts that nobody has taken
yet. -/
structure Desk (κ : Type) where
  engine : Engine κ
  origins : Table RunId (Command κ)
  outbox : List (Posted κ)

namespace Desk

def ofConfig (config : Config) : Desk κ := ⟨.ofConfig config, [], []⟩

/-- Takes the first context that is posted under a number. The last one comes in its place. -/
def take (outbox : List (Posted κ)) (id : RunId) : Option (Context κ) × List (Posted κ) :=
  match outbox.findIdx? (·.id == id) with
  | none => (none, outbox)
  | some i =>
    let later := outbox.drop (i + 1)
    (outbox[i]?.map (·.context), outbox.take i ++ later.getLast?.toList ++ later.dropLast)

/-- Settles posted contexts, in order. The runner of a run goes back if the command is known that it
was for. What is left are the finished runners whose runs have posted nothing. -/
def settleAll (d : Desk κ) (meanwhile : RunId → List (Catalogue.Change κ))
    (finished : Table RunId (Runner κ)) :
    List (Posted κ) → Reported (List Completion × Table RunId (Runner κ) × Desk κ)
  | [] => pure ([], finished, d)
  | p :: rest => do
    let engine ← d.engine.disturb (meanwhile p.id)
    let engine ←
      match finished.find? p.id, d.origins.find? p.id with
      | some runner, some origin => engine.recycle origin runner
      | _, _ => pure engine
    let (response, engine) ← engine.conclude p.context
    Reported.event (.completed p.context.invocation.command p.id.number response.kind)
    let (completions, finished, d) ←
      { d with engine, origins := d.origins.erase p.id }.settleAll meanwhile
        (finished.erase p.id) rest
    pure (⟨p.id, p.context.invocation.command, p.context.invocation.invoker.name, response⟩ ::
      completions, finished, d)

/-- Takes all that is posted, once the runners are polled. Those that are finished leave the
schedule. -/
def takeAll (d : Desk κ) (meanwhile : RunId → List (Catalogue.Change κ))
    (polled : List (Suspended κ (Command κ))) (posted : List (Posted κ)) :
    Reported (List Completion × Desk κ) := do
  let (finished, pending) := polled.partition (·.runner.isFinished)
  let runners := Table.ofPairs (finished.map fun p => (p.id, p.runner))
  let engine := { d.engine with schedule := ⟨pending, d.engine.schedule.ticks + 1⟩ }
  let (completions, left, d) ←
    settleAll { d with engine, outbox := [] } meanwhile runners (d.outbox ++ posted)
  pure (completions, { d with origins := left.keys.foldl Table.erase d.origins })

variable [Code κ]

/-- Polls runners in order; finished contexts are posted. -/
def pollAll {τ : Type} (help : String) :
    List (Suspended κ τ) → Reported (List (Suspended κ τ) × List (Posted κ))
  | [] => pure ([], [])
  | p :: rest => do
    let (runner, posted) ← p.runner.poll help
    let (polled, outbox) ← pollAll help rest
    pure ({ p with runner } :: polled, posted.toList ++ outbox)

/-- Runs a command under the next number. If its runner is finished then, the context is taken that
the run has posted. -/
def start (d : Desk κ) (command : Command κ) (context : Context κ)
    (meanwhile : List (Catalogue.Change κ) := []) : Reported (Dispatch × Desk κ) := do
  let id : RunId := ⟨d.engine.lastRun + 1⟩
  let (runner, engine) := { d.engine with lastRun := d.engine.lastRun + 1 }.rentRunner command
  let (runner, posted) ← runner.run engine.help context id
  let engine ← engine.disturb meanwhile
  let outbox := d.outbox ++ posted.toList
  if !runner.isFinished then do
    Reported.event (.suspended command.name id.number)
    let engine := { engine with schedule := engine.schedule.submit id command runner }
    pure (.pending id, { engine, origins := d.origins.insert id command, outbox })
  else do
    let engine ← engine.recycle command runner
    match take outbox id with
    | (some context, outbox) => do
      let (response, engine) ← engine.conclude context
      pure (Engine.dispatchOf response, { d with engine, outbox })
    | (none, outbox) => pure (.completed .empty, { d with engine, outbox })

/-- Takes a line, as an engine does. -/
def execute (d : Desk κ) (line : String) (invoker : Invoker)
    (meanwhile : List (Catalogue.Change κ) := []) : Reported (Dispatch × Desk κ) := do
  let key := invoker.conversationKey
  match d.engine.conversations.find? key with
  | some c => do
    let engine := { d.engine with conversations := d.engine.conversations.erase key }
    let (answer, engine) ← engine.continueConversation key c line
    pure (answer, { d with engine })
  | none => do
    match ← d.engine.admission line invoker with
    | (.error response, engine) => pure (.completed response, { d with engine })
    | (.ok (command, context), engine) => start { d with engine } command context meanwhile

/-- Advances every suspended invocation by one step, and takes all that is posted. -/
def tick (d : Desk κ) (meanwhile : RunId → List (Catalogue.Change κ) := fun _ => []) :
    Reported (List Completion × Desk κ) := do
  let (polled, posted) ← pollAll d.engine.help d.engine.schedule.pending
  d.takeAll meanwhile polled posted

end Desk
end CommandConsole
