import CommandConsole.Bindings.Bind
import CommandConsole.Catalogue
import CommandConsole.Config
import CommandConsole.Schedule

/-! The engine: it dispatches lines to commands and to open conversations, and advances what is
suspended. A finished context is handed over in the call that finishes its runner, and a suspended
run carries its command; a `Desk` has contexts posted and commands kept by number, which comes to the
same. -/
namespace CommandConsole

/-- What became of a dispatched line. -/
inductive Dispatch where
  | completed (r : Response)
  /-- The answer comes with a later tick. -/
  | pending (id : RunId)
  /-- The conversation is open: the response asks for the next line, or says why this one was
  refused. -/
  | continued (r : Response)
  deriving DecidableEq

namespace Dispatch

def response? : Dispatch → Option Response
  | .completed r => some r
  | .continued r => some r
  | .pending _ => none

def isPending : Dispatch → Bool
  | .pending _ => true
  | _ => false

end Dispatch

/-- A suspended invocation that finished in a tick. -/
structure Completion where
  id : RunId
  command : String
  invoker : String
  response : Response
  deriving DecidableEq

/-- An invocation that waits for its next line, and the code that is to take it. -/
structure Conversation (κ : Type) where
  invocation : Invocation
  callback : κ

/-- An idle runner and the command that it was made for. -/
structure PooledRunner (κ : Type) where
  origin : Command κ
  runner : Runner κ

/-- An engine: its settings, parsers and commands, the pools of storage and of idle runners (by the
name of the command, the last put back being the first taken), what is suspended, the open
conversations by key in the order in which they are abandoned, and the last number given to a
run. -/
structure Engine (κ : Type) where
  config : Config
  parsers : ParserRegistry
  commands : Catalogue κ
  pool : Pool
  runners : Table String (List (PooledRunner κ))
  schedule : Schedule κ (Command κ)
  conversations : Table String (Conversation κ)
  lastRun : Nat

namespace Engine

variable {κ : Type}

def ofConfig (config : Config) : Engine κ where
  config
  parsers := .builtin
  commands := .empty
  pool := .ofCapacity config.argumentPoolCapacity
  runners := []
  schedule := .empty
  conversations := []
  lastRun := 0

/-- The help text that handlers see. -/
def help (e : Engine κ) : String := e.commands.describe

def inFlight (e : Engine κ) : Nat := e.schedule.size

def conversationCount (e : Engine κ) : Nat := e.conversations.length

def hasConversation (e : Engine κ) (key : String) : Bool := e.conversations.contains key

/-- How many idle runners are kept for the command of a name, in any case. -/
def pooledRunners (e : Engine κ) (name : String) : Nat :=
  ((e.runners.find? (Text.lowercase name)).getD []).length

def inspect (e : Engine κ) : String :=
  Text.openRecord "CommandEngine"
    [("config", e.config.inspect), ("commands", e.commands.inspect),
      ("in_flight", Decimal.naturalText e.inFlight),
      ("conversations", Decimal.naturalText e.conversationCount)]

/-! Setting up -/

def registerParser (e : Engine κ) (key : String) (p : ValueParser) : Reported (Engine κ) := do
  Reported.event (.parserRegistered key)
  pure { e with parsers := e.parsers.register key p }

/-- Registers parsers in order. -/
def registerParsers (e : Engine κ) : List (String × ValueParser) → Reported (Engine κ)
  | [] => pure e
  | (key, p) :: rest => do
    let e ← e.registerParser key p
    e.registerParsers rest

/-- Registers a command in the catalogue alone. -/
def registerCommand (e : Engine κ) (d : CommandDeclaration κ) :
    Reported (Except Error (Command κ) × Engine κ) := do
  match ← e.commands.register d e.parsers with
  | .error err => pure (.error err, e)
  | .ok (command, commands) => pure (.ok command, { e with commands })

/-- Registers a command, and throws away the idle runners of an earlier one. -/
def register (e : Engine κ) (d : CommandDeclaration κ) :
    Reported (Except Error (Command κ) × Engine κ) := do
  match ← e.registerCommand d with
  | (.error err, e) => pure (.error err, e)
  | (.ok command, e) => pure (.ok command, { e with runners := e.runners.erase command.name })

/-- Removes a command from the catalogue. -/
def unregisterCommand (e : Engine κ) (name : String) : Option (Command κ) × Engine κ :=
  let (old, commands) := e.commands.unregister name
  (old, { e with commands })

/-! Runners -/

/-- A runner for a command: an idle one if it was made for the very same registration. -/
def rentRunner (e : Engine κ) (command : Command κ) : Runner κ × Engine κ :=
  match e.runners.find? command.name with
  | none => ({ Runner.create command.execution with slowAfter := e.config.slowTaskThreshold }, e)
  | some idle =>
    let own := idle.filter (·.origin.registration == command.registration)
    match own with
    | [] =>
      ({ Runner.create command.execution with slowAfter := e.config.slowTaskThreshold },
        { e with runners := e.runners.insert command.name [] })
    | p :: rest =>
      ({ p.runner with slowAfter := e.config.slowTaskThreshold },
        { e with runners := e.runners.insert command.name rest })

/-- Whether a command is still the one that its name stands for. -/
def isCurrent (e : Engine κ) (origin : Command κ) : Bool :=
  match e.commands.find? origin.name with
  | some current => current.registration == origin.registration
  | none => false

/-- Keeps a finished runner for later, if it can be of use and there is room. -/
def recycle (e : Engine κ) (origin : Command κ) (runner : Runner κ) : Reported (Engine κ) :=
  if !e.isCurrent origin then do
    Reported.event (.staleRunner origin.name)
    pure e
  else if !runner.shouldPool then pure e
  else
    match runner.reset with
    | (false, _) => pure e
    | (true, runner) =>
      let idle := (e.runners.find? origin.name).getD []
      let idle :=
        if idle.length < e.config.runnerPoolCapacity then ⟨origin, runner⟩ :: idle else idle
      pure { e with runners := e.runners.insert origin.name idle }

/-! Conversations -/

/-- Abandons the oldest of some conversations, one after another, until fewer than `limit` are left.
Their storage goes back. -/
def abandonOldest (limit : Nat) :
    Table String (Conversation κ) → Pool → Reported (Table String (Conversation κ) × Pool)
  | [], pool => pure ([], pool)
  | (key, old) :: rest, pool =>
    if rest.length + 1 < limit then pure ((key, old) :: rest, pool)
    else do
      Reported.event (.conversationAbandoned key)
      abandonOldest limit rest (pool.giveBack old.invocation.arguments)

/-- Makes room for one more conversation. -/
def makeRoom (e : Engine κ) : Reported (Engine κ) := do
  let (conversations, pool) ←
    abandonOldest (max 1 e.config.maxConversations) e.conversations e.pool
  pure { e with conversations, pool }

/-- Opens a conversation. One that is open under the same key is replaced, in its place; otherwise
the oldest have to make room if there are too many. -/
def openConversation (e : Engine κ) (key : String) (c : Conversation κ) : Reported (Engine κ) := do
  match e.conversations.find? key with
  | some old => do
    Reported.event (.conversationReplaced key)
    pure { e with
      conversations := e.conversations.insert key c
      pool := e.pool.giveBack old.invocation.arguments }
  | none => do
    let e ← e.makeRoom
    pure { e with conversations := e.conversations.insert key c }

/-- Takes the answer of a finished invocation. If it asks for another line the invocation becomes a
conversation, otherwise its storage goes back. -/
def conclude (e : Engine κ) (c : Context κ) : Reported (Response × Engine κ) := do
  let response := c.invocation.turn.response.getD .empty
  match response.isContinued, c.callback with
  | true, some callback => do
    let e ← e.openConversation c.invocation.invoker.conversationKey ⟨c.invocation, callback⟩
    pure (response, e)
  | _, _ => pure (response, { e with pool := e.pool.giveBack c.invocation.arguments })

def dispatchOf (r : Response) : Dispatch := if r.isContinued then .continued r else .completed r

/-- Abandons the conversation of a key; says whether there was one. -/
def endConversation (e : Engine κ) (key : String) : Reported (Bool × Engine κ) :=
  match e.conversations.find? key with
  | none => pure (false, e)
  | some old => do
    Reported.event (.conversationEnded key)
    pure (true, { e with
      conversations := e.conversations.erase key
      pool := e.pool.giveBack old.invocation.arguments })

/-- Lets time pass for all workers. -/
def elapse (e : Engine κ) (d : Duration) : Engine κ :=
  { e with schedule := e.schedule.mapRunners (·.elapse d) }

/-- Changes the catalogue behind the back of the engine. -/
def disturb (e : Engine κ) (changes : List (Catalogue.Change κ)) : Reported (Engine κ) := do
  let commands ← e.commands.changeAll changes
  pure { e with commands }

/-- Settles what a tick found finished, in order. -/
def settleAll (e : Engine κ) (meanwhile : RunId → List (Catalogue.Change κ)) :
    List (Finished κ (Command κ)) → Reported (List Completion × Engine κ)
  | [] => pure ([], e)
  | f :: rest =>
    match f.context with
    | none => e.settleAll meanwhile rest
    | some context => do
      let e ← e.disturb (meanwhile f.id)
      let e ← e.recycle f.origin f.runner
      let (response, e) ← e.conclude context
      Reported.event (.completed context.invocation.command f.id.number response.kind)
      let (completions, e) ← e.settleAll meanwhile rest
      pure (⟨f.id, context.invocation.command, context.invocation.invoker.name, response⟩ ::
        completions, e)

/-! Lines -/

/-- Binds the words of a line to the parameters of a command, for the context to run it in. -/
def prepare (e : Engine κ) (command : Command κ) (line : String) (words : List Word)
    (invoker : Invoker) (trouble : Option ScanError) :
    Reported (Except Response (Command κ × Context κ) × Engine κ) := do
  let (bound, pool) :=
    { command := command.name, line, words, invoker, trouble : BindRequest }.bind
      command.overloads e.pool
  let e := { e with pool }
  match bound with
  | .error err => do
    Reported.event
      (.bindFailed command.name err.message ((err.context.getD {}).display))
    pure (.error err.response, e)
  | .ok b => do
    Reported.event (.argumentsBound command.name b.overload)
    pure (.ok (command,
      .ofInvocation (.start command.name line (words.map (·.text)) b.arguments invoker)), e)

/-- Whether the first line of an invocation names a command that may be run, and in what context. -/
def admission (e : Engine κ) (line : String) (invoker : Invoker) :
    Reported (Except Response (Command κ × Context κ) × Engine κ) := do
  let pieces := Line.cut line
  match pieces.words with
  | [] => pure (.error (.fail "no command given"), e)
  | name :: words =>
    match pieces.problem.filter (·.position < name.stop) with
    | some trouble => do
      let error : Error := { kind := .scan trouble }
      Reported.event
        (.malformedLine error.message { input := some line : ErrorContext }.display)
      pure (.error error.response, e)
    | none =>
      match e.commands.find? name.text with
      | none => do
        if e.config.logUnknownCommands then
          Reported.event (.unknownCommand name.text invoker.name)
        pure (.error { kind := .unknownCommand name.text : Error }.response, e)
      | some command =>
        match command.permission.filter (!invoker.hasPermission ·) with
        | some permission => do
          Reported.event (.permissionDenied command.name invoker.name)
          pure (.error { kind := .permissionDenied command.name permission : Error }.response, e)
        | none => e.prepare command line words invoker pieces.problem

variable [Code κ]

/-- Hands a line to an open conversation, which has left the table. A line with trouble in its
delimiters is refused, and the conversation goes back to wait. -/
def continueConversation (e : Engine κ) (key : String) (c : Conversation κ) (line : String) :
    Reported (Dispatch × Engine κ) := do
  match Line.words line with
  | .error trouble =>
    pure (.continued (ErrorKind.scan trouble |>.message |> .fail),
      { e with conversations := e.conversations.insert key c })
  | .ok words => do
    let context := Context.ofInvocation (c.invocation.reply line (words.map (·.text)))
    let (context, _) ← context.carryOut e.help (Code.body c.callback)
    let context := context.ensureResponse
    Reported.event (.continued context.invocation.command context.invocation.depth)
    let (response, e) ← e.conclude context
    pure (dispatchOf response, e)

/-- Runs a command under the next number. It is answered at once or suspended. The handler, or
anyone else who has the catalogue, may change it between the run and its end. -/
def start (e : Engine κ) (command : Command κ) (context : Context κ)
    (meanwhile : List (Catalogue.Change κ) := []) : Reported (Dispatch × Engine κ) := do
  let id : RunId := ⟨e.lastRun + 1⟩
  let (runner, e) := { e with lastRun := e.lastRun + 1 }.rentRunner command
  let (runner, posted) ← runner.run e.help context id
  let e ← e.disturb meanwhile
  match posted with
  | none => do
    Reported.event (.suspended command.name id.number)
    pure (.pending id, { e with schedule := e.schedule.submit id command runner })
  | some posted => do
    let e ← e.recycle command runner
    let (response, e) ← e.conclude posted.context
    pure (dispatchOf response, e)

/-- Runs what a first line is admitted to, if it is. -/
def proceed (e : Engine κ) (meanwhile : List (Catalogue.Change κ)) :
    Except Response (Command κ × Context κ) → Reported (Dispatch × Engine κ)
  | .error response => pure (.completed response, e)
  | .ok (command, context) => e.start command context meanwhile

/-- Dispatches the first line of an invocation. -/
def dispatch (e : Engine κ) (line : String) (invoker : Invoker)
    (meanwhile : List (Catalogue.Change κ) := []) : Reported (Dispatch × Engine κ) := do
  let (admission, e) ← e.admission line invoker
  e.proceed meanwhile admission

/-- Takes a line. It goes to the open conversation of the invoker if there is one, and else names a
command. -/
def execute (e : Engine κ) (line : String) (invoker : Invoker)
    (meanwhile : List (Catalogue.Change κ) := []) : Reported (Dispatch × Engine κ) :=
  let key := invoker.conversationKey
  match e.conversations.find? key with
  | some c =>
    { e with conversations := e.conversations.erase key }.continueConversation key c line
  | none => e.dispatch line invoker meanwhile

/-- Advances every suspended invocation by one step. Those that finish are answered for in the
order of their dispatch. Before the runner of one comes back, the catalogue may be changed. -/
def tick (e : Engine κ) (meanwhile : RunId → List (Catalogue.Change κ) := fun _ => []) :
    Reported (List Completion × Engine κ) := do
  let (schedule, finished) ← e.schedule.tick e.help
  { e with schedule }.settleAll meanwhile finished

/-- Lets all workers go as far as they can. -/
def work (e : Engine κ) (opened : List String) : Engine κ :=
  { e with schedule := e.schedule.mapRunners (·.work e.help opened) }

end Engine
end CommandConsole
