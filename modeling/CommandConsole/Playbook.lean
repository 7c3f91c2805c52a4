import CommandConsole.Playbook.Phrase
import CommandConsole.Text.Ascii
import CommandConsole.Text.Blank

/-! Handlers written as data: lists of actions, taken in order until one fails. -/
namespace CommandConsole

inductive Action where
  | log (text : Phrase)
  | ok (text : Phrase)
  | fail (text : Phrase)
  | respond (kind : ResponseKind) (text : Phrase)
  /-- Asks for another line and then takes further actions. -/
  | ask (message : Phrase) (next : List Action)
  /-- Asks again and again until the reply is a certain word. -/
  | askUntil (message : Phrase) (word : String) (next : List Action)
  /-- Chooses by whether the line is a certain word. -/
  | ifReply (word : String) (same other : List Action)
  /-- Takes actions and logs a failure among them. -/
  | attempt (actions : List Action)
  | raise (f : Fault)
  deriving Inhabited

/-- What a worker is to do. It may fail on the call; then it waits for its gate, if it has one, and
panics, fails or answers. -/
structure Errand where
  callPanic : Option Fault := none
  gate : Option String := none
  fault : Option Fault := none
  kind : ResponseKind := .ok
  text : Phrase := .text ""
  deriving Inhabited

/-- Handler code as data. -/
inductive Play where
  | actions (list : List Action)
  /-- Takes a reply for `Action.askUntil`. -/
  | untilReply (message : Phrase) (word : String) (next : List Action)
  /-- A stepped handler that announces itself and takes one list of actions a step. -/
  | stepsFromStart (lists : List (List Action))
  | steps (lists : List (List Action))
  /-- A stepped handler that is done after as many steps as an argument says, one if it is not
  bound. -/
  | countOf (argument : String) (next : List Action)
  | count (left : Int) (next : List Action)
  /-- A stepped handler that cannot even begin. -/
  | stillborn (f : Fault)
  | errand (e : Errand)
  deriving Inhabited

namespace Play

/-- Whether a line is a word, but for white space around it and the case of A to Z. -/
def isReply (s : Scene) (word : String) : Bool :=
  Text.sameIgnoringCase (Text.trim s.invocation.turn.line) word

def askAgain (message : Phrase) (word : String) (next : List Action) : Script Play Unit := do
  let s ← Script.scene
  Script.prompt (message.fill s) (.untilReply message word next)

mutual

def perform : Action → Script Play Unit
  | .log text => do
    let s ← Script.scene
    Script.print (text.fill s)
  | .ok text => do
    let s ← Script.scene
    Script.respond (.ok (text.fill s))
  | .fail text => do
    let s ← Script.scene
    Script.respond (.fail (text.fill s))
  | .respond kind text => do
    let s ← Script.scene
    Script.respond ⟨kind, text.fill s⟩
  | .ask message next => do
    let s ← Script.scene
    Script.prompt (message.fill s) (.actions next)
  | .askUntil message word next => askAgain message word next
  | .ifReply word same other => do
    let s ← Script.scene
    if isReply s word then performAll same else performAll other
  | .attempt list => do
    match ← (performAll list).attempt with
    | .ok () => pure ()
    | .error f => Script.print ("caught " ++ f.chain)
  | .raise f => .raise f

def performAll : List Action → Script Play Unit
  | [] => pure ()
  | a :: r => do
    perform a
    performAll r

end

/-- One step that takes the first list of actions. -/
def stepThrough : List (List Action) → Script Play (Option Play)
  | [] => pure none
  | first :: rest => do
    performAll first
    pure (if rest = [] then none else some (.steps rest))

/-- One step of a count. -/
def countDown (left : Int) (next : List Action) : Script Play (Option Play) :=
  if 0 < left - 1 then pure (some (.count (left - 1) next))
  else do
    performAll next
    pure none

def body : Play → Script Play Unit
  | .actions list => performAll list
  | .untilReply message word next => do
    let s ← Script.scene
    if isReply s word then performAll next else askAgain message word next
  | _ => pure ()

def resume : Play → Script Play (Option Play)
  | .stepsFromStart lists => do
    let s ← Script.scene
    Script.print ("start " ++ s.invocation.turn.line)
    stepThrough lists
  | .steps lists => stepThrough lists
  | .countOf argument next => do
    let s ← Script.scene
    countDown (((s.invocation.arguments.int? argument).map (·.toInt)).getD 1) next
  | .count left next => countDown left next
  | .stillborn f => .raise f
  | _ => pure none

def launch : Play → Scene → Launch Play
  | .errand e, s =>
    match e.callPanic with
    | some f => ⟨[], .error f⟩
    | none => ⟨["spawn " ++ s.invocation.inspectRequest], .ok (.errand e)⟩
  | p, _ => ⟨[], .ok p⟩

def work : Play → Scene → Signals → Option (Except Fault Response)
  | .errand e, s, signals =>
    match e.gate.filter (!signals.opened.contains ·), e.fault with
    | some _, _ => none
    | none, some f => some (.error f)
    | none, none => some (.ok ⟨e.kind, e.text.fill s⟩)
  | _, _, _ => some (.ok .empty)

instance : Code Play := ⟨body, resume, launch, work⟩

end Play
end CommandConsole
