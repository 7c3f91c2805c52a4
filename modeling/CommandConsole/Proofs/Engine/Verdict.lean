import CommandConsole.Proofs.Engine.Begun
import CommandConsole.Proofs.Engine.Conversation
import CommandConsole.Proofs.Runner.Verdict

/-! Which of the attempts of its handler answers a line, whether at once or in the course of a run. -/
namespace CommandConsole

variable {κ : Type}

theorem Answered.coherent {c d : Context κ} {w : Stretch κ} (h : Answered c w d) : d.Coherent := by
  rw [Context.Coherent, h.response, h.callback, ← w.verdict_isContinued c.invocation.command]
  simp

theorem Answered.hasResponded {c d : Context κ} {w : Stretch κ} (h : Answered c w d) :
    d.invocation.hasResponded = true :=
  Option.isSome_iff_exists.mpr ⟨_, h.response⟩

/-- What is left once the callback of a conversation has run on a line, and its fault is answered
for. -/
def Conversation.afterReply (conversation : Conversation κ) (code : Code κ) (help line : String)
    (words : List Word) : Context κ :=
  let o := (code.body conversation.callback).run help (conversation.next line words)
  o.context.close (faultOf o.result)

namespace Engine

variable {e : Engine κ} {m : Moment κ} {c d : Context κ} {w : Stretch κ} {key : String}

/-- A line is answered at once as the stretch of its handler decides, and the code for the next line
waits under a key if the answer that stands came with it. -/
structure Delivers (m : Moment κ) (key : String) (c : Context κ) (w : Stretch κ) (d : Context κ) :
    Prop where
  answered : Answered c w d
  dispatched : m.answer = .dispatch (dispatchOf (w.verdict c.invocation.command))
  waits : m.after.conversations.find? key = w.callback?.map fun k => ⟨d.invocation, k⟩

theorem delivers_of_concluded (h : Answered c w d)
    (own : c.invocation.invoker.conversationKey = key)
    (free : e.conversations.find? key = none)
    (hanswer : m.answer = .dispatch (e.concluded d).1) (hafter : m.after = (e.concluded d).2) :
    Delivers m key c w d := by
  refine ⟨h, ?_, ?_⟩
  · rw [hanswer, concluded_answer e h.response]
  · have hown : d.invocation.invoker.conversationKey = key := by
      rw [Invocation.invoker_eq_of_asked h.same, own]
    have hconcluded := e.conclude_concluded h.coherent h.hasResponded
    rw [hafter, concluded]
    generalize (e.conclude d).value = x at hconcluded
    cases hconcluded with
    | @opened r k pool answer asks callback =>
      rw [← h.callback, callback]
      simp [hown, Table.find?_insert]
    | @final r pool answer asks =>
      have hr : w.verdict c.invocation.command = r := by
        rw [h.response] at answer
        exact Option.some.inj answer
      have hnone : w.callback? = none := by
        rw [← Option.isNone_iff_eq_none, ← Option.not_isSome,
          ← w.verdict_isContinued c.invocation.command, hr, asks]
        rfl
      rw [hnone]
      exact free

section Reply

variable {line : String} {invoker : Invoker} {conversation : Conversation κ} {words : List Word}

/-- A reply is reported as one run of the callback, and what its answer does. -/
theorem notes_continueConversation [code : Code κ] (read : Line.words line = .ok words)
    (e : Engine κ) (key : String) :
    let c := conversation.next line words
    let o := (Code.body conversation.callback).run e.help c
    (e.continueConversation key conversation line).notes =
      o.said.map .said ++ faultNotes c.invocation.command o.result ++
        .event (.continued c.invocation.command c.invocation.depth) ::
          (e.conclude (conversation.afterReply code e.help line words)).notes := by
  intro c o
  have hnext :
      Context.ofInvocation (conversation.invocation.reply line (words.map (·.text))) = c := rfl
  have hclose : (c.carryOut e.help (Code.body conversation.callback)).value.1.ensureResponse =
      conversation.afterReply code e.help line words :=
    c.ensureResponse_carryOut e.help (Code.body conversation.callback)
  have hnotes := c.notes_carryOut e.help (Code.body conversation.callback)
  have hrun := ((Code.body conversation.callback).run_handled e.help c).asked
  have hclosed := ((c.carryOut_handled e.help (Code.body conversation.callback)).trans
    (Context.ensureResponse_handled _)).asked
  rw [hclose] at hclosed
  have hdepth : (conversation.afterReply code e.help line words).invocation.depth =
      c.invocation.depth := congrArg (·.earlier.length) hclosed
  simp only [Invocation.command_eq_of_asked hrun] at hnotes
  simp only [continueConversation, read, hnext, Reported.notes_bind, Reported.notes_event,
    Reported.notes_pure, List.append_nil, hnotes, hclose, Invocation.command_eq_of_asked hclosed]
  rw [hdepth]
  rfl

variable (waiting : e.conversations.find? invoker.conversationKey = some conversation)
  (read : Line.words line = .ok words) (meanwhile : List (Catalogue.Change κ))

include waiting read

/-- A reply leaves what one run of the callback leaves. -/
theorem value_execute_of_reply [code : Code κ] :
    (e.execute line invoker meanwhile).value =
      ({ e with conversations := e.conversations.erase invoker.conversationKey }.concluded
        (conversation.afterReply code e.help line words)) := by
  have hclose : ((conversation.next line words).carryOut e.help
      (Code.body conversation.callback)).value.1.ensureResponse =
        conversation.afterReply code e.help line words :=
    (conversation.next line words).ensureResponse_carryOut e.help (Code.body conversation.callback)
  simp only [execute, waiting]
  rw [value_continueConversation read]
  exact congrArg _ hclose

theorem notes_execute_of_reply [code : Code κ] :
    let c := conversation.next line words
    let o := (Code.body conversation.callback).run e.help c
    (e.execute line invoker meanwhile).notes =
      o.said.map .said ++ faultNotes c.invocation.command o.result ++
        .event (.continued c.invocation.command c.invocation.depth) ::
          (conclude { e with conversations := e.conversations.erase invoker.conversationKey }
            (conversation.afterReply code e.help line words)).notes := by
  simp only [execute, waiting]
  exact notes_continueConversation read _ _

/-- The answer to a reply is that of the callback of its conversation. -/
theorem reply_delivers (h : Attentive e) (code : Code κ) :
    Delivers (e.use ⟨.execute line invoker meanwhile, code⟩) invoker.conversationKey
      (conversation.next line words)
      ((code.body conversation.callback).stretch e.help (conversation.next line words))
      (conversation.afterReply code e.help line words) := by
  let := code
  have hanswered := ((Code.body conversation.callback).run_tries e.help
    (conversation.next line words)).answered
      (w := (Code.body conversation.callback).stretch e.help (conversation.next line words)) rfl
  have hvalue := value_execute_of_reply waiting read meanwhile
  have hown : (conversation.next line words).invocation.invoker.conversationKey =
      invoker.conversationKey := (h.tended.of_find? waiting).own
  have hfree : (e.conversations.erase invoker.conversationKey).find? invoker.conversationKey =
      none := by
    simp [Table.find?_erase h.tended.distinct]
  refine delivers_of_concluded hanswered hown
    (e := { e with conversations := e.conversations.erase invoker.conversationKey }) hfree ?_ ?_
  · exact congrArg (fun x => Answer.dispatch x.1) hvalue
  · exact congrArg Prod.snd hvalue

end Reply

/-- The run of a line, answered by the attempts of its handler in all its calls. -/
structure Served (m : Moment κ) (invoker : Invoker) (command : Command κ) (c : Context κ)
    (r : Runner κ) (first : Act κ) : Prop where
  /-- A run that is over in its first call. -/
  atOnce : ∀ q, (r.exchange first).fired = some q →
    Delivers m invoker.conversationKey c (r.account [first]) q.context
  /-- A run that is over in a later call. -/
  later : ∀ ws u a q, let calls := first :: m.after.acts ⟨m.after.lastRun⟩ ws
    Runner.handedOver (r.exchanges calls) = [] →
    (m.after.after ws).act? ⟨m.after.lastRun⟩ u = some a →
    ((r.after calls).exchange a).fired = some q →
    Answered c (r.account (calls ++ [a])) q.context ∧
      ⟨⟨m.after.lastRun⟩, command.name, invoker.name,
          (r.account (calls ++ [a])).verdict command.name⟩ ∈
        ((m.after.after ws).use u).completions
  /-- A worker never asks for a line. -/
  worker : ∀ code, command.execution = .worker code → ∀ calls,
    (r.account calls).callback? = none ∧ ((r.account calls).verdict command.name).kind ≠ .continued

theorem fresh_isInProgress (e : Engine κ) (command : Command κ) :
    (e.fresh command).isInProgress = false := rfl

/-- A run that is begun by a line of some life is served as its own attempts decide. -/
theorem Begins.served {config : Config} {us : List (Use κ)} {u : Use κ} {command : Command κ}
    {first : Act κ} {invoker : Invoker} {id : RunId}
    (h : Begins ((ofConfig config).after us) (((ofConfig config).after us).use u) command first)
    (free : ((ofConfig config).after us).conversations.find? invoker.conversationKey = none)
    (hrun : first.call = .run c id) (unanswered : c.invocation.response? = none)
    (hcommand : c.invocation.command = command.name) (hinvoker : c.invocation.invoker = invoker) :
    Served (((ofConfig config).after us).use u) invoker command c
      (((ofConfig config).after us).fresh command) first := by
  constructor
  · intro q hq
    have hanswered := Runner.answered_at_once (fresh_isInProgress _ command) hrun unanswered hq
    obtain ⟨e', hsame, hanswer, hafter⟩ := h.concluded q hq
    exact delivers_of_concluded hanswered (by rw [hinvoker]) (by rw [hsame, free]) hanswer hafter
  · intro ws u' a q calls quiet ha hq
    have hanswered :=
      Runner.answered_later (fresh_isInProgress _ command) hrun unanswered quiet hq
    obtain ⟨response, hr, hcompleted⟩ := h.course.completes ws u' a q quiet ha hq
    rw [hanswered.response, Option.some.injEq] at hr
    rw [← hr, Invocation.command_eq_of_asked hanswered.same,
      Invocation.invoker_eq_of_asked hanswered.same, hcommand, hinvoker] at hcompleted
    exact ⟨hanswered, hcompleted⟩
  · intro code hcode calls
    have hunstepped : (((ofConfig config).after us).fresh command).Unstepped := by
      simp [Runner.Unstepped, fresh, Runner.create]
    have hnone := (Runner.account_plain hcode hunstepped calls).callback?
    refine ⟨hnone, ?_⟩
    have hfinal := Stretch.verdict_isContinued
      ((((ofConfig config).after us).fresh command).account calls) command.name
    rw [hnone] at hfinal
    simpa [Response.isContinued] using hfinal

/-- The final answer of every invocation, of a first line as of a reply to a conversation: the first
attempt that is accepted, in whatever call of the run it is made; without one, a failure that names
the command and the fault of its handler; without a fault, the empty answer. Attempts after the one
that is accepted break a rule and change nothing, and code for another line is kept exactly if the
answer that stands came with it. A first line begins an invocation exactly if it names a command that
its invoker may use and can be bound; it runs then, and only then. -/
theorem first_accepted_answer_stands (config : Config) (us : List (Use κ)) :
    let e := (ofConfig config).after us
    ∀ (line : String) (invoker : Invoker) (meanwhile : List (Catalogue.Change κ)) (code : Code κ),
      let m := e.use ⟨.execute line invoker meanwhile, code⟩
      (∀ conversation words, e.conversations.find? invoker.conversationKey = some conversation →
        Line.words line = .ok words →
        let c := conversation.next line words
        ∃ d, Delivers m invoker.conversationKey c
          ((Code.body conversation.callback).stretch e.help c) d) ∧
      (e.conversations.find? invoker.conversationKey = none →
        match e.begun? line invoker with
        | none => m.after.lastRun = e.lastRun ∧ m.after.schedule = e.schedule ∧
          ∃ response, m.answer = .dispatch (.completed response) ∧ response.kind = .fail
        | some (command, c) => c.invocation.response? = none ∧
          Served m invoker command c (e.fresh command)
            ⟨.run c ⟨e.lastRun + 1⟩, e.help, code⟩) := by
  intro e line invoker meanwhile code m
  refine ⟨?_, ?_⟩
  · intro conversation words waiting read c
    exact ⟨_, reply_delivers waiting read meanwhile (attentive_after config us) code⟩
  · intro free
    split
    · rename_i hnone
      obtain ⟨⟨pool, hafter⟩, hfailed⟩ := use_of_not_begun free hnone meanwhile code
      exact ⟨congrArg (·.lastRun) hafter, congrArg (·.schedule) hafter, hfailed⟩
    · rename_i command c hbegun
      obtain ⟨-, q, b, -, -, hc⟩ := begun?_spec hbegun
      have hbegins := begins_of_begun (sound_after config us) hbegun meanwhile code
      have hunanswered : c.invocation.response? = none := by
        rw [hc]
        rfl
      refine ⟨hunanswered, hbegins.served free rfl hunanswered ?_ ?_⟩
      · rw [hc]
        rfl
      · rw [hc]
        rfl

end Engine
end CommandConsole
