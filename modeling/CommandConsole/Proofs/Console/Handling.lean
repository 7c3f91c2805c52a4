import Mathlib.Data.List.Induction
import CommandConsole.Proofs.Console.Acts
import CommandConsole.Proofs.Engine.Flight

/-! What becomes of one line at a console: it is dispatched, and awaited tick after tick until its
run is over. -/
namespace CommandConsole.Console

variable {κ : Type}

/-- One round of waiting: what happens to the engine meanwhile, and the behaviour of handlers in the
tick that ends the round. -/
structure Round (κ : Type) where
  meanwhile : List (Aside κ)
  code : Code κ

/-- A line, the behaviour of handlers while it is dispatched, and the rounds for which there is time
to wait for it. -/
structure Handling (κ : Type) where
  line : String
  code : Code κ
  rounds : List (Round κ)

/-- The console once something else has happened to its engine. -/
def beside (c : Console κ) (as : List (Aside κ)) : Console κ :=
  { c with engine := c.engine.after (as.map (·.use)) }

/-- What a line that is waiting comes to in one round. -/
def goOn (c : Console κ) (id : RunId) (responses : List Response) (round : Round κ) :
    Progress × Console κ :=
  letI := round.code
  ((c.beside round.meanwhile).advance id responses).value

/-- What a line that has come so far comes to in some rounds. No round is begun once it is
answered. -/
def await (c : Console κ) : Progress → List (Round κ) → Progress × Console κ
  | .waiting id responses, round :: rounds =>
    (c.goOn id responses round).2.await (c.goOn id responses round).1 rounds
  | p, _ => (p, c)

/-- What a line comes to, from its dispatch on, and the console then. -/
def handleLine (c : Console κ) (h : Handling κ) : Progress × Console κ :=
  letI := h.code
  let x := (c.handle h.line).value
  x.2.await x.1 h.rounds

/-- What the engine makes of a line at once. -/
def dispatched (c : Console κ) (h : Handling κ) : Dispatch :=
  letI := h.code
  (c.engine.execute h.line c.invoker).value.1

/-- The completions that the tick of a round brings. -/
def completions (c : Console κ) (round : Round κ) : List Completion :=
  letI := round.code
  ((c.beside round.meanwhile).engine.work []).tick.value.1

/-- The response to a line: that of its dispatch, or that of the first completion after it, which
belongs to the run that the line has begun, and comes alone. -/
inductive Answers (c : Console κ) (h : Handling κ) (r : Response) : Prop where
  | atOnce (answered : (c.dispatched h).response? = some r)
  | later {id : RunId} {earlier later : List (Round κ)} {round : Round κ} {command : Command κ}
      {d : Console κ} (suspended : c.dispatched h = .pending id)
      (addressed : c.engine.addressed? h.line = some command)
      (rounds : h.rounds = earlier ++ round :: later)
      (waiting : c.handleLine { h with rounds := earlier } = (.waiting id [], d))
      (completed : d.completions round = [⟨id, command.name, c.invoker.name, r⟩])

/-- A console whose engine has no run in flight. -/
structure Free (c : Console κ) : Prop where
  reached : c.engine.Reached
  idle : c.engine.inFlight = 0

/-- A console that waits for a line. The run that the line has begun is in flight, and no other. -/
structure WaitsFor (c : Console κ) (h : Handling κ) (id : RunId) (d : Console κ) : Prop where
  reached : d.engine.Reached
  suspended : c.dispatched h = .pending id
  own : ∃ command context, c.engine.addressed? h.line = some command ∧
    d.engine.schedule.held = [(id, some context)] ∧ context.invocation.command = command.name ∧
    context.invocation.invoker = c.invoker

/-- What a line comes to at a console that has no run in flight: one response, and no run is in
flight again, or no response, as long as the run of the line is in flight. -/
inductive Outcome (c : Console κ) (h : Handling κ) : Progress × Console κ → Prop where
  | answered {r : Response} {d : Console κ} (answers : c.Answers h r) (free : d.Free) :
      Outcome c h (.answered [r], d)
  | waiting {id : RunId} {d : Console κ} (waits : c.WaitsFor h id d) :
      Outcome c h (.waiting id [], d)

section Code

variable [Code κ] {c : Console κ} {line : String} {id : RunId} {responses : List Response}

theorem handle_of_response {r : Response}
    (h : (c.engine.execute line c.invoker).value.1.response? = some r) :
    (c.handle line).value =
      (.answered [r], { c with engine := (c.engine.execute line c.invoker).value.2 }) := by
  simp only [handle, Reported.value_bind]
  cases hd : (c.engine.execute line c.invoker).value.1 <;> rw [hd] at h <;> cases h <;> rfl

theorem handle_of_pending (h : (c.engine.execute line c.invoker).value.1 = .pending id) :
    (c.handle line).value =
      (.waiting id [], { c with engine := (c.engine.execute line c.invoker).value.2 }) := by
  simp only [handle, Reported.value_bind, h]
  rfl

/-- A tick that completes nothing brings nothing. -/
theorem advance_of_none (h : (c.engine.work []).tick.value.1 = []) :
    (c.advance id responses).value =
      (.waiting id responses,
        { c with engine := (c.engine.work []).tick.value.2.elapse tickInterval }) := by
  simp [advance, h]

/-- A tick that completes the awaited run alone brings its response. -/
theorem advance_of_one {x : Completion} (h : (c.engine.work []).tick.value.1 = [x])
    (own : x.id = id) :
    (c.advance id responses).value =
      (.answered (responses ++ [x.response]),
        { c with engine := (c.engine.work []).tick.value.2 }) := by
  simp [advance, h, own]

end Code

variable {c d : Console κ} {h : Handling κ} {id : RunId} {r : Response}

@[simp] theorem await_nil (c : Console κ) (p : Progress) : c.await p [] = (p, c) := by
  cases p <;> rfl

theorem await_answered (c : Console κ) (responses : List Response) (rounds : List (Round κ)) :
    c.await (.answered responses) rounds = (.answered responses, c) := by
  cases rounds <;> rfl

theorem await_append (c : Console κ) (p : Progress) (rounds more : List (Round κ)) :
    c.await p (rounds ++ more) = (c.await p rounds).2.await (c.await p rounds).1 more := by
  induction rounds generalizing c p with
  | nil => rw [await_nil, List.nil_append]
  | cons round rounds ih =>
    cases p with
    | answered responses => rw [await_answered, await_answered, await_answered]
    | waiting id responses => exact ih _ _

theorem handleLine_append (c : Console κ) (h : Handling κ) (more : List (Round κ)) :
    c.handleLine { h with rounds := h.rounds ++ more } =
      (c.handleLine h).2.await (c.handleLine h).1 more :=
  await_append _ _ h.rounds more

/-- Without rounds a line is dispatched only. -/
theorem handleLine_dispatch [code : Code κ] (c : Console κ) (line : String) :
    c.handleLine ⟨line, code, []⟩ = (c.handle line).value :=
  await_nil _ _

theorem await_round (c : Console κ) (id : RunId) (responses : List Response) (round : Round κ) :
    c.await (.waiting id responses) [round] = c.goOn id responses round :=
  await_nil _ _

theorem Answers.append (answers : c.Answers h r) (more : List (Round κ)) :
    c.Answers { h with rounds := h.rounds ++ more } r := by
  cases answers with
  | atOnce answered => exact .atOnce answered
  | @later id earlier later round command d suspended addressed rounds waiting completed =>
    have hrounds : h.rounds ++ more = earlier ++ round :: (later ++ more) := by
      rw [rounds, List.append_assoc, List.cons_append]
    exact .later suspended addressed hrounds waiting completed

theorem reached_beside (reached : c.engine.Reached) (as : List (Aside κ)) :
    (c.beside as).engine.Reached :=
  reached.after _

theorem held_beside (c : Console κ) (as : List (Aside κ)) :
    (c.beside as).engine.schedule.held = c.engine.schedule.held :=
  c.engine.held_asides as

/-- A line that is dispatched while no run is in flight is answered at once, or its run is the only
one in flight. -/
theorem outcome_of_dispatch [code : Code κ] (free : c.Free) (line : String) :
    c.Outcome ⟨line, code, []⟩ (c.handle line).value := by
  have hnone := Engine.held_eq_nil_iff.mpr free.idle
  have reached := free.reached.execute line c.invoker []
  rcases Engine.held_execute free.reached.rested line c.invoker [] with
    ⟨r, hr, hheld⟩ | ⟨id, command, context, hid, addressed, hcommand, hinvoker, hheld⟩
  · rw [handle_of_response hr]
    exact .answered (.atOnce hr) ⟨reached, Engine.held_eq_nil_iff.mp (hheld.trans hnone)⟩
  · rw [hnone] at hheld
    rw [handle_of_pending hid]
    exact .waiting ⟨reached, hid, command, context, addressed, hheld, hcommand, hinvoker⟩

/-- In one more round the run of the line is over, and is the only one to complete, or it goes
on. -/
theorem outcome_of_round (waits : c.WaitsFor h id d)
    (waiting : c.handleLine h = (.waiting id [], d)) (round : Round κ) :
    c.Outcome { h with rounds := h.rounds ++ [round] } (d.goOn id [] round) := by
  let := round.code
  obtain ⟨command, context, addressed, hheld, hcommand, hinvoker⟩ := waits.own
  have reached : ((d.beside round.meanwhile).engine.work []).Reached :=
    (reached_beside waits.reached round.meanwhile).work []
  have hone : ((d.beside round.meanwhile).engine.work []).schedule.held = [(id, some context)] := by
    rw [Engine.held_work, held_beside, hheld]
  simp only [goOn]
  rcases Engine.tick_of_one reached.rested hone fun _ => [] with
    ⟨hquiet, context', hheld', handled⟩ | ⟨r, hcompleted, hnone⟩
  · rw [advance_of_none hquiet]
    refine .waiting ⟨(reached.tick _).elapse _, waits.suspended, command, context', addressed, ?_, ?_,
      ?_⟩
    · rw [Engine.held_elapse, hheld']
    · exact (Invocation.command_eq_of_asked handled.asked).trans hcommand
    · exact (Invocation.invoker_eq_of_asked handled.asked).trans hinvoker
  · rw [advance_of_one hcompleted rfl]
    rw [hcommand, hinvoker] at hcompleted
    exact .answered (.later waits.suspended addressed rfl waiting hcompleted)
      ⟨reached.tick _, Engine.held_eq_nil_iff.mp hnone⟩

/-- A line at a console without a run in flight is answered by one response, of its own, and leaves
no run in flight, or its own run is not over yet. -/
theorem handleLine_outcome (free : c.Free) (h : Handling κ) : c.Outcome h (c.handleLine h) := by
  obtain ⟨line, code, rounds⟩ := h
  -- the rounds are added one by one, and a line that is answered takes no notice of more
  induction rounds using List.reverseRecOn with
  | nil =>
    rw [handleLine_dispatch]
    exact outcome_of_dispatch free line
  | append_singleton rounds round ih =>
    rw [handleLine_append c ⟨line, code, rounds⟩ [round]]
    generalize hx : c.handleLine ⟨line, code, rounds⟩ = x at ih
    cases ih with
    | answered answers hfree =>
      rw [await_answered]
      exact .answered (answers.append [round]) hfree
    | waiting waits =>
      rw [await_round]
      exact outcome_of_round waits hx round

end CommandConsole.Console
