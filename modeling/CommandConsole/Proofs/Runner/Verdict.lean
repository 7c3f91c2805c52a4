import CommandConsole.Proofs.Runner.Life

/-! What the calls of one invocation come to: all its attempts to answer, and the one that counts. -/
namespace CommandConsole

variable {κ α : Type}

namespace Runner

variable {r : Runner κ} {c d : Context κ} {p q : Posted κ} {a first : Act κ} {help : String}
  {w : Stretch κ} {id : RunId}

/-- What the result of a worker comes to: an attempt to answer with it, or a fault. -/
def collected (c : Context κ) : Except Fault Response → Stretch κ
  | .error f => ⟨[], some f⟩
  | .ok response =>
    ⟨[⟨c, .answer response⟩],
      match c.respond response with
      | .ok _ => none
      | .error b => some (.breach b)⟩

/-- The stretch of an invocation that a call comes to. -/
def stretch [Code κ] (r : Runner κ) (help : String) : Call κ → Stretch κ
  | .run c _ =>
    if r.isInProgress then .nothing
    else
      match r.execution with
      | .sync code => (Code.body code).stretch help c
      | .stepped code => (Code.resume code).stretch help c
      | .worker code => ⟨[], faultOf (Code.launch code ⟨c.invocation.request, help⟩).job⟩
  | .poll =>
    if r.isInProgress then
      match r.inFlight with
      | some (.stepping code c) => (Code.resume code).stretch help c
      | some (.awaiting (.ended result) c _ _) => collected c result
      | _ => .nothing
    else .nothing
  | _ => .nothing

/-- An invocation brought on by a stretch: the runner holds on to the context that the attempts
leave, or posts it at the end, after a fault perhaps. -/
inductive Advances (c : Context κ) (w : Stretch κ) : Runner κ × Option (Posted κ) → Prop where
  | held {r : Runner κ} {d : Context κ} (holds : r.context? = some d)
      (tries : Tries c w.attempts d) (sound : w.fault = none) : Advances c w (r, none)
  | ended {r : Runner κ} {d : Context κ} {id : RunId} (tries : Tries c w.attempts d) :
      Advances c w (r, some ⟨id, d.close w.fault⟩)

theorem Advances.of_finish (h : r.WorksFor id) {b : Context κ} (tries : Tries c w.attempts b)
    (hd : d.ensureResponse = b.close w.fault) : Advances c w (r.finish d) := by
  simp only [finish, h.completion, Option.map_some, hd]
  exact .ended tries

theorem Advances.of_flight (h : r.WorksFor id) {f : InFlight κ} (hf : r.inFlight = some f)
    (tries : Tries c w.attempts f.context) (sound : w.fault = none) : Advances c w (r, none) :=
  .held (context?_of_current? (current?_of_inFlight h.state hf h.completion)) tries sound

theorem collect_advances (h : r.WorksFor id) (c : Context κ) (result : Except Fault Response) :
    Advances c (collected c result) (r.finish (collect c result).value) := by
  cases result with
  | error f => exact .of_finish h (.nil c) rfl
  | ok response =>
    refine .of_finish h (.cons ⟨c, .answer response⟩ (.nil _)) ?_
    cases hr : c.respond response <;>
      simp [collect, collected, hr, Attempt.after, Attempt.outcome, Context.close]

section Code

variable [Code κ]

theorem step_advances (h : r.WorksFor id) (help : String) (code : κ) (c : Context κ) :
    Advances c ((Code.resume code).stretch help c) (r.step help code c).value := by
  have htries := (Code.resume code).run_tries help c
  have hclose := c.ensureResponse_carryOut help (Code.resume code)
  simp only [step, Reported.value_bind]
  cases ho : ((Code.resume code).run help c).result with
  | error f =>
    rw [Context.carryOut_error c help ho] at hclose ⊢
    exact .of_finish h htries hclose
  | ok next =>
    rw [Context.carryOut_ok c help ho] at hclose ⊢
    cases next with
    | none => exact .of_finish h htries hclose
    | some next =>
      exact .of_flight ⟨h.state, h.completion⟩ rfl htries (by simp [Script.stretch, ho, faultOf])

theorem launch_advances (h : r.WorksFor id) (help : String) (code : κ) (c : Context κ) :
    Advances c ⟨[], faultOf (Code.launch code ⟨c.invocation.request, help⟩).job⟩
      (r.launch help code c).value := by
  simp only [launch, Reported.value_bind]
  split <;> rename_i hjob <;> rw [hjob]
  · exact .of_flight ⟨h.state, h.completion⟩ rfl (.nil c) rfl
  · exact .of_finish h (.nil c) rfl

theorem run_advances (h : r.isInProgress = false) (help : String) (c : Context κ) (id : RunId) :
    Advances c (r.stretch help (.run c id)) (r.run help c id).value := by
  simp only [run, stretch, h]
  cases r.execution with
  | sync code =>
    exact .of_finish ⟨rfl, rfl⟩ ((Code.body code).run_tries help c)
      (c.ensureResponse_carryOut help (Code.body code))
  | stepped code => exact step_advances ⟨rfl, rfl⟩ help code c
  | worker code => exact launch_advances ⟨rfl, rfl⟩ help code c

theorem poll_advances (h : r.context? = some c) (help : String) :
    Advances c (r.stretch help .poll) (r.poll help).value := by
  obtain ⟨p, hp, rfl⟩ := context?_eq_some_iff.mp h
  have hworks := worksFor_of_current? hp
  obtain ⟨-, -, f, hflight, hcontext⟩ := current?_eq_some_iff.mp hp
  simp only [poll, stretch, isInProgress_of_current? hp, hflight, ← hcontext]
  cases f with
  | stepping code c => exact step_advances hworks help code c
  | awaiting job c elapsed warned =>
    cases job with
    | ended result => exact collect_advances hworks c result
    | working code =>
      simp only [Bool.not_true, Bool.false_eq_true, if_false, if_true]
      split <;> exact .of_flight ⟨hworks.state, hworks.completion⟩ rfl (.nil c) rfl

end Code

/-! Many calls -/

/-- The stretch of the invocation in hand that a call comes to. -/
def stretchOf (r : Runner κ) (a : Act κ) : Stretch κ :=
  letI := a.code
  r.stretch a.help a.call

/-- All that some calls come to, one after another. -/
def account (r : Runner κ) : List (Act κ) → Stretch κ
  | [] => .nothing
  | a :: acts => (r.stretchOf a).andThen ((r.exchange a).after.account acts)

theorem account_append (r : Runner κ) (acts more : List (Act κ)) :
    r.account (acts ++ more) = (r.account acts).andThen ((r.after acts).account more) := by
  induction acts generalizing r with
  | nil => simp [account, after]
  | cons a acts ih => simp only [List.cons_append, account, after, ih, Stretch.andThen_assoc]

theorem exchange_advances (h : r.context? = some c) (a : Act κ) :
    Advances c (r.stretchOf a) ((r.exchange a).after, (r.exchange a).fired) := by
  let := a.code
  have hprogress := isInProgress_of_context? h
  have hfinished := not_isFinished_of_context? h
  have haside : ∀ {s}, Aside r s → Advances c .nothing (s, none) := by
    intro s hs
    exact .held (hs.context?_eq.trans h) (.nil c) rfl
  simp only [exchange, stretchOf]
  cases a.call with
  | poll => exact poll_advances h a.help
  | run c' id =>
    simp only [stretch, perform, run, hprogress, if_true]
    exact haside .same
  | reset =>
    simp only [stretch, perform, reset, hfinished]
    exact haside .same
  | elapse t => exact haside (r.elapse_aside t)
  | work opened => exact haside (r.work_aside a.help opened)
  | workerEnds result => exact haside (r.workerEnds_aside result)

theorem first_advances (free : r.isInProgress = false) (hrun : first.call = .run c id) :
    Advances c (r.stretchOf first) ((r.exchange first).after, (r.exchange first).fired) := by
  let := first.code
  simp only [exchange, stretchOf, hrun]
  exact run_advances free first.help c id

/-- As long as nothing is handed over, the runner holds on to what the attempts leave. -/
theorem account_held (h : r.context? = some c) (acts : List (Act κ))
    (quiet : handedOver (r.exchanges acts) = []) :
    ∃ d, (r.after acts).context? = some d ∧ Tries c (r.account acts).attempts d ∧
      (r.account acts).fault = none := by
  induction acts generalizing r c with
  | nil => exact ⟨c, h, .nil c, rfl⟩
  | cons a acts ih =>
    simp only [exchanges, handedOver_cons, List.append_eq_nil_iff, Option.toList_eq_nil_iff]
      at quiet
    have ha := exchange_advances h a
    rw [quiet.1] at ha
    cases ha with
    | held holds tries sound =>
      obtain ⟨d, hd, htries, hsound⟩ := ih holds quiet.2
      exact ⟨d, hd, tries.append htries, by simp [account, Stretch.andThen, sound, hsound]⟩

/-- An invocation that is over in its first call. -/
theorem answered_at_once (free : r.isInProgress = false) (hrun : first.call = .run c id)
    (unanswered : c.invocation.response? = none) (hfired : (r.exchange first).fired = some p) :
    Answered c (r.account [first]) p.context := by
  have hfirst := first_advances free hrun
  rw [hfired] at hfirst
  simp only [account, Stretch.andThen_nothing]
  cases hfirst with
  | ended tries => exact tries.answered unanswered

/-- An invocation that is over in a later call. -/
theorem answered_later (free : r.isInProgress = false) (hrun : first.call = .run c id)
    (unanswered : c.invocation.response? = none) {rest : List (Act κ)}
    (quiet : handedOver (r.exchanges (first :: rest)) = [])
    (hfired : ((r.after (first :: rest)).exchange a).fired = some p) :
    Answered c (r.account (first :: rest ++ [a])) p.context := by
  simp only [exchanges, handedOver_cons, List.append_eq_nil_iff, Option.toList_eq_nil_iff]
    at quiet
  have hfirst := first_advances free hrun
  rw [quiet.1] at hfirst
  cases hfirst with
  | held holds tries sound =>
    obtain ⟨b, hb, htries, hsound⟩ := account_held holds rest quiet.2
    have hlast := exchange_advances hb a
    rw [after] at hfired
    rw [hfired] at hlast
    rw [account_append]
    cases hlast with
    | ended last =>
      have hall := (tries.append htries).append last
      have hfault : ((r.account (first :: rest)).andThen
          ((r.after (first :: rest)).account [a])).fault =
          (((r.exchange first).after.after rest).stretchOf a).fault := by
        simp [account, after, Stretch.andThen, sound, hsound, Stretch.nothing]
      rw [← hfault]
      apply Tries.answered ?_ unanswered
      simpa [account, after, Stretch.andThen, Stretch.nothing] using hall

/-! Workers -/

/-- A runner that has no code to resume. -/
def Unstepped (r : Runner κ) : Prop := ∀ code c, r.inFlight ≠ some (.stepping code c)

theorem unstepped_finish (r : Runner κ) (c : Context κ) : (r.finish c).1.Unstepped := by
  simp [Unstepped, finish]

theorem unstepped_launch [Code κ] (r : Runner κ) (help : String) (code : κ) (c : Context κ) :
    (r.launch help code c).value.1.Unstepped := by
  simp only [launch, Reported.value_bind]
  split
  · simp [Unstepped]
  · exact unstepped_finish r _

theorem Aside.unstepped {s : Runner κ} (h : Aside r s) (hr : r.Unstepped) : s.Unstepped := by
  cases h with
  | same => exact hr
  | worked before => simp [Unstepped]

theorem unstepped_perform [Code κ] {code : κ} (hw : r.execution = .worker code)
    (hr : r.Unstepped) (help : String) (call : Call κ) :
    (r.perform help call).value.1.Unstepped := by
  cases call with
  | run c id =>
    simp only [perform, run, hw]
    split
    · exact hr
    · exact unstepped_launch _ help code c
  | poll =>
    simp only [perform, poll]
    split
    · exact hr
    · split
      · simp [Unstepped]
      · rename_i k c hflight
        exact absurd hflight (hr k c)
      · exact unstepped_finish _ _
      · split <;> simp [Unstepped]
  | reset =>
    simp only [perform, reset]
    split
    · simp [Unstepped]
    · exact hr
  | elapse d => exact (r.elapse_aside d).unstepped hr
  | work opened => exact (r.work_aside help opened).unstepped hr
  | workerEnds result => exact (r.workerEnds_aside result).unstepped hr

/-- The runner of a worker answers with its result, and never asks for a line. -/
theorem stretchOf_plain {code : κ} (hw : r.execution = .worker code) (hr : r.Unstepped)
    (a : Act κ) : (r.stretchOf a).Plain := by
  intro x hx
  simp only [stretchOf, stretch] at hx
  cases hcall : a.call with
  | run c id =>
    simp only [hcall, hw] at hx
    split at hx <;> cases hx
  | poll =>
    simp only [hcall] at hx
    split at hx
    · split at hx
      · rename_i k c hflight
        exact absurd hflight (hr k c)
      · rename_i result c elapsed warned hflight
        cases result with
        | error f => cases hx
        | ok response =>
          obtain rfl := List.mem_singleton.mp hx
          exact ⟨response, rfl⟩
      · cases hx
    · cases hx
  | _ =>
    simp only [hcall] at hx
    cases hx

theorem account_plain {code : κ} (hw : r.execution = .worker code) (hr : r.Unstepped)
    (acts : List (Act κ)) : (r.account acts).Plain := by
  induction acts generalizing r with
  | nil => exact fun x hx => nomatch hx
  | cons a acts ih =>
    let := a.code
    have hsteady : (r.exchange a).after.execution = .worker code :=
      (r.exchange_steady a).trans hw
    have hrest := ih hsteady (unstepped_perform hw hr a.help a.call)
    intro x hx
    rcases List.mem_append.mp hx with hx | hx
    · exact stretchOf_plain hw hr a x hx
    · exact hrest x hx

end Runner
end CommandConsole
