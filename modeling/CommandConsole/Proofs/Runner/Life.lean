import Mathlib.Data.List.Forall2
import CommandConsole.Proofs.Attempts
import CommandConsole.Proofs.Runner.Calls

/-! The life of a runner: the runs that it takes on and those whose end it posts. -/
namespace CommandConsole

variable {κ α : Type}

/-- A script carried out to the end of its invocation closes the context that it leaves. -/
theorem Context.ensureResponse_carryOut (c : Context κ) (help : String) (s : Script κ α) :
    (c.carryOut help s).value.1.ensureResponse =
      (s.run help c).context.close (faultOf (s.run help c).result) := by
  cases h : (s.run help c).result with
  | ok a => simp only [carryOut_ok c help h, faultOf, close]
  | error f => simp only [carryOut_error c help h, faultOf, close]

/-- The response that the result of a worker comes to. A worker must not ask for a line. -/
def workerResponse (command : String) : Except Fault Response → Response
  | .error f => .fail (ErrorKind.runnerFault command f.chain).message
  | .ok response =>
    if response.isContinued then
      .fail (ErrorKind.runnerFault command
        (Fault.breach (.continuedWithoutCallback command)).chain).message
    else response

namespace Exchange

/-- The run that is taken on: the runner does not say that it is busy. -/
def accepted? (x : Exchange κ) : Option (Posted κ) :=
  match x.act.call with
  | .run c id => if .event (.runnerBusy c.invocation.command) ∈ x.notes then none else some ⟨id, c⟩
  | _ => none

/-- The runner is finished with a run, and empty. Its end, with this context, is posted. -/
structure Finishes (x : Exchange κ) (id : RunId) (d : Context κ) : Prop where
  finished : x.after.isFinished = true
  bare : x.after.Bare
  fired : x.fired = some ⟨id, d⟩

/-- The runner goes on with a run, and has this in flight. Nothing is posted. -/
structure GoesOn (x : Exchange κ) (id : RunId) (f : InFlight κ) : Prop where
  current : x.after.current? = some ⟨id, f.context⟩
  inFlight : x.after.inFlight = some f
  quiet : x.fired = none

/-- Code is resumed once in the context of a run: either the run goes on with the code and the context
that this one resumption leaves, or it ends with that context. -/
def Resumes (x : Exchange κ) (code : κ) (p : Posted κ) : Prop :=
  letI := x.act.code
  let o := (Code.resume code).run x.act.help p.context
  saidLines x.notes = o.said ∧
    ((∃ next, o.result = .ok (some next) ∧ x.GoesOn p.id (.stepping next o.context)) ∨
      ((∀ next, o.result ≠ .ok (some next)) ∧
        x.Finishes p.id (o.context.close (faultOf o.result))))

/-- A handler is called once in the context of a run, which ends with what that leaves. -/
def Calls (x : Exchange κ) (code : κ) (p : Posted κ) : Prop :=
  letI := x.act.code
  let o := (Code.body code).run x.act.help p.context
  saidLines x.notes = o.said ∧ x.Finishes p.id (o.context.close (faultOf o.result))

/-- A worker is called once for a run, and either has a job, or the run ends with its fault. -/
def Launches (x : Exchange κ) (code : κ) (p : Posted κ) : Prop :=
  letI := x.act.code
  let l := Code.launch code ⟨p.context.invocation.request, x.act.help⟩
  saidLines x.notes = l.said ∧
    match l.job with
    | .ok job => x.GoesOn p.id (.awaiting (.working job) p.context ⟨0⟩ false)
    | .error f => x.Finishes p.id (p.context.close (some f))

/-- The result of a worker, which may have been lost, is collected: the run ends, answered by the
result unless it has been answered before. -/
def Collects (x : Exchange κ) (result : Except Fault Response) (p : Posted κ) : Prop :=
  saidLines x.notes = [] ∧ ∃ d, x.Finishes p.id d ∧ p.context.Handled d ∧
    (p.context.invocation.response? = none →
      d.invocation.response? = some (workerResponse p.context.invocation.command result))

/-- A worker is waited for. Once it has been slow there is a warning, and only one. -/
def Waits (x : Exchange κ) (job : κ) (p : Posted κ) (elapsed : Duration) (warned : Bool) : Prop :=
  let slow := !warned && decide (x.before.slowAfter.nanoseconds ≤ elapsed.nanoseconds)
  x.GoesOn p.id (.awaiting (.working job) p.context elapsed (warned || slow)) ∧
    x.notes = if slow then [.event (.slowWorker p.context.invocation.command)] else []

/-- The rules that every exchange with a runner keeps to. -/
structure Lawful (x : Exchange κ) : Prop where
  /-- A run is taken on unless one is in progress. -/
  accepts : ∀ c id, x.act.call = .run c id →
    (x.accepted? = some ⟨id, c⟩ ↔ x.before.isInProgress = false)
  /-- A run that is not taken on changes nothing, and nobody hears of its end. -/
  ignores : ∀ c id, x.act.call = .run c id → x.accepted? = none →
    x.after = x.before ∧ x.fired = none
  /-- The end of a run is posted in the call that finishes the runner, and in no other. -/
  fires : x.fired.isSome = true ↔ x.after.isFinished = true ∧
    (x.before.isFinished = false ∨ x.accepted?.isSome = true)
  /-- A poll of a runner with nothing in progress does nothing. -/
  rests : x.act.call = .poll → x.before.isInProgress = false →
    x.after = x.before ∧ x.fired = none ∧ x.notes = []
  /-- A poll of a stepped run resumes its code once. -/
  resumes : ∀ code p, x.act.call = .poll → x.before.current? = some p →
    x.before.inFlight = some (.stepping code p.context) → x.Resumes code p
  /-- A poll of a run whose worker has ended, or has been lost, ends the run. -/
  collects : ∀ result p elapsed warned, x.act.call = .poll → x.before.current? = some p →
    x.before.inFlight = some (.awaiting (.ended result) p.context elapsed warned) →
    x.Collects result p
  /-- A poll of a run whose worker is still at work waits on. -/
  waits : ∀ job p elapsed warned, x.act.call = .poll → x.before.current? = some p →
    x.before.inFlight = some (.awaiting (.working job) p.context elapsed warned) →
    x.Waits job p elapsed warned
  /-- A stepped run makes its first step when it is taken on. -/
  starts : ∀ code p, x.accepted? = some p → x.before.execution = .stepped code → x.Resumes code p
  /-- A synchronous run is over when the call returns. -/
  finishes : ∀ code p, x.accepted? = some p → x.before.execution = .sync code → x.Calls code p
  launches : ∀ code p, x.accepted? = some p → x.before.execution = .worker code →
    x.Launches code p
  /-- A reset succeeds on a finished runner, which is idle after it with nothing left. -/
  resets : x.act.call = .reset → x.before.reset.1 = x.before.isFinished ∧ x.fired = none ∧
    (x.before.isFinished = true → x.after.state = .idle ∧ x.after.Bare ∧
      x.after.slowAfter = x.before.slowAfter) ∧
    (x.before.isFinished = false → x.after = x.before)
  /-- The handler stays the same. -/
  steady : x.after.execution = x.before.execution

end Exchange

namespace Runner

variable {r : Runner κ} {a : Act κ} {c : Context κ} {p : Posted κ} {id : RunId}

theorem accepted?_of_busy (ha : a.call = .run c id) (h : r.isInProgress = true) :
    (r.exchange a).accepted? = none := by
  simp [exchange, Exchange.accepted?, ha, perform, run, h]

theorem accepted?_of_free (ha : a.call = .run c id) (h : r.isInProgress = false) :
    (r.exchange a).accepted? = some ⟨id, c⟩ := by
  let := a.code
  have hnotes := runnerBusy_notMem_run h a.help c id c.invocation.command
  simp [exchange, Exchange.accepted?, ha, perform, hnotes]

theorem accepted?_of_not_run (ha : ∀ c id, a.call ≠ .run c id) :
    (r.exchange a).accepted? = none := by
  cases hc : a.call with
  | run c id => exact absurd hc (ha c id)
  | _ => simp [exchange, Exchange.accepted?, hc]

theorem accepted?_eq_some (h : (r.exchange a).accepted? = some p) :
    a.call = .run p.context p.id ∧ r.isInProgress = false := by
  have hc : ∃ d id, a.call = .run d id := by
    simp only [exchange, Exchange.accepted?] at h
    split at h
    · exact ⟨_, _, ‹_›⟩
    · cases h
  obtain ⟨d, id, hd⟩ := hc
  cases hr : r.isInProgress with
  | true => simp [accepted?_of_busy hd hr] at h
  | false =>
    rw [accepted?_of_free hd hr] at h
    injection h with h
    subst h
    exact ⟨hd, rfl⟩

/-! What a run comes to in one call -/

/-- The runner as it is while it works for a run. -/
structure WorksFor (r : Runner κ) (id : RunId) : Prop where
  state : r.state = .inProgress
  completion : r.completion = some id

theorem finish_finishes {x : Exchange κ} (h : r.WorksFor id)
    (hx : (x.after, x.fired) = r.finish c) : x.Finishes id c.ensureResponse := by
  simp only [finish, h.completion, Option.map_some, Prod.mk.injEq] at hx
  obtain ⟨hafter, hfired⟩ := hx
  exact ⟨by rw [hafter]; rfl, by rw [hafter]; exact ⟨rfl, rfl⟩, hfired⟩

theorem flight_goesOn {x : Exchange κ} (h : r.WorksFor id) {f : InFlight κ}
    (hx : (x.after, x.fired) = ({ r with inFlight := some f }, none)) : x.GoesOn id f := by
  rw [Prod.mk.injEq] at hx
  obtain ⟨hafter, hfired⟩ := hx
  refine ⟨?_, by rw [hafter], hfired⟩
  rw [hafter]
  exact current?_of_inFlight h.state rfl h.completion

theorem exchange_resumes {s : Runner κ} {code : κ} (h : s.WorksFor p.id)
    (hx : letI := a.code; r.perform a.help a.call = s.step a.help code p.context) :
    (r.exchange a).Resumes code p := by
  let := a.code
  have hvalue : ((r.exchange a).after, (r.exchange a).fired) =
      (s.step a.help code p.context).value := congrArg Reported.value hx
  constructor
  · simp only [exchange, hx, notes_step, Context.notes_carryOut, saidLines_append, saidLines_said,
      saidLines_faultNotes, List.append_nil]
    rfl
  · have hclose := p.context.ensureResponse_carryOut a.help (Code.resume code)
    simp only [step, Reported.value_bind] at hvalue
    rcases ho : ((Code.resume code).run a.help p.context).result with f | _ | next
    · rw [Context.carryOut_error _ _ ho] at hclose hvalue
      refine .inr ⟨fun next hn => ?_, ?_⟩
      · cases ho.symm.trans hn
      · rw [exchange, ← hclose]
        exact finish_finishes h hvalue
    · rw [Context.carryOut_ok _ _ ho] at hclose hvalue
      refine .inr ⟨fun next hn => ?_, ?_⟩
      · cases ho.symm.trans hn
      · rw [exchange, ← hclose]
        exact finish_finishes h hvalue
    · rw [Context.carryOut_ok _ _ ho] at hvalue
      exact .inl ⟨next, ho, flight_goesOn h hvalue⟩

theorem exchange_calls {s : Runner κ} {code : κ} (h : s.WorksFor p.id)
    (hx : letI := a.code; r.perform a.help a.call = (do
      let (c, _) ← p.context.carryOut a.help (Code.body code)
      pure (s.finish c))) :
    (r.exchange a).Calls code p := by
  let := a.code
  have hvalue : ((r.exchange a).after, (r.exchange a).fired) =
      s.finish (p.context.carryOut a.help (Code.body code)).value.1 := congrArg Reported.value hx
  constructor
  · simp only [exchange, hx, Reported.notes_bind, Reported.notes_pure, Context.notes_carryOut,
      saidLines_append, saidLines_said, saidLines_faultNotes, List.append_nil]
    rfl
  · have hclose := p.context.ensureResponse_carryOut a.help (Code.body code)
    rw [exchange, ← hclose]
    exact finish_finishes h hvalue

theorem exchange_launches {s : Runner κ} {code : κ} (h : s.WorksFor p.id)
    (hx : letI := a.code; r.perform a.help a.call = s.launch a.help code p.context) :
    (r.exchange a).Launches code p := by
  let := a.code
  have hvalue : ((r.exchange a).after, (r.exchange a).fired) =
      (s.launch a.help code p.context).value := congrArg Reported.value hx
  constructor
  · simp only [exchange, hx, notes_launch, saidLines_append, saidLines_said, saidLines_faultNotes,
      List.append_nil]
    rfl
  · simp only [launch, Reported.value_bind] at hvalue
    change match (Code.launch code ⟨p.context.invocation.request, a.help⟩).job with
      | .ok job => (r.exchange a).GoesOn p.id (.awaiting (.working job) p.context ⟨0⟩ false)
      | .error f => (r.exchange a).Finishes p.id (p.context.close (some f))
    cases hjob : (Code.launch code ⟨p.context.invocation.request, a.help⟩).job with
    | ok job =>
      simp only [hjob] at hvalue
      exact flight_goesOn h hvalue
    | error f =>
      simp only [hjob] at hvalue
      exact finish_finishes h hvalue

theorem value_collect (c : Context κ) (result : Except Fault Response)
    (h : c.invocation.response? = none) :
    (collect c result).value.ensureResponse.invocation.response? =
      some (workerResponse c.invocation.command result) := by
  cases result with
  | error f => exact (Context.close_of_unanswered h (some f)).1
  | ok response =>
    cases hr : response.isContinued with
    | true =>
      have hbreach : c.respond response =
          .error (.continuedWithoutCallback c.invocation.command) := by
        simp [Context.respond, hr]
      have hclosed := Context.close_of_unanswered h
        (some (.breach (.continuedWithoutCallback c.invocation.command)))
      simp only [collect, hbreach, workerResponse, hr, if_true]
      exact hclosed.1
    | false =>
      simp only [Invocation.response?] at h ⊢
      simp [collect, Context.respond, Context.settle, Context.ensureResponse, workerResponse, hr, h]

theorem exchange_collects {s : Runner κ} {result : Except Fault Response} (h : s.WorksFor p.id)
    (hx : letI := a.code; r.perform a.help a.call = (do
      let c ← collect p.context result
      pure (s.finish c))) :
    (r.exchange a).Collects result p := by
  let := a.code
  have hvalue : ((r.exchange a).after, (r.exchange a).fired) =
      s.finish (collect p.context result).value := congrArg Reported.value hx
  refine ⟨by simp [exchange, hx], _, finish_finishes h hvalue, ?_, value_collect p.context result⟩
  exact (collect_handled p.context result).trans (Context.ensureResponse_handled _)

/-- The end of a run is posted in the call that finishes its runner. -/
theorem exchange_fires (h : r.Coherent) (a : Act κ) :
    (r.exchange a).fired.isSome = true ↔ (r.exchange a).after.isFinished = true ∧
      (r.isFinished = false ∨ (r.exchange a).accepted?.isSome = true) := by
  have hp := exchange_performed h a
  generalize hcall : a.call = call at hp
  generalize hafter : (r.exchange a).after = after at hp ⊢
  generalize hfired : (r.exchange a).fired = fired at hp ⊢
  cases hp with
  | ignored busy =>
    have hn := not_isFinished_of_isInProgress busy
    simp [hn]
  | taken free outcome =>
    have hc := accepted?_of_free hcall free
    simp [hc, outcome.posted_iff]
  | advanced holds outcome =>
    have hn := not_isFinished_of_isInProgress (isInProgress_of_current? holds)
    simp [hn, outcome.posted_iff]
  | resting free =>
    have hc := accepted?_of_not_run (r := r) (a := a) (by simp [hcall])
    simp [hc]
  | emptied finished => simp [isFinished]
  | kept unfinished => simp [unfinished]
  | aside quiet beside =>
    have hc := accepted?_of_not_run (r := r) (a := a) (by simpa [hcall] using quiet)
    simp [hc, beside.isFinished_eq]

/-- Whatever is posted has been answered. -/
theorem exchange_responded (h : r.Coherent) (hp : (r.exchange a).fired = some p) :
    ∃ response, p.context.invocation.response? = some response := by
  have hresponded : ∀ q, Outcome q ((r.exchange a).after, (r.exchange a).fired) →
      p.context.invocation.hasResponded = true := by
    intro q hq
    rw [hp] at hq
    cases hq with
    | ended finished bare leads responded => exact responded
  have hperformed := exchange_performed h a
  rw [← Option.isSome_iff_exists]
  rw [hp] at hperformed hresponded
  generalize a.call = call at hperformed
  generalize (r.exchange a).after = after at hperformed hresponded
  cases hperformed with
  | taken free outcome => exact hresponded _ outcome
  | advanced holds outcome => exact hresponded _ outcome

theorem worksFor_of_current? (h : r.current? = some p) :
    ({ r with inFlight := none } : Runner κ).WorksFor p.id :=
  have hcurrent := current?_eq_some_iff.mp h
  ⟨hcurrent.1, hcurrent.2.1⟩

theorem exchange_lawful (h : r.Coherent) (a : Act κ) : (r.exchange a).Lawful where
  accepts := by
    intro c id (hc : a.call = .run c id)
    change (r.exchange a).accepted? = some ⟨id, c⟩ ↔ r.isInProgress = false
    cases hr : r.isInProgress with
    | true => simp [accepted?_of_busy hc hr]
    | false => simp [accepted?_of_free hc hr]
  ignores := by
    intro c id (hc : a.call = .run c id) hn
    cases hr : r.isInProgress with
    | true => simp [exchange, hc, perform, run, hr]
    | false =>
      rw [accepted?_of_free hc hr] at hn
      cases hn
  fires := exchange_fires h a
  rests := by
    intro (hc : a.call = .poll) (hr : r.isInProgress = false)
    let := a.code
    simp [exchange, hc, perform, poll_of_free hr]
  resumes := by
    intro code p (hc : a.call = .poll) (hp : r.current? = some p) (hf : r.inFlight = _)
    apply exchange_resumes (worksFor_of_current? hp)
    simp [hc, perform, poll, isInProgress_of_current? hp, hf]
  collects := by
    intro result p elapsed warned (hc : a.call = .poll) (hp : r.current? = some p)
      (hf : r.inFlight = _)
    apply exchange_collects (worksFor_of_current? hp)
    simp [hc, perform, poll, isInProgress_of_current? hp, hf]
  waits := by
    intro job p elapsed warned (hc : a.call = .poll) (hp : r.current? = some p)
      (hf : r.inFlight = _)
    let := a.code
    have hperform : r.perform a.help a.call = r.poll a.help := by rw [hc]; rfl
    simp only [poll, isInProgress_of_current? hp, hf, Bool.not_true, Bool.false_eq_true, if_false]
      at hperform
    simp only [Exchange.Waits, exchange, hperform]
    cases warned with
    | true => exact ⟨flight_goesOn (worksFor_of_current? hp) rfl, rfl⟩
    | false =>
      by_cases hslow : r.slowAfter.nanoseconds ≤ elapsed.nanoseconds
      · simp only [hslow, decide_true]
        exact ⟨flight_goesOn (worksFor_of_current? hp) rfl, rfl⟩
      · simp only [hslow, decide_false]
        exact ⟨flight_goesOn (worksFor_of_current? hp) rfl, rfl⟩
  starts := by
    intro code p hp (he : r.execution = .stepped code)
    obtain ⟨hcall, hr⟩ := accepted?_eq_some hp
    apply exchange_resumes (s := { r with state := .inProgress, completion := some p.id }) ⟨rfl, rfl⟩
    simp [hcall, perform, run, hr, he]
  finishes := by
    intro code p hp (he : r.execution = .sync code)
    obtain ⟨hcall, hr⟩ := accepted?_eq_some hp
    apply exchange_calls (s := { r with state := .inProgress, completion := some p.id }) ⟨rfl, rfl⟩
    simp [hcall, perform, run, hr, he]
  launches := by
    intro code p hp (he : r.execution = .worker code)
    obtain ⟨hcall, hr⟩ := accepted?_eq_some hp
    apply exchange_launches (s := { r with state := .inProgress, completion := some p.id }) ⟨rfl, rfl⟩
    simp [hcall, perform, run, hr, he]
  resets := by
    intro (hc : a.call = .reset)
    simp only [exchange, hc, perform, reset]
    cases hr : r.isFinished with
    | true => exact ⟨rfl, rfl, fun _ => ⟨rfl, ⟨rfl, rfl⟩, rfl⟩, by simp⟩
    | false => simp
  steady := exchange_steady r a

theorem exchanges_lawful (h : r.Coherent) (acts : List (Act κ)) :
    ∀ x ∈ r.exchanges acts, x.Lawful := by
  induction acts generalizing r with
  | nil => exact fun x hx => nomatch hx
  | cons a acts ih =>
    intro x hx
    rcases List.mem_cons.mp hx with rfl | hx
    · exact exchange_lawful h a
    · exact ih (exchange_coherent h a) x hx

/-! What is taken on and what is posted -/

/-- The end of a run: its own context with an answer, under its own number. -/
def Ends (p q : Posted κ) : Prop := p.Leads q ∧ q.context.invocation.hasResponded = true

/-- The runs that a runner was given and those that it has posted: all but the one in progress, in the
order in which they came. -/
inductive Ledger (r : Runner κ) : List (Posted κ) → List (Posted κ) → Prop where
  | free {taken handed : List (Posted κ)} (free : r.isInProgress = false)
      (settled : List.Forall₂ Ends taken handed) : Ledger r taken handed
  | busy {taken handed : List (Posted κ)} {p q : Posted κ} (holds : r.current? = some q)
      (leads : p.Leads q) (settled : List.Forall₂ Ends taken handed) :
      Ledger r (taken ++ [p]) handed

namespace Ledger

variable {s : Runner κ} {q : Posted κ} {taken handed : List (Posted κ)}

theorem of_free (h : Ledger r taken handed) (hr : r.isInProgress = false) :
    List.Forall₂ Ends taken handed := by
  cases h with
  | free _ settled => exact settled
  | busy holds _ _ => simp [isInProgress_of_current? holds] at hr

/-- What becomes of a run that was taken on after all others were posted. -/
theorem outcome {x : Runner κ × Option (Posted κ)}
    (settled : List.Forall₂ Ends taken handed) (hq : p.Leads q) (h : Outcome q x) :
    Ledger x.1 (taken ++ [p]) (handed ++ x.2.toList) := by
  cases h with
  | held holds leads =>
    rw [Option.toList_none, List.append_nil]
    exact .busy holds (hq.trans leads) settled
  | ended finished bare leads responded =>
    refine .free (not_isInProgress_of_isFinished finished) ?_
    exact List.rel_append settled (.cons ⟨hq.trans leads, responded⟩ .nil)

/-- Whatever leaves the run in progress leaves the ledger. -/
theorem aside (h : Ledger r taken handed) (hs : Aside r s) : Ledger s taken handed := by
  cases h with
  | free free settled => exact .free (hs.isInProgress_eq.trans free) settled
  | busy holds leads settled => exact .busy (hs.current?_eq.trans holds) leads settled

theorem exchange (hr : r.Coherent) (h : Ledger r taken handed) (a : Act κ) :
    Ledger (r.exchange a).after (taken ++ (r.exchange a).accepted?.toList)
      (handed ++ (r.exchange a).fired.toList) := by
  have hp := exchange_performed hr a
  generalize hcall : a.call = call at hp
  generalize hafter : (r.exchange a).after = after at hp ⊢
  generalize hfired : (r.exchange a).fired = fired at hp ⊢
  have hnone : (∀ c id, call ≠ .run c id) → (r.exchange a).accepted? = none := by
    intro hquiet
    exact accepted?_of_not_run (hcall ▸ hquiet)
  cases hp with
  | ignored busy => simpa [accepted?_of_busy hcall busy] using h
  | taken free outcome =>
    rw [accepted?_of_free hcall free]
    exact .outcome (h.of_free free) (.refl _) outcome
  | advanced holds outcome =>
    rw [hnone (by simp), Option.toList_none, List.append_nil]
    cases h with
    | free free _ => simp [isInProgress_of_current? holds] at free
    | busy held leads settled =>
      rw [holds] at held
      injection held with held
      subst held
      exact .outcome settled leads outcome
  | resting free => simpa [hnone] using h
  | emptied finished =>
    have hs := h.of_free (not_isInProgress_of_isFinished finished)
    simpa [hnone] using .free rfl hs
  | kept unfinished => simpa [hnone] using h
  | aside quiet beside => simpa [hnone quiet] using h.aside beside

end Ledger

/-- The runs that are taken on, in order. -/
def takenOn (xs : List (Exchange κ)) : List (Posted κ) := xs.filterMap (·.accepted?)

/-- The ends that are posted, in order. -/
def handedOver (xs : List (Exchange κ)) : List (Posted κ) := xs.filterMap (·.fired)

@[simp] theorem takenOn_cons (x : Exchange κ) (xs : List (Exchange κ)) :
    takenOn (x :: xs) = x.accepted?.toList ++ takenOn xs := by
  cases h : x.accepted? <;> simp [takenOn, h]

@[simp] theorem handedOver_cons (x : Exchange κ) (xs : List (Exchange κ)) :
    handedOver (x :: xs) = x.fired.toList ++ handedOver xs := by
  cases h : x.fired <;> simp [handedOver, h]

theorem ledger_after {taken handed : List (Posted κ)} (hr : r.Coherent)
    (h : Ledger r taken handed) (acts : List (Act κ)) :
    Ledger (r.after acts) (taken ++ takenOn (r.exchanges acts))
      (handed ++ handedOver (r.exchanges acts)) := by
  induction acts generalizing r taken handed with
  | nil => simpa [after, exchanges, takenOn, handedOver] using h
  | cons a acts ih =>
    have hrest := ih (exchange_coherent hr a) (h.exchange hr a)
    simpa [after, exchanges] using hrest

/-- Whatever is asked of a runner, call after call: something is in flight, and someone waits for the
end of it, exactly while a run is in progress. The end of every run taken on but the one in progress
has been posted once, in order, under the number of that very run and as its context with an answer in
it. Each call keeps to the rules. -/
theorem runner_keeps_rules (execution : Execution κ) (slowAfter : Duration) (acts : List (Act κ)) :
    let fresh : Runner κ := { create execution with slowAfter }
    let r := fresh.after acts
    let xs := fresh.exchanges acts
    (r.inFlight.isSome = true ↔ r.isInProgress = true) ∧
    (r.completion.isSome = true ↔ r.isInProgress = true) ∧
    (∃ ended, List.Forall₂ Ends ended (handedOver xs) ∧
      ((r.isInProgress = false ∧ takenOn xs = ended) ∨
        ∃ p q, r.current? = some q ∧ p.Leads q ∧ takenOn xs = ended ++ [p])) ∧
    ∀ x ∈ xs, x.Lawful := by
  intro fresh r xs
  have hfresh : fresh.Coherent := ⟨rfl, rfl⟩
  have hcoherent := after_coherent hfresh acts
  refine ⟨by rw [hcoherent.inFlight], by rw [hcoherent.completion], ?_,
    exchanges_lawful hfresh acts⟩
  have h := ledger_after hfresh (.free rfl .nil) acts
  rw [List.nil_append, List.nil_append] at h
  generalize takenOn (fresh.exchanges acts) = taken at h ⊢
  cases h with
  | free free settled => exact ⟨_, settled, .inl ⟨free, rfl⟩⟩
  | busy holds leads settled => exact ⟨_, settled, .inr ⟨_, _, holds, leads, rfl⟩⟩

end Runner
end CommandConsole
