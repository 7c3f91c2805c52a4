import CommandConsole.Proofs.Running

/-! Calls to a runner, one after another, and what each can come to. -/
namespace CommandConsole

variable {κ : Type}

/-- What may be asked of a runner, and what may happen to its worker in between. -/
inductive Call (κ : Type) where
  /-- The end of the run is to be posted under the number. -/
  | run (context : Context κ) (id : RunId)
  | poll
  | reset
  | elapse (d : Duration)
  | work (opened : List String)
  | workerEnds (result : Except Fault Response)

/-- One call, with the help text and the behaviour of handlers while it lasts. -/
structure Act (κ : Type) where
  call : Call κ
  help : String
  code : Code κ

/-- One call seen from outside: the runner before it and after it, what is posted to whoever waits for
the end of the run, and what is reported. -/
structure Exchange (κ : Type) where
  before : Runner κ
  act : Act κ
  after : Runner κ
  fired : Option (Posted κ)
  notes : List Note

/-- What handlers said, apart from events. -/
def saidLines (notes : List Note) : List String :=
  notes.filterMap fun
    | .said text => some text
    | _ => none

/-- What is reported of the end of a stretch of code. -/
def faultNotes {α : Type} (command : String) : Except Fault α → List Note
  | .ok _ => []
  | .error f => [.event (.handlerFailed command f.message)]

@[simp] theorem saidLines_append (xs ys : List Note) :
    saidLines (xs ++ ys) = saidLines xs ++ saidLines ys := by
  simp [saidLines]

@[simp] theorem saidLines_said (texts : List String) : saidLines (texts.map .said) = texts := by
  induction texts with
  | nil => rfl
  | cons text rest ih => exact congrArg (text :: ·) ih

@[simp] theorem saidLines_faultNotes {α : Type} (command : String) (result : Except Fault α) :
    saidLines (faultNotes command result) = [] := by
  cases result <;> rfl

@[simp] theorem runnerBusy_notMem_faultNotes {α : Type} (command other : String)
    (result : Except Fault α) : .event (.runnerBusy other) ∉ faultNotes command result := by
  cases result <;> simp [faultNotes]

namespace Context

variable {α : Type} (c : Context κ) (help : String)

@[simp] theorem notes_fault (f : Fault) :
    (c.fault f).notes = [.event (.handlerFailed c.invocation.command f.message)] := by
  simp only [fault, Reported.notes_bind, Reported.notes_event]
  split <;> rfl

/-- A script reports what it says, and its fault if it ends with one. -/
theorem notes_carryOut (s : Script κ α) :
    let o := s.run help c
    (c.carryOut help s).notes =
      o.said.map .said ++ faultNotes o.context.invocation.command o.result := by
  simp only [carryOut, Reported.notes_bind]
  split <;> rename_i hr <;> simp [hr, faultNotes]

theorem carryOut_ok {s : Script κ α} {a : α} (h : (s.run help c).result = .ok a) :
    (c.carryOut help s).value = ((s.run help c).context, some a) := by
  simp only [carryOut, Reported.value_bind]
  rw [h]
  rfl

theorem carryOut_error {s : Script κ α} {f : Fault} (h : (s.run help c).result = .error f) :
    (c.carryOut help s).value = (((s.run help c).context.fault f).value, none) := by
  simp only [carryOut, Reported.value_bind]
  rw [h]
  rfl

end Context

namespace Runner

variable {r : Runner κ} {c : Context κ} {p : Posted κ} {help : String} {id : RunId}

/-- Between calls a runner has something in flight, and someone who waits for the end of it, exactly
while it is in progress. -/
structure Coherent (r : Runner κ) : Prop where
  inFlight : r.inFlight.isSome = r.isInProgress
  completion : r.completion.isSome = r.isInProgress

theorem coherent_of_current? (h : r.current? = some p) : r.Coherent := by
  have hprogress := isInProgress_of_current? h
  obtain ⟨-, hcompletion, f, hflight, -⟩ := current?_eq_some_iff.mp h
  exact ⟨by rw [hflight, hprogress]; rfl, by rw [hcompletion, hprogress]; rfl⟩

theorem coherent_of_bare (h : r.isInProgress = false) (bare : r.Bare) : r.Coherent :=
  ⟨by rw [bare.still, h]; rfl, by rw [bare.unheard, h]; rfl⟩

namespace Coherent

theorem exists_current (h : r.Coherent) (hr : r.isInProgress = true) :
    ∃ p, r.current? = some p := by
  obtain ⟨f, hf⟩ := Option.isSome_iff_exists.mp (h.inFlight.trans hr)
  obtain ⟨id, hid⟩ := Option.isSome_iff_exists.mp (h.completion.trans hr)
  exact ⟨_, current?_of_inFlight (isInProgress_iff.mp hr) hf hid⟩

theorem aside {s : Runner κ} (h : r.Coherent) (hs : Aside r s) : s.Coherent :=
  ⟨by rw [hs.inFlight_isSome_eq, hs.isInProgress_eq, h.inFlight],
    by rw [hs.completion_eq, hs.isInProgress_eq, h.completion]⟩

end Coherent

theorem Outcome.coherent {x : Runner κ × Option (Posted κ)} (h : Outcome p x) : x.1.Coherent := by
  cases h with
  | held holds leads => exact coherent_of_current? holds
  | ended finished bare leads responded =>
    exact coherent_of_bare (not_isInProgress_of_isFinished finished) bare

@[simp] theorem execution_elapse (r : Runner κ) (d : Duration) :
    (r.elapse d).execution = r.execution := (r.elapse_aside d).execution_eq

@[simp] theorem execution_workerEnds (r : Runner κ) (result : Except Fault Response) :
    (r.workerEnds result).execution = r.execution := (r.workerEnds_aside result).execution_eq

@[simp] theorem execution_reset (r : Runner κ) : r.reset.2.execution = r.execution := by
  simp only [reset]
  split <;> rfl

@[simp] theorem saidLines_collect (c : Context κ) (result : Except Fault Response) :
    saidLines (collect c result).notes = [] := by
  simp only [collect]
  split
  · simp [saidLines]
  · split <;> simp [saidLines]

section Code

variable [Code κ]

theorem poll_of_free (h : r.isInProgress = false) (help : String) :
    r.poll help = pure (r, none) := by
  simp only [poll, h]
  rfl

@[simp] theorem execution_work (r : Runner κ) (help : String) (opened : List String) :
    (r.work help opened).execution = r.execution := (r.work_aside help opened).execution_eq

@[simp] theorem execution_step (r : Runner κ) (help : String) (code : κ) (c : Context κ) :
    (r.step help code c).value.1.execution = r.execution := by
  simp only [step, Reported.value_bind]
  split <;> rfl

@[simp] theorem execution_launch (r : Runner κ) (help : String) (code : κ) (c : Context κ) :
    (r.launch help code c).value.1.execution = r.execution := by
  simp only [launch, Reported.value_bind]
  split <;> rfl

/-- A runner carries out one handler all its life. -/
@[simp] theorem execution_run (r : Runner κ) (help : String) (c : Context κ) (id : RunId) :
    (r.run help c id).value.1.execution = r.execution := by
  simp only [run]
  split
  · rfl
  · split
    · rfl
    · exact execution_step _ help _ c
    · exact execution_launch _ help _ c

@[simp] theorem execution_poll (r : Runner κ) (help : String) :
    (r.poll help).value.1.execution = r.execution := by
  simp only [poll]
  split
  · rfl
  · split
    · rfl
    · exact execution_step _ help _ _
    · rfl
    · split <;> rfl

theorem notes_step (r : Runner κ) (help : String) (code : κ) (c : Context κ) :
    (r.step help code c).notes = (c.carryOut help (Code.resume code)).notes := by
  simp only [step, Reported.notes_bind]
  split <;> simp

theorem notes_launch (r : Runner κ) (help : String) (code : κ) (c : Context κ) :
    let l := Code.launch code ⟨c.invocation.request, help⟩
    (r.launch help code c).notes = l.said.map .said ++ faultNotes c.invocation.command l.job := by
  simp only [launch, Reported.notes_bind]
  split <;> rename_i hl <;> simp [hl, faultNotes]

/-- A free runner does not say that it is busy. -/
theorem runnerBusy_notMem_run (h : r.isInProgress = false) (help : String) (c : Context κ)
    (id : RunId) (command : String) :
    .event (.runnerBusy command) ∉ (r.run help c id).notes := by
  simp only [run, h]
  cases r.execution with
  | sync code => simp [Context.notes_carryOut]
  | stepped code => simp [notes_step, Context.notes_carryOut]
  | worker code => simp [notes_launch]

/-! Calls and what comes back -/

/-- What a call does to a runner, and what it posts. -/
def perform (r : Runner κ) (help : String) : Call κ → Reported (Runner κ × Option (Posted κ))
  | .run c id => r.run help c id
  | .poll => r.poll help
  | .reset => pure (r.reset.2, none)
  | .elapse d => pure (r.elapse d, none)
  | .work opened => pure (r.work help opened, none)
  | .workerEnds result => pure (r.workerEnds result, none)

@[simp] theorem execution_perform (r : Runner κ) (help : String) (call : Call κ) :
    (r.perform help call).value.1.execution = r.execution := by
  cases call <;> simp [perform]

end Code

/-- What a call can come to. -/
inductive Performed (r : Runner κ) : Call κ → Runner κ × Option (Posted κ) → Prop where
  | ignored {c : Context κ} {id : RunId} (busy : r.isInProgress = true) :
      Performed r (.run c id) (r, none)
  | taken {c : Context κ} {id : RunId} {x : Runner κ × Option (Posted κ)}
      (free : r.isInProgress = false) (outcome : Outcome ⟨id, c⟩ x) : Performed r (.run c id) x
  | advanced {p : Posted κ} {x : Runner κ × Option (Posted κ)} (holds : r.current? = some p)
      (outcome : Outcome p x) : Performed r .poll x
  | resting (free : r.isInProgress = false) : Performed r .poll (r, none)
  | emptied (finished : r.isFinished = true) :
      Performed r .reset ({ r with state := .idle, inFlight := none, completion := none }, none)
  | kept (unfinished : r.isFinished = false) : Performed r .reset (r, none)
  /-- Time passes, or a worker goes on. -/
  | aside {call : Call κ} {s : Runner κ} (quiet : ∀ c id, call ≠ .run c id) (beside : Aside r s) :
      Performed r call (s, none)

theorem perform_performed [Code κ] (h : r.Coherent) (help : String) (call : Call κ) :
    Performed r call (r.perform help call).value := by
  cases call with
  | run c id =>
    cases hr : r.isInProgress with
    | true => simpa [perform, run, hr] using .ignored hr
    | false => exact .taken hr (run_outcome hr help c id)
  | poll =>
    cases hr : r.isInProgress with
    | true =>
      obtain ⟨p, hp⟩ := h.exists_current hr
      exact .advanced hp (poll_outcome hp help)
    | false =>
      rw [perform, poll_of_free hr]
      exact .resting hr
  | reset =>
    simp only [perform, reset]
    split <;> rename_i hr
    · exact .emptied hr
    · exact .kept (by simpa using hr)
  | elapse d => exact .aside (by simp) (r.elapse_aside d)
  | work opened => exact .aside (by simp) (r.work_aside help opened)
  | workerEnds result => exact .aside (by simp) (r.workerEnds_aside result)

/-- One step: whatever is called, a coherent runner stays coherent. -/
theorem Performed.coherent {call : Call κ} {x : Runner κ × Option (Posted κ)}
    (hp : Performed r call x) (h : r.Coherent) : x.1.Coherent := by
  cases hp with
  | ignored busy => exact h
  | taken free outcome => exact outcome.coherent
  | advanced holds outcome => exact outcome.coherent
  | resting free => exact h
  | emptied finished => exact coherent_of_bare rfl ⟨rfl, rfl⟩
  | kept unfinished => exact h
  | aside quiet beside => exact h.aside beside

/-- The exchange of one call. -/
def exchange (r : Runner κ) (a : Act κ) : Exchange κ :=
  letI := a.code
  let x := r.perform a.help a.call
  ⟨r, a, x.value.1, x.value.2, x.notes⟩

theorem exchange_performed (h : r.Coherent) (a : Act κ) :
    Performed r a.call ((r.exchange a).after, (r.exchange a).fired) :=
  letI := a.code
  perform_performed h a.help a.call

theorem exchange_coherent (h : r.Coherent) (a : Act κ) : (r.exchange a).after.Coherent :=
  (exchange_performed h a).coherent h

/-- The runner after some calls. -/
def after (r : Runner κ) : List (Act κ) → Runner κ
  | [] => r
  | a :: acts => (r.exchange a).after.after acts

/-- The exchanges of some calls, in order. -/
def exchanges (r : Runner κ) : List (Act κ) → List (Exchange κ)
  | [] => []
  | a :: acts => r.exchange a :: (r.exchange a).after.exchanges acts

theorem after_coherent (h : r.Coherent) (acts : List (Act κ)) : (r.after acts).Coherent := by
  induction acts generalizing r with
  | nil => exact h
  | cons a acts ih => exact ih (exchange_coherent h a)

theorem exchange_steady (r : Runner κ) (a : Act κ) :
    (r.exchange a).after.execution = r.execution :=
  letI := a.code
  execution_perform r a.help a.call

@[simp] theorem execution_after (r : Runner κ) (acts : List (Act κ)) :
    (r.after acts).execution = r.execution := by
  induction acts generalizing r with
  | nil => rfl
  | cons a acts ih => rw [after, ih, exchange_steady]

end Runner
end CommandConsole
