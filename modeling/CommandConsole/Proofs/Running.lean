import CommandConsole.Proofs.Answering
import CommandConsole.Schedule

/-! What becomes of an invocation in the hands of a runner, and of suspended ones in a tick. -/
namespace CommandConsole

variable {κ τ : Type} {help : String}

/-- A run brought on: under the same number, with a context that its handler may have left. -/
structure Posted.Leads (p q : Posted κ) : Prop where
  same : q.id = p.id
  handled : p.context.Handled q.context

theorem Posted.Leads.refl (p : Posted κ) : p.Leads p := ⟨rfl, .refl _⟩

theorem Posted.Leads.trans {p q s : Posted κ} (h : p.Leads q) (h' : q.Leads s) : p.Leads s :=
  ⟨h'.same.trans h.same, h.handled.trans h'.handled⟩

namespace Runner

variable {c d : Context κ} {p q : Posted κ} {r : Runner κ}

/-- The run in progress: the number under which its end is to be posted, and its context. -/
def current? (r : Runner κ) : Option (Posted κ) :=
  match r.state, r.inFlight, r.completion with
  | .inProgress, some f, some id => some ⟨id, f.context⟩
  | _, _, _ => none

/-- The context that a runner holds on to. -/
def context? (r : Runner κ) : Option (Context κ) := r.current?.map (·.context)

/-- A runner with nothing left in it. -/
structure Bare (r : Runner κ) : Prop where
  still : r.inFlight = none
  unheard : r.completion = none

structure Resting (r : Runner κ) : Prop extends r.Bare where
  idle : r.state = .idle

/-- What becomes of a run that a runner takes on or goes on with: the runner holds on to it, or posts
it with an answer and has nothing left. -/
inductive Outcome (p : Posted κ) : Runner κ × Option (Posted κ) → Prop where
  | held {r : Runner κ} {q : Posted κ} (holds : r.current? = some q) (leads : p.Leads q) :
      Outcome p (r, none)
  | ended {r : Runner κ} {q : Posted κ} (finished : r.isFinished = true) (bare : r.Bare)
      (leads : p.Leads q) (responded : q.context.invocation.hasResponded = true) :
      Outcome p (r, some q)

theorem isInProgress_iff : r.isInProgress = true ↔ r.state = .inProgress := by
  simp [isInProgress]

theorem isFinished_iff : r.isFinished = true ↔ r.state = .finished := by
  simp [isFinished]

theorem current?_of_inFlight {f : InFlight κ} {id : RunId} (hs : r.state = .inProgress)
    (hf : r.inFlight = some f) (hr : r.completion = some id) :
    r.current? = some ⟨id, f.context⟩ := by
  simp only [current?, hs, hf, hr]

theorem current?_eq_some_iff : r.current? = some p ↔ r.state = .inProgress ∧
    r.completion = some p.id ∧ ∃ f, r.inFlight = some f ∧ f.context = p.context := by
  constructor
  · intro h
    simp only [current?] at h
    split at h
    · rename_i f id hstate hflight hcompletion
      injection h with h
      subst h
      exact ⟨hstate, hcompletion, f, hflight, rfl⟩
    · cases h
  · rintro ⟨hstate, hcompletion, f, hflight, hcontext⟩
    rw [current?_of_inFlight hstate hflight hcompletion, hcontext]

theorem context?_eq_some_iff : r.context? = some c ↔ ∃ p, r.current? = some p ∧ p.context = c :=
  Option.map_eq_some_iff

theorem context?_of_current? (h : r.current? = some p) : r.context? = some p.context :=
  context?_eq_some_iff.mpr ⟨p, h, rfl⟩

theorem isInProgress_of_current? (h : r.current? = some p) : r.isInProgress = true :=
  isInProgress_iff.mpr (current?_eq_some_iff.mp h).1

theorem isInProgress_of_context? (h : r.context? = some c) : r.isInProgress = true := by
  obtain ⟨p, hp, -⟩ := context?_eq_some_iff.mp h
  exact isInProgress_of_current? hp

theorem not_isFinished_of_isInProgress (h : r.isInProgress = true) : r.isFinished = false := by
  rw [isInProgress_iff] at h
  simp [isFinished, h]

theorem not_isInProgress_of_isFinished (h : r.isFinished = true) : r.isInProgress = false := by
  rw [isFinished_iff] at h
  simp [isInProgress, h]

theorem Resting.not_isInProgress (h : r.Resting) : r.isInProgress = false := by
  simp [isInProgress, h.idle]

theorem resting_reset (h : r.isFinished = true) : r.reset.2.Resting := by
  simp only [reset, h, if_true]
  exact ⟨⟨rfl, rfl⟩, rfl⟩

theorem not_isFinished_of_context? (h : r.context? = some c) : r.isFinished = false :=
  not_isFinished_of_isInProgress (isInProgress_of_context? h)

/-- The end of a run is posted exactly if its runner is finished. -/
theorem Outcome.posted_iff {x : Runner κ × Option (Posted κ)} (h : Outcome p x) :
    x.2.isSome = true ↔ x.1.isFinished = true := by
  cases h with
  | held holds leads =>
    simp [not_isFinished_of_isInProgress (isInProgress_of_current? holds)]
  | ended finished bare leads responded => simp [finished]

/-! What goes on in a worker, or with time, changes neither the run in progress nor the handler. -/

/-- A runner in which only the work of what is in flight has gone on. -/
inductive Aside (r : Runner κ) : Runner κ → Prop where
  | same : Aside r r
  | worked {job job' : Job κ} {c : Context κ} {elapsed elapsed' : Duration} {warned : Bool}
      (before : r.inFlight = some (.awaiting job c elapsed warned)) :
      Aside r { r with inFlight := some (.awaiting job' c elapsed' warned) }

namespace Aside

variable {s : Runner κ}

theorem state_eq (h : Aside r s) : s.state = r.state := by
  cases h <;> rfl

theorem completion_eq (h : Aside r s) : s.completion = r.completion := by
  cases h <;> rfl

theorem execution_eq (h : Aside r s) : s.execution = r.execution := by
  cases h <;> rfl

theorem current?_eq (h : Aside r s) : s.current? = r.current? := by
  cases h with
  | same => rfl
  | worked before =>
    simp only [current?, before]
    cases r.state <;> cases r.completion <;> rfl

theorem context?_eq (h : Aside r s) : s.context? = r.context? :=
  congrArg (Option.map _) h.current?_eq

theorem isFinished_eq (h : Aside r s) : s.isFinished = r.isFinished := by
  simp only [isFinished, h.state_eq]

theorem isInProgress_eq (h : Aside r s) : s.isInProgress = r.isInProgress := by
  simp only [isInProgress, h.state_eq]

theorem inFlight_isSome_eq (h : Aside r s) : s.inFlight.isSome = r.inFlight.isSome := by
  cases h with
  | same => rfl
  | worked before => rw [before]; rfl

end Aside

theorem elapse_aside (r : Runner κ) (t : Duration) : Aside r (r.elapse t) := by
  simp only [elapse]
  split
  · rename_i hflight
    exact .worked hflight
  · exact .same

/-- A worker that is still at work ends with a result. -/
def workerEnds (r : Runner κ) (result : Except Fault Response) : Runner κ :=
  match r.inFlight with
  | some (.awaiting (.working _) c elapsed warned) =>
    { r with inFlight := some (.awaiting (.ended result) c elapsed warned) }
  | _ => r

theorem workerEnds_aside (r : Runner κ) (result : Except Fault Response) :
    Aside r (r.workerEnds result) := by
  simp only [workerEnds]
  split
  · rename_i hflight
    exact .worked hflight
  · exact .same

theorem finish_outcome {d : Context κ} (hr : r.completion = some p.id) (h : p.context.Handled d) :
    Outcome p (r.finish d) := by
  simp only [finish, hr, Option.map_some]
  exact .ended rfl ⟨rfl, rfl⟩ ⟨rfl, h.trans d.ensureResponse_handled⟩ d.ensureResponse_hasResponded

theorem collect_handled (c : Context κ) (result : Except Fault Response) :
    c.Handled (collect c result).value := by
  cases result with
  | error f => exact c.fault_handled f
  | ok response =>
    simp only [collect]
    split
    · rename_i d hd
      exact Context.respond_handled hd
    · exact c.fault_handled _

variable [Code κ]

theorem work_aside (r : Runner κ) (help : String) (opened : List String) :
    Aside r (r.work help opened) := by
  simp only [work]
  split
  · rename_i hflight
    split
    · exact .same
    · exact .worked hflight
    · exact .worked hflight
  · exact .same

/-- A run that is in progress, whose end is to be posted under its number. -/
theorem step_outcome (hs : r.state = .inProgress) (hr : r.completion = some p.id) (help : String)
    (code : κ) : Outcome p (r.step help code p.context).value := by
  have hc := p.context.carryOut_handled help (Code.resume code)
  simp only [step, Reported.value_bind]
  split
  · exact .held (current?_of_inFlight hs rfl hr) ⟨rfl, hc⟩
  · exact finish_outcome hr hc

theorem launch_outcome (hs : r.state = .inProgress) (hr : r.completion = some p.id) (help : String)
    (code : κ) : Outcome p (r.launch help code p.context).value := by
  simp only [launch, Reported.value_bind]
  split
  · exact .held (current?_of_inFlight hs rfl hr) (.refl p)
  · exact finish_outcome hr (p.context.fault_handled _)

/-- A runner that is free takes the run that it is given. -/
theorem run_outcome (h : r.isInProgress = false) (help : String) (c : Context κ) (id : RunId) :
    Outcome ⟨id, c⟩ (r.run help c id).value := by
  simp only [run, h]
  cases r.execution with
  | sync code =>
    exact finish_outcome (p := ⟨id, c⟩) rfl (c.carryOut_handled help (Code.body code))
  | stepped code => exact step_outcome (p := ⟨id, c⟩) rfl rfl help code
  | worker code => exact launch_outcome (p := ⟨id, c⟩) rfl rfl help code

theorem poll_outcome (h : r.current? = some p) (help : String) :
    Outcome p (r.poll help).value := by
  obtain ⟨hstate, hcompletion, f, hflight, hcontext⟩ := current?_eq_some_iff.mp h
  obtain ⟨id, c⟩ := p
  simp only at hcompletion hcontext
  subst hcontext
  simp only [poll, isInProgress_of_current? h, hflight]
  cases f with
  | stepping code c => exact step_outcome (p := ⟨id, c⟩) hstate hcompletion help code
  | awaiting job c elapsed warned =>
    cases job with
    | ended result => exact finish_outcome (p := ⟨id, c⟩) hcompletion (collect_handled c result)
    | working code =>
      simp only [Bool.not_true, Bool.false_eq_true, if_false]
      split <;>
        exact .held (current?_of_inFlight hstate rfl hcompletion) (.refl _)

end Runner

namespace Schedule

/-- What is suspended: numbers, and the invocations held on to. -/
def held (s : Schedule κ τ) : List (RunId × Option (Context κ)) :=
  s.pending.map fun p => (p.id, p.runner.context?)

theorem held_ids (s : Schedule κ τ) : s.held.map (·.1) = s.pending.map (·.id) := by
  simp [held]

theorem mem_held {s : Schedule κ τ} {p : Suspended κ τ} (h : p ∈ s.pending) :
    (p.id, p.runner.context?) ∈ s.held :=
  List.mem_map.mpr ⟨p, h, rfl⟩

theorem held_submit (s : Schedule κ τ) (id : RunId) (origin : τ) (r : Runner κ) :
    (s.submit id origin r).held = s.held ++ [(id, r.context?)] := by
  simp [held, submit]

theorem held_mapRunners (s : Schedule κ τ) {f : Runner κ → Runner κ}
    (hf : ∀ r, (f r).context? = r.context?) : (s.mapRunners f).held = s.held := by
  simp [held, mapRunners, hf]

variable [Code κ]

/-- What is left of a suspended invocation after a poll, if it goes on. -/
def stays? (help : String) (p : Suspended κ τ) : Option (Suspended κ τ) :=
  let polled := (p.runner.poll help).value
  if polled.1.isFinished then none else some { p with runner := polled.1 }

/-- What a poll finds finished of a suspended invocation. -/
def ends? (help : String) (p : Suspended κ τ) : Option (Finished κ τ) :=
  let polled := (p.runner.poll help).value
  if polled.1.isFinished then some ⟨p.id, p.origin, polled.1, polled.2.map (·.context)⟩ else none

theorem value_pollAll (help : String) (ps : List (Suspended κ τ)) :
    (pollAll help ps).value = (ps.filterMap (stays? help), ps.filterMap (ends? help)) := by
  induction ps with
  | nil => rfl
  | cons p rest ih =>
    simp only [pollAll, Reported.value_bind, ih]
    split <;> rename_i h <;> simp [stays?, ends?, h]

theorem stays?_eq_some {p q : Suspended κ τ} (h : stays? help p = some q) :
    q = { p with runner := (p.runner.poll help).value.1 } := by
  simp only [stays?] at h
  split at h
  · cases h
  · injection h with h
    exact h.symm

theorem ends?_eq_some {p : Suspended κ τ} {f : Finished κ τ} (h : ends? help p = some f) :
    f = ⟨p.id, p.origin, (p.runner.poll help).value.1,
      (p.runner.poll help).value.2.map (·.context)⟩ := by
  simp only [ends?] at h
  split at h
  · injection h with h
    exact h.symm
  · cases h

/-- Every suspended invocation either goes on or is handed over with an answer. -/
theorem stays?_or_ends? (help : String) {p : Suspended κ τ} {c : Context κ}
    (h : p.runner.context? = some c) :
    (∃ q d, stays? help p = some q ∧ ends? help p = none ∧ q.id = p.id ∧ q.origin = p.origin ∧
        q.runner.context? = some d ∧ c.Handled d) ∨
      (∃ f d, stays? help p = none ∧ ends? help p = some f ∧ f.id = p.id ∧ f.origin = p.origin ∧
        f.context = some d ∧ f.runner.isFinished = true ∧ c.Handled d ∧
        d.invocation.hasResponded = true) := by
  obtain ⟨run, hrun, rfl⟩ := Runner.context?_eq_some_iff.mp h
  have hp := Runner.poll_outcome hrun help
  simp only [stays?, ends?]
  generalize (p.runner.poll help).value = polled at hp
  cases hp with
  | @held r q holds leads =>
    have hd := Runner.context?_of_current? holds
    have hf := Runner.not_isFinished_of_context? hd
    exact Or.inl ⟨{ p with runner := r }, q.context, by simp [hf], by simp [hf], rfl, rfl, hd,
      leads.handled⟩
  | @ended r q finished bare leads responded =>
    exact Or.inr ⟨⟨p.id, p.origin, r, some q.context⟩, q.context, by simp [finished],
      by simp [finished], rfl, rfl, rfl, finished, leads.handled, responded⟩

/-- What goes on after a tick holds on to what it held before. -/
theorem held_of_stays? {ps : List (Suspended κ τ)}
    (hc : ∀ p ∈ ps, ∃ c, p.runner.context? = some c) {q : Suspended κ τ}
    (hq : q ∈ ps.filterMap (stays? help)) :
    ∃ p ∈ ps, ∃ c d, q.id = p.id ∧ q.origin = p.origin ∧ p.runner.context? = some c ∧
      q.runner.context? = some d ∧ c.Handled d := by
  obtain ⟨p, hp, hs⟩ := List.mem_filterMap.mp hq
  obtain ⟨c, hpc⟩ := hc p hp
  rcases stays?_or_ends? help hpc with
    ⟨r, d, hr, _, hid, horigin, hrd, hcd⟩ | ⟨f, d, hnone, _⟩
  · rw [hr] at hs
    injection hs with hs
    subst hs
    exact ⟨p, hp, c, d, hid, horigin, hpc, hrd, hcd⟩
  · rw [hnone] at hs
    cases hs

/-- What a tick finds finished hands over what was held, with an answer. -/
theorem handed_of_ends? {ps : List (Suspended κ τ)}
    (hc : ∀ p ∈ ps, ∃ c, p.runner.context? = some c) {f : Finished κ τ}
    (hf : f ∈ ps.filterMap (ends? help)) :
    ∃ p ∈ ps, ∃ c d, f.id = p.id ∧ f.origin = p.origin ∧ p.runner.context? = some c ∧
      f.context = some d ∧ f.runner.isFinished = true ∧ c.Handled d ∧
      d.invocation.hasResponded = true := by
  obtain ⟨p, hp, he⟩ := List.mem_filterMap.mp hf
  obtain ⟨c, hpc⟩ := hc p hp
  rcases stays?_or_ends? help hpc with
    ⟨q, d, _, hnone, _⟩ | ⟨g, d, _, hg, hid, horigin, hgd, hfinished, hcd, hresp⟩
  · rw [hnone] at he
    cases he
  · rw [hg] at he
    injection he with he
    subst he
    exact ⟨p, hp, c, d, hid, horigin, hpc, hgd, hfinished, hcd, hresp⟩

theorem ends?_id {p : Suspended κ τ} {f : Finished κ τ} (h : ends? help p = some f) :
    f.id = p.id := by
  rw [ends?_eq_some h]

/-- What a tick finds finished comes in the order of dispatch. -/
theorem ends?_ids_sublist (help : String) (ps : List (Suspended κ τ)) :
    ((ps.filterMap (ends? help)).map (·.id)).Sublist (ps.map (·.id)) := by
  induction ps with
  | nil => exact .slnil
  | cons p rest ih =>
    cases h : ends? help p with
    | none =>
      rw [List.filterMap_cons_none h]
      exact ih.cons _
    | some f =>
      rw [List.filterMap_cons_some h, List.map_cons, List.map_cons, ends?_id h]
      exact ih.cons_cons _

/-- What goes on after a tick is what was suspended and is not finished, in the same order. -/
theorem stays?_ids {ps : List (Suspended κ τ)} (hn : (ps.map (·.id)).Nodup)
    (hc : ∀ p ∈ ps, ∃ c, p.runner.context? = some c) :
    (ps.filterMap (stays? help)).map (·.id) =
      (ps.map (·.id)).filter (· ∉ (ps.filterMap (ends? help)).map (·.id)) := by
  induction ps with
  | nil => rfl
  | cons p rest ih =>
    rw [List.map_cons, List.nodup_cons] at hn
    have hrest := ih hn.2 (fun q hq => hc q (List.mem_cons_of_mem _ hq))
    have hsub := (ends?_ids_sublist help rest).subset
    obtain ⟨c, hp⟩ := hc p List.mem_cons_self
    obtain ⟨q, d, hs, he, hid, _⟩ | ⟨f, d, hs, he, hid, _⟩ := stays?_or_ends? help hp
    · rw [List.filterMap_cons_some hs, List.filterMap_cons_none he, List.map_cons, List.map_cons,
        hid, hrest, List.filter_cons_of_pos (by simpa using fun h => hn.1 (hsub h))]
    · rw [List.filterMap_cons_none hs, List.filterMap_cons_some he, List.map_cons, List.map_cons,
        hid, hrest, List.filter_cons_of_neg (by simp)]
      apply List.filter_congr
      intro id hin
      have hne : id ≠ p.id := by
        intro h
        exact hn.1 (h ▸ hin)
      simp [hne]

end Schedule
end CommandConsole
