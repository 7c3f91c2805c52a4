import CommandConsole.Proofs.Runner.Verdict

/-! Coroutines that depend on nothing but their own state and their own context: how often they
yield, and what their run comes to. -/
namespace CommandConsole.Runner

variable {κ : Type}

/-- Under all behaviours of some kind, and whatever the help text, a coroutine yields so many times,
and then ends its run, of which a context is left. -/
inductive Yields (B : Code κ → Prop) : Nat → κ → Context κ → Context κ → Prop where
  | ends {code : κ} {c : Context κ} {o : Script.Outcome κ (Option κ)}
      (own : ∀ C, B C → ∀ help, (C.resume code).run help c = o)
      (stops : ∀ next, o.result ≠ .ok (some next)) :
      Yields B 0 code c (o.context.close (faultOf o.result))
  | yields {k : Nat} {code next : κ} {c d : Context κ} {o : Script.Outcome κ (Option κ)}
      (own : ∀ C, B C → ∀ help, (C.resume code).run help c = o)
      (goesOn : o.result = .ok (some next)) (rest : Yields B k next o.context d) :
      Yields B (k + 1) code c d

variable {B : Code κ → Prop} {C : Code κ} {k : Nat} {code : κ} {c d : Context κ} {r : Runner κ}
  {a : Act κ} {help : String}

theorem Yields.exists_response (h : Yields B k code c d) :
    ∃ response, d.invocation.response? = some response := by
  induction h with
  | @ends code c o own stops =>
    apply Option.isSome_iff_exists.mp
    cases hfault : faultOf o.result with
    | none => exact Context.ensureResponse_hasResponded _
    | some f => exact Context.ensureResponse_hasResponded _
  | yields own goesOn rest ih => exact ih

/-- A coroutine changes nothing of what was asked. -/
theorem Yields.asked (h : Yields B k code c d) (hC : B C) :
    d.invocation.asked = c.invocation.asked := by
  have resumed : ∀ code (c : Context κ) o, (∀ C, B C → ∀ help, (C.resume code).run help c = o) →
      o.context.invocation.asked = c.invocation.asked := by
    intro code c o own
    rw [← own C hC ""]
    exact ((C.resume code).run_tries "" c).asked.1
  induction h with
  | ends own stops => exact (Context.close_handled _ _).asked.trans (resumed _ _ _ own)
  | yields own goesOn rest ih => exact ih.trans (resumed _ _ _ own)

/-- A coroutine is in flight, with the context of its run. -/
structure Steps (r : Runner κ) (id : RunId) (code : κ) (c : Context κ) : Prop where
  current : r.current? = some ⟨id, c⟩
  inFlight : r.inFlight = some (.stepping code c)

theorem Steps.context? {id : RunId} (h : Steps r id code c) : r.context? = some c :=
  context?_of_current? h.current

section Exchange

variable {x : Exchange κ} {id : RunId}

/-- A coroutine that has yielded for the last time ends its run. -/
theorem Yields.last (h : Yields B 0 code c d) (hB : B x.act.code)
    (resumes : x.Resumes code ⟨id, c⟩) : x.fired = some ⟨id, d⟩ := by
  cases h with
  | @ends _ _ o own stops =>
    have hown : (x.act.code.resume code).run x.act.help c = o := own x.act.code hB x.act.help
    rcases resumes.2 with ⟨next, hnext, -⟩ | ⟨-, hfinishes⟩
    · exact absurd (hown ▸ hnext) (stops next)
    · rw [hfinishes.fired, hown]

/-- Any other yields once. -/
theorem Yields.next (h : Yields B (k + 1) code c d) (hB : B x.act.code)
    (resumes : x.Resumes code ⟨id, c⟩) :
    x.fired = none ∧ ∃ next c', Steps x.after id next c' ∧ Yields B k next c' d := by
  cases h with
  | @yields _ _ next _ _ o own goesOn rest =>
    have hown : (x.act.code.resume code).run x.act.help c = o := own x.act.code hB x.act.help
    rcases resumes.2 with ⟨next', hnext, hgoes⟩ | ⟨hstops, -⟩
    · rw [hown] at hnext hgoes
      rw [goesOn] at hnext
      injection hnext with hnext
      injection hnext with hnext
      subst hnext
      exact ⟨hgoes.quiet, next, o.context, ⟨hgoes.current, hgoes.inFlight⟩, rest⟩
    · exact absurd (hown ▸ goesOn) (hstops next)

end Exchange

variable {id : RunId}

/-- The first step of a run. -/
theorem Yields.exchange_run (h : Yields B (k + 1) code c d) (hB : B a.code)
    (free : r.isInProgress = false) (stepped : r.execution = .stepped code)
    (hcall : a.call = .run c id) :
    (r.exchange a).fired = none ∧
      ∃ next c', Steps (r.exchange a).after id next c' ∧ Yields B k next c' d := by
  apply h.next hB
  apply exchange_resumes (s := { r with state := .inProgress, completion := some id }) ⟨rfl, rfl⟩
  simp only [hcall, perform, run, free, stepped, Bool.false_eq_true, if_false]

theorem Steps.resumes (h : Steps r id code c) (hcall : a.call = .poll) :
    (r.exchange a).Resumes code ⟨id, c⟩ := by
  apply exchange_resumes (worksFor_of_current? h.current)
  simp [hcall, perform, poll, isInProgress_of_current? h.current, h.inFlight]

/-- A poll of a coroutine that has yielded for the last time ends the run. -/
theorem Yields.exchange_last (h : Yields B 0 code c d) (hB : B a.code) (steps : Steps r id code c)
    (hcall : a.call = .poll) : (r.exchange a).fired = some ⟨id, d⟩ :=
  h.last hB (steps.resumes hcall)

/-- A poll of any other lets it yield once. -/
theorem Yields.exchange_poll (h : Yields B (k + 1) code c d) (hB : B a.code)
    (steps : Steps r id code c) (hcall : a.call = .poll) :
    (r.exchange a).fired = none ∧
      ∃ next c', Steps (r.exchange a).after id next c' ∧ Yields B k next c' d :=
  h.next hB (steps.resumes hcall)

/-- Time and workers are nothing to a coroutine. -/
theorem Steps.exchange_aside (h : Steps r id code c) (hpoll : a.call ≠ .poll)
    (hreset : a.call ≠ .reset) (hrun : ∀ c id, a.call ≠ .run c id) :
    (r.exchange a).after = r ∧ (r.exchange a).fired = none := by
  have hflight := h.inFlight
  obtain ⟨call, help, C⟩ := a
  cases call with
  | run c id => exact absurd rfl (hrun c id)
  | poll => exact absurd rfl hpoll
  | reset => exact absurd rfl hreset
  | elapse t => exact ⟨by simp only [exchange, perform, Reported.value_pure, elapse, hflight], rfl⟩
  | work opened => exact ⟨by simp only [exchange, perform, Reported.value_pure, work, hflight], rfl⟩
  | workerEnds result =>
    exact ⟨by simp only [exchange, perform, Reported.value_pure, workerEnds, hflight], rfl⟩

end CommandConsole.Runner
