import CommandConsole.Proofs.Engine.Pools

/-! Which runs are in flight once a line is taken, once a tick is over, and once something else has
happened. -/
namespace CommandConsole

variable {κ : Type}

/-- An operation that neither takes a line nor lets the suspended runs go on. -/
def Operation.isAside : Operation κ → Bool
  | .execute .. | .tick _ => false
  | _ => true

/-- A use of an engine beside its lines and its ticks. -/
structure Aside (κ : Type) where
  use : Use κ
  isAside : use.operation.isAside = true

namespace Engine

variable {e : Engine κ} {id : RunId} {c : Context κ}

/-- An engine that has come to be as it is from some configuration. -/
def Reached (e : Engine κ) : Prop := ∃ config us, e = (ofConfig config).after us

theorem Reached.after (h : e.Reached) (us : List (Use κ)) : (e.after us).Reached := by
  obtain ⟨config, vs, rfl⟩ := h
  exact ⟨config, vs ++ us, (after_append _ vs us).symm⟩

theorem Reached.rested (h : e.Reached) : Rested e.runners := by
  obtain ⟨config, us, rfl⟩ := h
  exact (sound_after config us).rested

theorem Reached.execute [code : Code κ] (h : e.Reached) (line : String) (invoker : Invoker)
    (meanwhile : List (Catalogue.Change κ)) :
    (e.execute line invoker meanwhile).value.2.Reached :=
  h.after [⟨.execute line invoker meanwhile, code⟩]

theorem Reached.tick [code : Code κ] (h : e.Reached)
    (meanwhile : RunId → List (Catalogue.Change κ)) : (e.tick meanwhile).value.2.Reached :=
  h.after [⟨.tick meanwhile, code⟩]

theorem Reached.work [code : Code κ] (h : e.Reached) (opened : List String) :
    (e.work opened).Reached :=
  h.after [⟨.work opened, code⟩]

theorem Reached.elapse [code : Code κ] (h : e.Reached) (t : Duration) : (e.elapse t).Reached :=
  h.after [⟨.elapse t, code⟩]

theorem held_eq_nil_iff : e.schedule.held = [] ↔ e.inFlight = 0 := by
  simp [Schedule.held, inFlight, Schedule.size]

theorem held_elapse (e : Engine κ) (t : Duration) :
    (e.elapse t).schedule.held = e.schedule.held :=
  e.schedule.held_mapRunners fun r => (r.elapse_aside t).context?_eq

theorem held_work [Code κ] (e : Engine κ) (opened : List String) :
    (e.work opened).schedule.held = e.schedule.held :=
  e.schedule.held_mapRunners fun r => (r.work_aside e.help opened).context?_eq

/-- Anything else leaves every run in flight, under its number and for its command, where it is: at
most its worker goes on. -/
theorem pending_aside [Code κ] (e : Engine κ) {o : Operation κ} (ho : o.isAside = true) :
    ∃ f : Suspended κ (Command κ) → Suspended κ (Command κ),
      (∀ p, (f p).id = p.id ∧ (f p).origin = p.origin ∧ p.runner.Aside (f p).runner) ∧
      (e.perform o).value.2.schedule.pending = e.schedule.pending.map f := by
  have kept : ∃ f : Suspended κ (Command κ) → Suspended κ (Command κ),
      (∀ p, (f p).id = p.id ∧ (f p).origin = p.origin ∧ p.runner.Aside (f p).runner) ∧
      e.schedule.pending = e.schedule.pending.map f :=
    ⟨fun p => p, fun _ => ⟨rfl, rfl, .same⟩, (List.map_id' _).symm⟩
  cases o with
  | execute line invoker meanwhile => cases ho
  | tick meanwhile => cases ho
  | register d =>
    obtain ⟨commands, runners, hr, -⟩ := e.register_frame d
    simpa only [perform, Reported.value_bind, Reported.value_pure, hr] using kept
  | registerCommand d =>
    obtain ⟨commands, hr⟩ := e.registerCommand_frame d
    simpa only [perform, Reported.value_bind, Reported.value_pure, hr] using kept
  | endConversation key =>
    obtain ⟨pool, hr⟩ := e.endConversation_frame key
    simpa only [perform, Reported.value_bind, Reported.value_pure, hr] using kept
  | unregisterCommand name => exact kept
  | disturb changes => exact kept
  | registerParser key p => exact kept
  | elapse d =>
    exact ⟨fun p => { p with runner := p.runner.elapse d },
      fun p => ⟨rfl, rfl, p.runner.elapse_aside d⟩, rfl⟩
  | work opened =>
    exact ⟨fun p => { p with runner := p.runner.work e.help opened },
      fun p => ⟨rfl, rfl, p.runner.work_aside e.help opened⟩, rfl⟩
  | workerEnds id result =>
    refine ⟨_, fun p => ?_, rfl⟩
    split
    · exact ⟨rfl, rfl, p.runner.workerEnds_aside result⟩
    · exact ⟨rfl, rfl, .same⟩

theorem held_aside (e : Engine κ) (a : Aside κ) :
    (e.use a.use).after.schedule.held = e.schedule.held := by
  let := a.use.code
  obtain ⟨f, hf, hpending⟩ := e.pending_aside a.isAside
  have hafter : (e.use a.use).after.schedule.pending = e.schedule.pending.map f := hpending
  rw [Schedule.held, hafter, List.map_map]
  apply List.map_congr_left
  intro p _
  obtain ⟨hid, -, haside⟩ := hf p
  exact Prod.ext hid haside.context?_eq

theorem held_asides (e : Engine κ) (as : List (Aside κ)) :
    (e.after (as.map (·.use))).schedule.held = e.schedule.held := by
  induction as generalizing e with
  | nil => rfl
  | cons a as ih =>
    rw [List.map_cons, Engine.after, ih, held_aside]

theorem Reached.register [code : Code κ] (h : e.Reached) (d : CommandDeclaration κ) :
    (e.register d).value.2.Reached := by
  have hafter := h.after [⟨.register d, code⟩]
  simpa only [Engine.after, use, perform, Reported.value_bind, Reported.value_pure] using hafter

theorem inFlight_register (e : Engine κ) (d : CommandDeclaration κ) :
    (e.register d).value.2.inFlight = e.inFlight := by
  obtain ⟨commands, runners, hr, -⟩ := e.register_frame d
  rw [hr]
  rfl

variable [Code κ]

/-- A line is answered and leaves the runs in flight as they are, or is one more of them. -/
theorem held_execute (h : Rested e.runners) (line : String) (invoker : Invoker)
    (meanwhile : List (Catalogue.Change κ)) :
    let x := (e.execute line invoker meanwhile).value
    (∃ r, x.1.response? = some r ∧ x.2.schedule.held = e.schedule.held) ∨
    ∃ id command c, x.1 = .pending id ∧
      e.addressed? line = some command ∧ c.invocation.command = command.name ∧
      c.invocation.invoker = invoker ∧
      x.2.schedule.held = e.schedule.held ++ [(id, some c)] := by
  have hx := execute_executed h line invoker meanwhile
  generalize (e.execute line invoker meanwhile).value = x at hx
  cases hx with
  | refused pool free failed returned => exact .inl ⟨_, rfl, rfl⟩
  | misread waiting malformed => exact .inl ⟨_, rfl, rfl⟩
  | replied waiting read handled responded =>
    obtain ⟨response, conversations, pool, hc⟩ := concluded_frame _ _
    rw [hc]
    exact .inl ⟨response, response?_dispatchOf response, rfl⟩
  | answered free addressed handled responded rented rested =>
    obtain ⟨response, conversations, pool, hc⟩ := concluded_frame _ _
    rw [hc]
    exact .inl ⟨response, response?_dispatchOf response, rfl⟩
  | @suspended command words bindings c runner pool runners commands free addressed handled holds
      rented rested =>
    refine .inr ⟨_, command, c, rfl, addressed, Invocation.command_eq_of_asked handled.asked,
      Invocation.invoker_eq_of_asked handled.asked, ?_⟩
    rw [Schedule.held_submit, Runner.context?_of_current? holds]

/-- A tick lets the only run in flight go on, or completes it and nothing else. -/
theorem tick_of_one (h : Rested e.runners) (hone : e.schedule.held = [(id, some c)])
    (meanwhile : RunId → List (Catalogue.Change κ)) :
    let x := (e.tick meanwhile).value
    (x.1 = [] ∧ ∃ d, x.2.schedule.held = [(id, some d)] ∧ c.Handled d) ∨
    ∃ r, x.1 = [⟨id, c.invocation.command, c.invocation.invoker.name, r⟩] ∧
      x.2.schedule.held = [] := by
  intro x
  obtain ⟨p, hp, hheld⟩ := List.map_eq_singleton_iff.mp hone
  obtain ⟨rfl, hc⟩ := Prod.mk.inj hheld
  obtain ⟨commands, runners, conversations, pool, hafter, -⟩ := tick_frame h meanwhile
  have hschedule : x.2.schedule.held = e.polled.schedule.held := congrArg (·.schedule.held) hafter
  have hcompleted : x.1 = (e.polled.settleAll meanwhile e.ended).value.1 :=
    congrArg Prod.fst (e.value_tick meanwhile)
  rw [hschedule, hcompleted]
  rcases Schedule.stays?_or_ends? e.help hc with
    ⟨q, d, hstays, hends, hid, -, hd, hcd⟩ | ⟨f, d, hstays, hends, hid, -, hd, -, hcd, -⟩
  · have hended : e.ended = [] := by simp [ended, hp, hends]
    rw [hended]
    refine .inl ⟨rfl, d, ?_, hcd⟩
    simp [polled, Schedule.held, hp, hstays, hid, hd]
  · have hended : e.ended = [f] := by simp [ended, hp, hends]
    rw [hended, value_settleAll_cons hd, ← Invocation.command_eq_of_asked hcd.asked,
      ← Invocation.invoker_eq_of_asked hcd.asked, ← hid]
    refine .inr ⟨(e.polled.settled (meanwhile f.id) f d).1.response, rfl, ?_⟩
    simp [polled, Schedule.held, hp, hstays]

end Engine
end CommandConsole
