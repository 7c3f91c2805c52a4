import CommandConsole.Proofs.Engine.Begun

/-! Which handler a line runs: that of the registration which its first word stands for, whatever
runners are kept and whatever becomes of the registration later. -/
namespace CommandConsole.Engine

variable {κ : Type} {e : Engine κ} {line : String} {invoker : Invoker} {command : Command κ}
  {c : Context κ}

/-- A line that begins a run shows its values to conditions, and itself to the handler of its
command. -/
theorem shown_of_begun (hs : Sound e) (h : e.begun? line invoker = some (command, c))
    (meanwhile : List (Catalogue.Change κ)) :
    ∃ checks : List Check, e.shown (.execute line invoker meanwhile) =
      checks.map .check ++ (e.fresh command).shownByRun e.help c := by
  obtain ⟨free, q, b, hrequest, hbound, rfl⟩ := begun?_spec h
  obtain ⟨-, hcommand, hline, hinvoker⟩ := admission_of_request? hrequest
  have registered := registered_of_addressed hs.pools (addressed_of_request? hrequest)
  obtain ⟨runners, hrent, -⟩ := rentRunner_fresh hs.pools registered
  refine ⟨q.checks command.overloads, ?_⟩
  simp only [shown, free, hrequest, shownByInvoke, hbound, hrent, hcommand, hline, hinvoker]

/-- No handler has a say in such a line but that of its command. -/
theorem perform_eq_of_handler (hs : Sound e) (h : e.begun? line invoker = some (command, c))
    (meanwhile : List (Catalogue.Change κ)) {C D : Code κ}
    (alike : ∀ s ∈ (e.fresh command).shownByRun e.help c, s.Alike C D) :
    @perform κ C e (.execute line invoker meanwhile) =
      @perform κ D e (.execute line invoker meanwhile) := by
  obtain ⟨checks, hshown⟩ := shown_of_begun hs h meanwhile
  refine perform_eq_of_alike fun s hin => ?_
  rw [hshown] at hin
  rcases List.mem_append.mp hin with hin | hin
  · obtain ⟨x, -, rfl⟩ := List.mem_map.mp hin
    trivial
  · exact alike s hin

/-- A reply rents no runner. -/
theorem runners_of_reply [Code κ] {conversation : Conversation κ} (line : String)
    (waiting : e.conversations.find? invoker.conversationKey = some conversation)
    (meanwhile : List (Catalogue.Change κ)) :
    let after := (e.execute line invoker meanwhile).value.2
    after.lastRun = e.lastRun ∧ after.schedule = e.schedule ∧ after.runners = e.runners := by
  intro after
  have hx := e.execute_entered line invoker meanwhile
  simp only [after]
  generalize (e.execute line invoker meanwhile).value = x at hx
  cases hx with
  | refused pool free failed returned => simp [waiting] at free
  | misread waiting malformed => exact ⟨rfl, rfl, rfl⟩
  | replied waiting read =>
    obtain ⟨response, conversations, pool, hc⟩ := concluded_frame _ _
    rw [hc]
    exact ⟨rfl, rfl, rfl⟩
  | started free addressed rented => simp [waiting] at free

/-- What a line does to runners and to runs. A reply to a conversation rents nothing, and neither does
a line that begins no run. Any other line runs, from the first step to the last, the handler of the
very registration that its first word stands for, on a runner as good as new, whatever else is done
and whatever becomes of the catalogue; no other handler has a say in it. Runners are kept for one
registration each, not too many of them, and nothing is left in any. -/
theorem lines_run_their_registration (config : Config) (us : List (Use κ)) :
    let e := (ofConfig config).after us
    (∀ (line : String) (invoker : Invoker) (meanwhile : List (Catalogue.Change κ)) (code : Code κ),
      let operation := Operation.execute line invoker meanwhile
      let m := e.use ⟨operation, code⟩
      match e.begun? line invoker with
      | none => m.after.lastRun = e.lastRun ∧ m.after.schedule = e.schedule ∧
        m.after.runners = e.runners ∧
        (e.hasConversation invoker.conversationKey = true ∨
          ∃ response, m.answer = .dispatch (.completed response) ∧ response.kind = .fail)
      | some (command, c) => e.hasConversation invoker.conversationKey = false ∧
        e.addressed? line = some command ∧ m.after.lastRun = e.lastRun + 1 ∧
        Course m command (e.fresh command) ⟨.run c ⟨e.lastRun + 1⟩, e.help, code⟩ ∧
        (∀ calls, ((e.fresh command).after calls).execution = command.execution) ∧
        ∀ other, (∀ s ∈ (e.fresh command).shownByRun e.help c, s.Alike other code) →
          @perform κ other e operation = @perform κ code e operation) ∧
    (∀ s ∈ e.schedule.pending, s.runner.execution = s.origin.execution) ∧
    ∀ name idle, (name, idle) ∈ e.runners →
      idle.length ≤ config.runnerPoolCapacity ∧
      (∀ p ∈ idle, ∀ q ∈ idle, p.origin = q.origin) ∧
      ∀ p ∈ idle, p.runner.state = .idle ∧ p.runner.inFlight = none ∧
        p.runner.completion = none ∧ p.runner.execution = p.origin.execution := by
  intro e
  have hsound : Sound e := sound_after config us
  refine ⟨?_, hsound.made, ?_⟩
  · intro line invoker meanwhile code operation m
    let := code
    split
    · rename_i hnone
      cases hf : e.conversations.find? invoker.conversationKey with
      | some conversation =>
        obtain ⟨hlast, hschedule, hrunners⟩ := runners_of_reply line hf meanwhile
        exact ⟨hlast, hschedule, hrunners, .inl (hasConversation_of_find? hf)⟩
      | none =>
        obtain ⟨⟨pool, hafter⟩, hfailed⟩ := use_of_not_begun hf hnone meanwhile code
        exact ⟨congrArg (·.lastRun) hafter, congrArg (·.schedule) hafter,
          congrArg (·.runners) hafter, .inr hfailed⟩
    · rename_i command c hbegun
      have hbegins := begins_of_begun hsound hbegun meanwhile code
      obtain ⟨free, q, b, hrequest, -, -⟩ := begun?_spec hbegun
      refine ⟨?_, addressed_of_request? hrequest, hbegins.numbered, hbegins.course, ?_, ?_⟩
      · exact Bool.eq_false_iff.mpr (not_hasConversation_of_find? free)
      · intro calls
        rw [Runner.execution_after]
        rfl
      · exact fun other alike => perform_eq_of_handler hsound hbegun meanwhile alike
  · intro name idle hidle
    have hstock := hsound.pools.stocked _ hidle
    refine ⟨config_after config us ▸ hstock.fits, hstock.uniform, ?_⟩
    intro p hp
    obtain ⟨⟨still, unheard⟩, hstate⟩ := hstock.rested p hp
    exact ⟨hstate, still, unheard, hstock.made p hp⟩

end CommandConsole.Engine
