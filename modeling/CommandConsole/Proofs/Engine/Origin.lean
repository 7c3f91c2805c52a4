import CommandConsole.Proofs.Engine.Begun
import CommandConsole.Proofs.Engine.Conversation
import CommandConsole.Proofs.Engine.Flight

/-! Where suspended runs come from: a line has begun each of them. -/
namespace CommandConsole

variable {κ : Type}

/-- A line begins a run in a context. -/
def Moment.Runs (m : Moment κ) (c : Context κ) : Prop :=
  ∃ line invoker meanwhile command, m.operation = .execute line invoker meanwhile ∧
    m.before.begun? line invoker = some (command, c)

namespace Engine

variable {e : Engine κ} {c d : Context κ} {id : RunId}

/-- A line begins a run without a past. -/
theorem earlier_of_runs {n : Moment κ} (h : n.Runs c) : c.invocation.earlier = [] := by
  obtain ⟨line, invoker, meanwhile, command, -, begun⟩ := h
  obtain ⟨-, q, b, -, -, rfl⟩ := begun?_spec begun
  rfl

theorem held_of_line (h : Rested e.runners) {line : String} {invoker : Invoker}
    {meanwhile : List (Catalogue.Change κ)} {code : Code κ}
    (hd : (id, some d) ∈ (e.use ⟨.execute line invoker meanwhile, code⟩).after.schedule.held) :
    (id, some d) ∈ e.schedule.held ∨
      ∃ c, (e.use ⟨.execute line invoker meanwhile, code⟩).Runs c ∧
        (e.use ⟨.execute line invoker meanwhile, code⟩).answer = .dispatch (.pending id) ∧ c.Handled d := by
  let := code
  have hafter : (e.use ⟨.execute line invoker meanwhile, code⟩).after =
      (e.execute line invoker meanwhile).value.2 := rfl
  have hanswer : (e.use ⟨.execute line invoker meanwhile, code⟩).answer =
      .dispatch (e.execute line invoker meanwhile).value.1 := rfl
  rw [hafter] at hd
  cases hbegun : e.begun? line invoker with
  | none =>
    rw [schedule_execute_of_not_begun h hbegun meanwhile] at hd
    exact .inl hd
  | some x =>
    obtain ⟨command, c⟩ := x
    obtain ⟨pool, hx⟩ := started_of_begun h hbegun meanwhile
    generalize (e.execute line invoker meanwhile).value = x at hd hanswer hx
    cases hx with
    | answered handled responded rested =>
      obtain ⟨response, conversations, pool, hc⟩ := concluded_frame _ _
      rw [hc] at hd
      exact .inl hd
    | suspended handled holds rested =>
      rw [Schedule.held_submit, Runner.context?_of_current? holds] at hd
      rcases List.mem_append.mp hd with hd | hd
      · exact .inl hd
      · simp only [List.mem_singleton, Prod.mk.injEq, Option.some.injEq] at hd
        obtain ⟨rfl, rfl⟩ := hd
        exact .inr ⟨c, ⟨line, invoker, meanwhile, command, rfl, hbegun⟩, hanswer, handled⟩

/-- Whatever is suspended after a use was suspended before it, or has been begun by a line. -/
theorem held_of_use (h : Attentive e) (u : Use κ)
    (hd : (id, some d) ∈ (e.use u).after.schedule.held) :
    (∃ c, (id, some c) ∈ e.schedule.held ∧ c.Handled d) ∨
      ∃ c, (e.use u).Runs c ∧ (e.use u).answer = .dispatch (.pending id) ∧ c.Handled d := by
  obtain ⟨operation, code⟩ := u
  let := code
  have same : (e.use ⟨operation, code⟩).after.schedule.held = e.schedule.held →
      ∃ c, (id, some c) ∈ e.schedule.held ∧ c.Handled d := by
    intro hsame
    exact ⟨d, hsame ▸ hd, .refl d⟩
  cases operation with
  | execute line invoker meanwhile =>
    rcases held_of_line h.rested hd with hd | hbegun
    · exact .inl ⟨d, hd, .refl d⟩
    · exact .inr hbegun
  | tick meanwhile =>
    left
    obtain ⟨commands, runners, conversations, pool, hafter, -⟩ := tick_frame h.rested meanwhile
    have hheld : (id, some d) ∈ e.polled.schedule.held := by
      simpa only [use, perform, Reported.value_bind, Reported.value_pure, hafter] using hd
    obtain ⟨q, hq, hqd⟩ := List.mem_map.mp hheld
    obtain ⟨p, hp, c, d', hid, -, holds, hd', handled⟩ := Schedule.held_of_stays? h.holds hq
    simp only [hd', Prod.mk.injEq, Option.some.injEq] at hqd
    obtain ⟨rfl, rfl⟩ := hqd
    exact ⟨c, List.mem_map.mpr ⟨p, hp, by rw [hid, holds]⟩, handled⟩
  | _ => exact .inl (same (e.held_aside ⟨⟨_, code⟩, rfl⟩))

/-- Every suspended run has been begun by a line, in a context that it has at most answered. -/
theorem runs_of_held (config : Config) (us : List (Use κ))
    (hd : (id, some d) ∈ ((ofConfig config).after us).schedule.held) :
    ∃ n ∈ (ofConfig config).moments us, ∃ c, n.Runs c ∧ n.answer = .dispatch (.pending id) ∧
      c.Handled d := by
  induction us using List.reverseRecOn generalizing d with
  | nil => cases hd
  | append_singleton us u ih =>
    rw [after_append] at hd
    rw [moments_append]
    rcases held_of_use (attentive_after config us) u hd with
      ⟨c, hc, handled⟩ | ⟨c, hruns, hpending, handled⟩
    · obtain ⟨n, hn, first, hruns, hpending, hfirst⟩ := ih hc
      exact ⟨n, List.mem_append_left _ hn, first, hruns, hpending, hfirst.trans handled⟩
    · exact ⟨_, List.mem_append_right _ List.mem_cons_self, c, hruns, hpending, handled⟩

end Engine
end CommandConsole
