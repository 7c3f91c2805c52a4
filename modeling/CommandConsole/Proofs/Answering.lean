import CommandConsole.Runner

/-! What handler code can do to the invocation in its hands: it answers it once or not at all. -/
namespace CommandConsole

variable {κ α : Type} {c d e : Context κ} {r : Response} {k : Option κ}

namespace Invocation

/-- An invocation as its handler finds it, before there is an answer. -/
def asked (i : Invocation) : Invocation := { i with turn := { i.turn with response := none } }

@[simp] theorem command_asked (i : Invocation) : i.asked.command = i.command := rfl

@[simp] theorem invoker_asked (i : Invocation) : i.asked.invoker = i.invoker := rfl

theorem command_eq_of_asked {i j : Invocation} (h : i.asked = j.asked) : i.command = j.command := by
  simpa only [command_asked] using congrArg command h

theorem invoker_eq_of_asked {i j : Invocation} (h : i.asked = j.asked) : i.invoker = j.invoker := by
  simpa only [invoker_asked] using congrArg invoker h

end Invocation

namespace Context

/-- A callback waits for the next line exactly when the answer asks for one. -/
def Coherent (c : Context κ) : Prop :=
  c.callback.isSome = true ↔ ∃ r, c.invocation.response? = some r ∧ r.isContinued = true

/-- What the code of a handler can make of a context: the context itself, or the context with an
answer, which comes with a callback exactly when it asks for another line. -/
def Handled (c d : Context κ) : Prop :=
  d = c ∨ ∃ r k, c.settle r k = .ok d ∧ (k.isSome = true ↔ r.isContinued = true)

theorem coherent_ofInvocation {i : Invocation} (h : i.response? = none) :
    (ofInvocation i : Context κ).Coherent := by
  simp [Coherent, ofInvocation, h]

theorem settle_eq_ok (h : c.settle r k = .ok d) :
    c.invocation.response? = none ∧ d.invocation.response? = some r ∧ d.callback = k ∧
      d.invocation.asked = c.invocation.asked := by
  simp only [settle] at h
  split at h
  · cases h
  · rename_i hn
    injection h with h
    subst h
    exact ⟨hn, rfl, rfl, rfl⟩

theorem respond_handled (h : c.respond r = .ok d) : c.Handled d := by
  simp only [respond] at h
  split at h
  · cases h
  · rename_i hr
    exact Or.inr ⟨r, none, h, by simp [hr]⟩

theorem ask_handled {prompt : String} {callback : κ} (h : c.ask prompt callback = .ok d) :
    c.Handled d :=
  Or.inr ⟨_, _, h, by simp [Response.continued, Response.isContinued]⟩

namespace Handled

theorem refl (c : Context κ) : c.Handled c := Or.inl rfl

/-- An answer that has been given stays, with its callback. -/
theorem eq_of_hasResponded (h : c.Handled d) (hc : c.invocation.hasResponded = true) : d = c := by
  rcases h with h | ⟨r, k, hs, _⟩
  · exact h
  · have hn := (settle_eq_ok hs).1
    simp [Invocation.hasResponded, Invocation.response?] at hc hn
    simp [hn] at hc

theorem trans (h : c.Handled d) (hd : d.Handled e) : c.Handled e := by
  rcases h with rfl | ⟨r, k, hs, hk⟩
  · exact hd
  · have hr := (settle_eq_ok hs).2.1
    have he := hd.eq_of_hasResponded (by
      rw [Invocation.hasResponded]
      rw [Invocation.response?] at hr
      simp [hr])
    subst he
    exact Or.inr ⟨r, k, hs, hk⟩

theorem asked (h : c.Handled d) : d.invocation.asked = c.invocation.asked := by
  rcases h with rfl | ⟨r, k, hs, _⟩
  · rfl
  · exact (settle_eq_ok hs).2.2.2

theorem conversationKey (h : c.Handled d) :
    d.invocation.invoker.conversationKey = c.invocation.invoker.conversationKey :=
  congrArg Invoker.conversationKey (Invocation.invoker_eq_of_asked h.asked)

theorem coherent (h : c.Handled d) (hc : c.Coherent) : d.Coherent := by
  rcases h with rfl | ⟨r, k, hs, hk⟩
  · exact hc
  · obtain ⟨_, hr, hcb, _⟩ := settle_eq_ok hs
    rw [Coherent, hr, hcb, hk]
    constructor
    · intro hcont
      exact ⟨r, rfl, hcont⟩
    · rintro ⟨r', hr', hcont⟩
      injection hr' with hr'
      exact hr' ▸ hcont

end Handled

theorem ensureResponse_handled (c : Context κ) : c.Handled c.ensureResponse := by
  simp only [ensureResponse]
  split
  · rename_i d hd
    exact Or.inr ⟨_, _, hd, by simp [Response.empty, Response.ok, Response.isContinued]⟩
  · exact Handled.refl c

theorem ensureResponse_hasResponded (c : Context κ) :
    c.ensureResponse.invocation.hasResponded = true := by
  simp only [ensureResponse, settle]
  cases h : c.invocation.turn.response with
  | none => rfl
  | some first => simp [Invocation.hasResponded, h]

theorem fault_handled (c : Context κ) (f : Fault) : c.Handled (c.fault f).value := by
  simp only [fault, Reported.value_bind]
  split
  · rename_i d hd
    exact respond_handled hd
  · exact Handled.refl c

end Context

namespace Script

theorem run_handled (help : String) (s : Script κ α) (c : Context κ) :
    c.Handled (s.run help c).context := by
  induction s generalizing c with
  | done a => exact Context.Handled.refl c
  | raise f => exact Context.Handled.refl c
  | say text next ih => exact ih c
  | look next ih => exact ih _ c
  | answer r next ih =>
    simp only [run]
    split
    · rename_i d hd
      exact (Context.respond_handled hd).trans (ih none d)
    · rename_i b hb
      exact ih (some b) c
  | ask prompt k next ih =>
    simp only [run]
    split
    · rename_i d hd
      exact (Context.ask_handled hd).trans (ih none d)
    · rename_i b hb
      exact ih (some b) c

end Script

theorem Context.carryOut_handled (c : Context κ) (help : String) (s : Script κ α) :
    c.Handled (c.carryOut help s).value.1 := by
  have hrun := s.run_handled help c
  simp only [carryOut, Reported.value_bind]
  split
  · exact hrun
  · exact hrun.trans (fault_handled _ _)

end CommandConsole
