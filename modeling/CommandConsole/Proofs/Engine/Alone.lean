import CommandConsole.Proofs.Engine.Begun
import CommandConsole.Proofs.Engine.Commands
import CommandConsole.Proofs.Engine.Pooling

/-! What an engine has been set up with, apart from all else that it has been through. -/
namespace CommandConsole

variable {κ : Type}

/-- A use that changes commands or parsers, and nothing else that can be seen. -/
def Use.setsUp (u : Use κ) : Bool :=
  match u.operation with
  | .register _ | .registerCommand _ | .unregisterCommand _ | .disturb _ | .registerParser _ _ => true
  | _ => false

namespace Engine

variable {e e' : Engine κ} {u : Use κ}

/-- Two engines with the same commands and the same parsers. -/
structure Equipped (e e' : Engine κ) : Prop where
  commands : e'.commands = e.commands
  parsers : e'.parsers = e.parsers

theorem Equipped.rfl : Equipped e e := ⟨.refl _, .refl _⟩

theorem Equipped.registerCommand (h : Equipped e e') (d : CommandDeclaration κ) :
    problemOf (e'.registerCommand d).value.1 = problemOf (e.registerCommand d).value.1 ∧
      Equipped (e.registerCommand d).value.2 (e'.registerCommand d).value.2 := by
  simp only [Engine.registerCommand, Reported.value_bind, h.commands, h.parsers]
  split
  · exact ⟨.refl _, h⟩
  · exact ⟨.refl _, .refl _, .refl _⟩

theorem Equipped.register (h : Equipped e e') (d : CommandDeclaration κ) :
    Equipped (e.register d).value.2 (e'.register d).value.2 := by
  obtain ⟨hproblem, heq⟩ := h.registerCommand d
  simp only [Engine.register, Reported.value_bind]
  generalize (e.registerCommand d).value = x at hproblem heq ⊢
  generalize (e'.registerCommand d).value = y at hproblem heq ⊢
  obtain ⟨_ | _, _⟩ := x <;> obtain ⟨_ | _, _⟩ := y
  · exact heq
  · cases hproblem
  · cases hproblem
  · exact ⟨heq.commands, heq.parsers⟩

/-- Setting up depends on nothing else. -/
theorem Equipped.use (h : Equipped e e') (hu : u.setsUp = true) :
    Equipped (e.use u).after (e'.use u).after := by
  obtain ⟨operation, code⟩ := u
  cases operation with
  | register d =>
    simp only [Engine.use, perform, Reported.value_bind, Reported.value_pure]
    exact h.register d
  | registerCommand d =>
    simp only [Engine.use, perform, Reported.value_bind, Reported.value_pure]
    exact (h.registerCommand d).2
  | unregisterCommand name =>
    exact ⟨congrArg (fun c => (c.unregister name).2) h.commands, h.parsers⟩
  | disturb changes => exact ⟨congrArg (·.changed changes) h.commands, h.parsers⟩
  | registerParser key p =>
    exact ⟨h.commands, congrArg (fun ps => ps.register key p) h.parsers⟩
  | _ => cases hu

/-- Everything else leaves the parsers alone. -/
theorem parsers_use (h : Rested e.runners) (hu : ¬u.setsUp = true) :
    (e.use u).after.parsers = e.parsers := by
  obtain ⟨operation, code⟩ := u
  let := code
  cases operation with
  | execute line invoker meanwhile =>
    obtain ⟨_, _, _, _, _, _, hr⟩ := execute_frame h line invoker meanwhile
    simp only [use, perform, Reported.value_bind, Reported.value_pure, hr]
  | tick meanwhile =>
    obtain ⟨commands, runners, conversations, pool, hr, -⟩ := tick_frame h meanwhile
    simp only [use, perform, Reported.value_bind, Reported.value_pure, hr, polled]
  | endConversation key =>
    obtain ⟨pool, hr⟩ := e.endConversation_frame key
    simp only [use, perform, Reported.value_bind, Reported.value_pure, hr]
  | elapse d => rfl
  | work opened => rfl
  | workerEnds id result => rfl
  | _ => exact absurd (.refl true) hu

/-- What an engine has become, in whatever way, it can also be set up to be. -/
theorem exists_equipped (config : Config) (us : List (Use κ)) :
    ∃ vs : List (Use κ), (∀ v ∈ vs, v.setsUp = true) ∧
      Equipped ((ofConfig config).after us) ((ofConfig config).after vs) := by
  induction us using List.reverseRecOn with
  | nil => exact ⟨[], by simp, .rfl⟩
  | append_singleton us u ih =>
    obtain ⟨vs, hvs, heq⟩ := ih
    rw [after_append]
    by_cases hu : u.setsUp = true
    · refine ⟨vs ++ [u], by simpa [or_imp, forall_and] using ⟨hvs, hu⟩, ?_⟩
      rw [after_append]
      exact heq.use hu
    · let := u.code
      obtain ⟨changes, hchanges⟩ := ((ofConfig config).after us).commands_perform u.operation
      refine ⟨vs ++ [⟨.disturb changes, u.code⟩],
        by simpa [or_imp, forall_and] using ⟨hvs, .refl _⟩, ?_⟩
      rw [after_append]
      refine ⟨?_, heq.parsers.trans (parsers_use (sound_after config us).rested hu).symm⟩
      exact (congrArg (·.changed changes) heq.commands).trans hchanges.symm

/-- An engine in which nothing has been run. -/
structure Fresh (e : Engine κ) : Prop where
  nothingSuspended : e.schedule.pending = []
  nothingOpen : e.conversations = []
  nothingRun : e.lastRun = 0

theorem Fresh.use (h : Fresh e) (hu : u.setsUp = true) : Fresh (e.use u).after := by
  obtain ⟨operation, code⟩ := u
  cases operation with
  | register d =>
    obtain ⟨commands, runners, hr, -⟩ := e.register_frame d
    simp only [Engine.use, perform, Reported.value_bind, Reported.value_pure, hr]
    exact ⟨h.nothingSuspended, h.nothingOpen, h.nothingRun⟩
  | registerCommand d =>
    obtain ⟨commands, hr⟩ := e.registerCommand_frame d
    simp only [Engine.use, perform, Reported.value_bind, Reported.value_pure, hr]
    exact ⟨h.nothingSuspended, h.nothingOpen, h.nothingRun⟩
  | unregisterCommand name => exact ⟨h.nothingSuspended, h.nothingOpen, h.nothingRun⟩
  | disturb changes => exact ⟨h.nothingSuspended, h.nothingOpen, h.nothingRun⟩
  | registerParser key p => exact ⟨h.nothingSuspended, h.nothingOpen, h.nothingRun⟩
  | _ => cases hu

theorem fresh_after (config : Config) {vs : List (Use κ)} (hall : ∀ v ∈ vs, v.setsUp = true) :
    Fresh ((ofConfig config).after vs) := by
  have hfresh : Fresh (ofConfig config : Engine κ) := ⟨.refl _, .refl _, .refl _⟩
  generalize ofConfig config = e at hfresh
  induction vs generalizing e with
  | nil => exact hfresh
  | cons v vs ih =>
    exact ih (fun u hu => hall u (List.mem_cons_of_mem v hu)) _
      (hfresh.use (hall v List.mem_cons_self))

/-- Which run a line begins is a matter of the commands alone, as long as no conversation takes it. -/
theorem begun?_of_equipped {line : String} {invoker : Invoker} (h : Equipped e e')
    (used : e.pool.Used) (used' : e'.pool.Used)
    (free : e.conversations.find? invoker.conversationKey = none)
    (free' : e'.conversations.find? invoker.conversationKey = none) :
    e'.begun? line invoker = e.begun? line invoker := by
  have hrequest : e'.request? line invoker = e.request? line invoker := by
    simp only [request?, h.commands]
  simp only [begun?, free, free', hrequest]
  cases e.request? line invoker with
  | none => rfl
  | some x =>
    obtain ⟨command, q⟩ := x
    simp only [q.bind_fst_eq command.overloads used used']

/-- A line that begins a run does so in an engine that has only been set up, if that is equipped
alike. -/
theorem begun?_alone {config : Config} {us vs : List (Use κ)} {line : String} {invoker : Invoker}
    {x : Command κ × Context κ} (h : ((ofConfig config).after us).begun? line invoker = some x)
    (hall : ∀ v ∈ vs, v.setsUp = true)
    (heq : Equipped ((ofConfig config).after us) ((ofConfig config).after vs)) :
    ((ofConfig config).after vs).begun? line invoker = some x := by
  have hopen := (fresh_after config hall).nothingOpen
  rw [← h]
  apply begun?_of_equipped heq (used_after config us) (used_after config vs)
  · exact (begun?_spec h).1
  · rw [hopen]
    rfl

end Engine
end CommandConsole
