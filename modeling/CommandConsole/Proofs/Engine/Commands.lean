import CommandConsole.Proofs.Catalogue.Names
import CommandConsole.Proofs.Engine.Pools
import CommandConsole.Proofs.Engine.Sights

/-! What becomes of the catalogue of an engine: it is changed as a host may change it, and in no
other way. -/
namespace CommandConsole

variable {κ : Type}

/-- Some changes make one catalogue into another. -/
def Catalogue.Becomes (c c' : Catalogue κ) : Prop := ∃ changes, c' = c.changed changes

namespace Catalogue.Becomes

variable {c c' c'' : Catalogue κ}

theorem refl (c : Catalogue κ) : c.Becomes c := ⟨[], rfl⟩

theorem of_changes (changes : List (Change κ)) : c.Becomes (c.changed changes) := ⟨changes, rfl⟩

theorem of_change (x : Change κ) : c.Becomes (c.change x).value := ⟨[x], rfl⟩

theorem trans (h : c.Becomes c') (h' : c'.Becomes c'') : c.Becomes c'' := by
  obtain ⟨xs, rfl⟩ := h
  obtain ⟨ys, rfl⟩ := h'
  exact ⟨xs ++ ys, (c.changed_append xs ys).symm⟩

end Catalogue.Becomes

namespace Engine

variable {e : Engine κ}

theorem commands_recycle (e : Engine κ) (origin : Command κ) (runner : Runner κ) :
    (e.recycle origin runner).value.commands = e.commands := by
  simp only [recycle]
  split
  · rfl
  · split
    · rfl
    · split <;> rfl

theorem commands_conclude (e : Engine κ) (c : Context κ) :
    (e.conclude c).value.2.commands = e.commands := by
  obtain ⟨conversations, pool, h⟩ := e.conclude_frame c
  rw [h]

/-- A finished run leaves the catalogue as it finds it, which may have changed meanwhile. -/
theorem commands_settled (e : Engine κ) (changes : List (Catalogue.Change κ))
    (f : Finished κ (Command κ)) (c : Context κ) :
    (e.settled changes f c).2.commands = e.commands.changed changes := by
  simp only [settled, commands_conclude, commands_recycle]
  rfl

theorem commands_settleAll (e : Engine κ) (meanwhile : RunId → List (Catalogue.Change κ))
    (fs : List (Finished κ (Command κ))) :
    e.commands.Becomes (e.settleAll meanwhile fs).value.2.commands := by
  apply settleAll_keeps (P := fun x => e.commands.Becomes x.commands) (Q := fun _ _ => True)
  · intro x f c h _
    rw [commands_settled]
    exact h.trans (.of_changes _)
  · intros
    trivial
  · exact .refl _

theorem commands_registerCommand (e : Engine κ) (d : CommandDeclaration κ) :
    (e.registerCommand d).value.2.commands =
      (e.commands.change (.register d e.parsers)).value := by
  rw [Catalogue.value_change_register]
  simp only [registerCommand, Reported.value_bind]
  cases (e.commands.register d e.parsers).value with
  | error err => rfl
  | ok added => rfl

theorem commands_register (e : Engine κ) (d : CommandDeclaration κ) :
    (e.register d).value.2.commands = (e.commands.change (.register d e.parsers)).value := by
  rw [← commands_registerCommand]
  simp only [register, Reported.value_bind]
  generalize (e.registerCommand d).value = x
  obtain ⟨err | command, e'⟩ := x
  · rfl
  · rfl

section Code

variable [Code κ]

/-- A run leaves the catalogue as it finds it at its end. -/
theorem commands_start (e : Engine κ) (command : Command κ) (c : Context κ)
    (meanwhile : List (Catalogue.Change κ)) :
    (e.start command c meanwhile).value.2.commands = e.commands.changed meanwhile := by
  obtain ⟨runners, hrent⟩ := rentRunner_frame { e with lastRun := e.lastRun + 1 } command
  simp only [start, Reported.value_bind, disturb_frame, hrent]
  split
  · rfl
  · simp only [Reported.value_bind, Reported.value_pure, commands_conclude, commands_recycle]
    rfl

theorem commands_execute (e : Engine κ) (line : String) (invoker : Invoker)
    (meanwhile : List (Catalogue.Change κ)) :
    e.commands.Becomes (e.execute line invoker meanwhile).value.2.commands := by
  have hx := e.execute_entered line invoker meanwhile
  generalize (e.execute line invoker meanwhile).value = x at hx
  cases hx with
  | refused pool free failed returned => exact .refl _
  | misread waiting malformed => exact .refl _
  | replied waiting read =>
    rw [concluded, commands_conclude]
    exact .refl _
  | started free addressed rented =>
    rw [commands_start]
    exact .of_changes _

/-- No operation changes the catalogue but as a host may. -/
theorem commands_perform (e : Engine κ) (o : Operation κ) :
    e.commands.Becomes (e.perform o).value.2.commands := by
  cases o with
  | execute line invoker meanwhile => exact e.commands_execute line invoker meanwhile
  | tick meanwhile =>
    simp only [perform, Reported.value_bind, Reported.value_pure, value_tick]
    exact e.polled.commands_settleAll meanwhile e.ended
  | register d =>
    simp only [perform, Reported.value_bind, Reported.value_pure, commands_register]
    exact .of_change _
  | registerCommand d =>
    simp only [perform, Reported.value_bind, Reported.value_pure, commands_registerCommand]
    exact .of_change _
  | unregisterCommand name => exact .of_change (.unregister name)
  | disturb changes => exact .of_changes changes
  | endConversation key =>
    obtain ⟨pool, hr⟩ := e.endConversation_frame key
    simp only [perform, Reported.value_bind, Reported.value_pure, hr]
    exact .refl _
  | registerParser key p => exact .refl _
  | elapse d => exact .refl _
  | work opened => exact .refl _
  | workerEnds id result => exact .refl _

end Code

/-- The catalogue of an engine is one that registrations and removals have brought about. -/
theorem commands_after (config : Config) (us : List (Use κ)) :
    ∃ changes, ((ofConfig config).after us).commands = Catalogue.empty.changed changes := by
  apply after_keeps (P := fun e => Catalogue.empty.Becomes e.commands)
  · exact fun e _ o h => h.trans (e.commands_perform o)
  · exact .refl _

end Engine
end CommandConsole
