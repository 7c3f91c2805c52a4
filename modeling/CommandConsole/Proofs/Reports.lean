import CommandConsole.Engine

/-! Which conversations are reported as abandoned. Handlers, runners and registrations report of
none. -/
namespace CommandConsole

variable {κ α β : Type} {help : String}

/-- The conversation that an operator is told has made room. -/
def Note.abandoned? : Note → Option String
  | .event (.conversationAbandoned key) => some key
  | _ => none

namespace Reported

/-- The conversations that are reported as abandoned, in order. -/
def abandoned (x : Reported α) : List String := x.notes.filterMap Note.abandoned?

@[simp] theorem abandoned_pure (a : α) : (pure a : Reported α).abandoned = [] := rfl

@[simp] theorem abandoned_bind (x : Reported α) (f : α → Reported β) :
    (x >>= f).abandoned = x.abandoned ++ (f x.value).abandoned := by
  simp [abandoned]

@[simp] theorem abandoned_event (e : Event) :
    (event e).abandoned = (Note.abandoned? (.event e)).toList := by
  simp only [abandoned, notes_event, List.filterMap_cons, List.filterMap_nil]
  cases Note.abandoned? (.event e) <;> rfl

@[simp] theorem abandoned_said (texts : List String) :
    (⟨(), texts.map .said⟩ : Reported Unit).abandoned = [] := by
  simp [abandoned, List.filterMap_map, Function.comp_def, Note.abandoned?]

end Reported

@[simp] theorem Context.abandoned_fault (c : Context κ) (f : Fault) :
    (c.fault f).abandoned = [] := by
  simp only [fault, Reported.abandoned_bind, Reported.abandoned_event]
  split <;> rfl

@[simp] theorem Context.abandoned_carryOut (c : Context κ) (help : String) (s : Script κ α) :
    (c.carryOut help s).abandoned = [] := by
  simp only [carryOut, Reported.abandoned_bind, Reported.abandoned_said, List.nil_append]
  split <;> simp

namespace Runner

@[simp] theorem abandoned_collect (c : Context κ) (result : Except Fault Response) :
    (collect c result).abandoned = [] := by
  cases result with
  | error f => exact c.abandoned_fault f
  | ok response =>
    simp only [collect]
    split <;> simp

variable [Code κ]

@[simp] theorem abandoned_step (r : Runner κ) (help : String) (code : κ) (c : Context κ) :
    (r.step help code c).abandoned = [] := by
  simp only [step, Reported.abandoned_bind, Context.abandoned_carryOut, List.nil_append]
  split <;> rfl

@[simp] theorem abandoned_launch (r : Runner κ) (help : String) (code : κ) (c : Context κ) :
    (r.launch help code c).abandoned = [] := by
  simp only [launch, Reported.abandoned_bind, Reported.abandoned_said, List.nil_append]
  split <;> simp

@[simp] theorem abandoned_run (r : Runner κ) (help : String) (c : Context κ) (id : RunId) :
    (r.run help c id).abandoned = [] := by
  simp only [run]
  split
  · simp [Note.abandoned?]
  · cases r.execution <;> simp

@[simp] theorem abandoned_poll (r : Runner κ) (help : String) : (r.poll help).abandoned = [] := by
  simp only [poll]
  split
  · rfl
  · split
    · rfl
    · simp
    · simp
    · split <;> simp [Note.abandoned?]

end Runner

@[simp] theorem Schedule.abandoned_tick {τ : Type} [Code κ] (s : Schedule κ τ) (help : String) :
    (s.tick help).abandoned = [] := by
  have hpoll : ∀ ps : List (Suspended κ τ), (pollAll help ps).abandoned = [] := by
    intro ps
    induction ps with
    | nil => rfl
    | cons p rest ih =>
      simp only [pollAll, Reported.abandoned_bind, Runner.abandoned_poll, ih, List.nil_append]
      split <;> rfl
  simp [tick, hpoll]

@[simp] theorem Catalogue.abandoned_register (c : Catalogue κ) (d : CommandDeclaration κ)
    (parsers : ParserRegistry) : (c.register d parsers).abandoned = [] := by
  simp only [register]
  split
  · rfl
  · split <;> simp [Note.abandoned?]

@[simp] theorem Catalogue.abandoned_change (c : Catalogue κ) (x : Change κ) :
    (c.change x).abandoned = [] := by
  cases x with
  | register d parsers =>
    simp only [change, Reported.abandoned_bind, abandoned_register, List.nil_append]
    split <;> rfl
  | unregister name => rfl

@[simp] theorem Catalogue.abandoned_changeAll (c : Catalogue κ) (changes : List (Change κ)) :
    (c.changeAll changes).abandoned = [] := by
  induction changes generalizing c with
  | nil => rfl
  | cons x rest ih => simp [changeAll, ih]

namespace Engine

@[simp] theorem abandoned_disturb (e : Engine κ) (changes : List (Catalogue.Change κ)) :
    (e.disturb changes).abandoned = [] := by
  simp [disturb]

@[simp] theorem abandoned_registerCommand (e : Engine κ) (d : CommandDeclaration κ) :
    (e.registerCommand d).abandoned = [] := by
  simp only [registerCommand, Reported.abandoned_bind, Catalogue.abandoned_register, List.nil_append]
  split <;> rfl

@[simp] theorem abandoned_register (e : Engine κ) (d : CommandDeclaration κ) :
    (e.register d).abandoned = [] := by
  simp only [register, Reported.abandoned_bind, abandoned_registerCommand, List.nil_append]
  split <;> rfl

@[simp] theorem abandoned_prepare (e : Engine κ) (command : Command κ) (line : String)
    (words : List Word) (invoker : Invoker) (trouble : Option ScanError) :
    (e.prepare command line words invoker trouble).abandoned = [] := by
  simp only [prepare]
  split <;> simp [Note.abandoned?]

@[simp] theorem abandoned_admission (e : Engine κ) (line : String) (invoker : Invoker) :
    (e.admission line invoker).abandoned = [] := by
  simp only [admission]
  split
  · rfl
  · split
    · simp [Note.abandoned?]
    · split
      · split <;> simp [Note.abandoned?]
      · split
        · simp [Note.abandoned?]
        · exact abandoned_prepare ..

@[simp] theorem abandoned_recycle (e : Engine κ) (origin : Command κ) (runner : Runner κ) :
    (e.recycle origin runner).abandoned = [] := by
  simp only [recycle]
  split
  · simp [Note.abandoned?]
  · split
    · rfl
    · split <;> rfl

end Engine
end CommandConsole
