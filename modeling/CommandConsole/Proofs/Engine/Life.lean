import CommandConsole.Engine
import CommandConsole.Proofs.Running

/-! The life of an engine: what its host asks of it, one use after another, and what it answers. -/
namespace CommandConsole

variable {κ : Type}

/-- What a host may ask of an engine, and what may happen to it in between. While a line is run, and
before the runner of a finished run comes back in a tick, handlers and others may change the
catalogue. -/
inductive Operation (κ : Type) where
  | execute (line : String) (invoker : Invoker) (meanwhile : List (Catalogue.Change κ) := [])
  | tick (meanwhile : RunId → List (Catalogue.Change κ) := fun _ => [])
  | register (d : CommandDeclaration κ)
  /-- A change to the catalogue that the engine is not told of. -/
  | registerCommand (d : CommandDeclaration κ)
  /-- Another such change. -/
  | unregisterCommand (name : String)
  /-- More such changes, with any parsers. -/
  | disturb (changes : List (Catalogue.Change κ))
  | registerParser (key : String) (p : ValueParser)
  | endConversation (key : String)
  | elapse (d : Duration)
  /-- All workers go as far as they can. -/
  | work (opened : List String)
  /-- The worker of one run ends with a result, or is lost, before any other. -/
  | workerEnds (id : RunId) (result : Except Fault Response)

/-- What an operation is answered with. -/
inductive Answer where
  | dispatch (d : Dispatch)
  | completions (cs : List Completion)
  | registered (problem : Option Error)
  | found (b : Bool)
  | done

/-- One use of an engine: an operation, and the behaviour of handlers while it lasts. -/
structure Use (κ : Type) where
  operation : Operation κ
  code : Code κ

/-- One use seen from outside: the engine before it, the operation, the answer, the engine after. -/
structure Moment (κ : Type) where
  before : Engine κ
  operation : Operation κ
  answer : Answer
  after : Engine κ

/-- The worker of the run of the given number ends with a result. -/
def Schedule.workerEnds {τ : Type} (s : Schedule κ τ) (id : RunId)
    (result : Except Fault Response) : Schedule κ τ :=
  { s with
    pending := s.pending.map fun p =>
      if p.id = id then { p with runner := p.runner.workerEnds result } else p }

theorem Schedule.held_workerEnds {τ : Type} (s : Schedule κ τ) (id : RunId)
    (result : Except Fault Response) :
    (s.workerEnds id result).held = s.held := by
  simp only [held, workerEnds, List.map_map]
  apply List.map_congr_left
  intro p _
  simp only [Function.comp]
  split
  · rw [(p.runner.workerEnds_aside result).context?_eq]
  · rfl

def problemOf {α : Type} : Except Error α → Option Error
  | .ok _ => none
  | .error e => some e

namespace Engine

def perform [Code κ] (e : Engine κ) : Operation κ → Reported (Answer × Engine κ)
  | .execute line invoker meanwhile => do
    let x ← e.execute line invoker meanwhile
    pure (.dispatch x.1, x.2)
  | .tick meanwhile => do
    let x ← e.tick meanwhile
    pure (.completions x.1, x.2)
  | .register d => do
    let x ← e.register d
    pure (.registered (problemOf x.1), x.2)
  | .registerCommand d => do
    let x ← e.registerCommand d
    pure (.registered (problemOf x.1), x.2)
  | .unregisterCommand name =>
    let x := e.unregisterCommand name
    pure (.found x.1.isSome, x.2)
  | .disturb changes => do
    let e ← e.disturb changes
    pure (.done, e)
  | .registerParser key p => do
    let x ← e.registerParser key p
    pure (.done, x)
  | .endConversation key => do
    let x ← e.endConversation key
    pure (.found x.1, x.2)
  | .elapse d => pure (.done, e.elapse d)
  | .work opened => pure (.done, e.work opened)
  | .workerEnds id result =>
    pure (.done, { e with schedule := e.schedule.workerEnds id result })

/-- The moment of a use. -/
def use (e : Engine κ) (u : Use κ) : Moment κ :=
  letI := u.code
  let x := (e.perform u.operation).value
  ⟨e, u.operation, x.1, x.2⟩

/-- The engine after some uses. -/
def after (e : Engine κ) : List (Use κ) → Engine κ
  | [] => e
  | u :: us => (e.use u).after.after us

/-- The moments of some uses, in order. -/
def moments (e : Engine κ) : List (Use κ) → List (Moment κ)
  | [] => []
  | u :: us => e.use u :: (e.use u).after.moments us

theorem after_append (e : Engine κ) (us vs : List (Use κ)) :
    e.after (us ++ vs) = (e.after us).after vs := by
  induction us generalizing e with
  | nil => rfl
  | cons u us ih => exact ih (e.use u).after

theorem moments_append (e : Engine κ) (us vs : List (Use κ)) :
    e.moments (us ++ vs) = e.moments us ++ (e.after us).moments vs := by
  induction us generalizing e with
  | nil => rfl
  | cons u us ih => exact congrArg (e.use u :: ·) (ih (e.use u).after)

/-- Whatever happens in the course of some uses is one of them, after those before it. -/
theorem exists_use_of_moments {e : Engine κ} {us : List (Use κ)} {past future : List (Moment κ)}
    {m : Moment κ} (h : e.moments us = past ++ m :: future) :
    ∃ vs u ws, us = vs ++ u :: ws ∧ past = e.moments vs ∧ m = (e.after vs).use u := by
  induction past generalizing e us with
  | nil =>
    cases us with
    | nil => cases h
    | cons u us =>
      rw [moments, List.nil_append, List.cons.injEq] at h
      exact ⟨[], u, us, rfl, rfl, h.1.symm⟩
  | cons n past ih =>
    cases us with
    | nil => cases h
    | cons u us =>
      rw [moments, List.cons_append, List.cons.injEq] at h
      obtain ⟨vs, w, ws, rfl, rfl, hm⟩ := ih h.2
      exact ⟨u :: vs, w, ws, rfl, by rw [moments, h.1], hm⟩

theorem registerCommand_frame (e : Engine κ) (d : CommandDeclaration κ) :
    ∃ commands, (e.registerCommand d).value.2 = { e with commands } := by
  simp only [registerCommand, Reported.value_bind]
  split
  · exact ⟨e.commands, rfl⟩
  · rename_i command commands _
    exact ⟨commands, rfl⟩

/-- Registering changes commands and throws idle runners away. -/
theorem register_frame (e : Engine κ) (d : CommandDeclaration κ) :
    ∃ commands runners, (e.register d).value.2 = { e with commands, runners } ∧
      runners.Sublist e.runners := by
  obtain ⟨commands, hc⟩ := e.registerCommand_frame d
  simp only [register, Reported.value_bind]
  generalize (e.registerCommand d).value = x at hc ⊢
  obtain ⟨_ | command, e'⟩ := x
  · exact ⟨commands, e.runners, hc, .refl _⟩
  · simp only at hc
    subst hc
    exact ⟨commands, e.runners.erase command.name, rfl, Table.erase_sublist _ _⟩

theorem endConversation_frame (e : Engine κ) (key : String) :
    ∃ pool, (e.endConversation key).value.2 =
      { e with conversations := e.conversations.erase key, pool } := by
  simp only [endConversation]
  split
  · rename_i h
    exact ⟨e.pool, by rw [Table.erase_of_find?_eq_none h]; rfl⟩
  · rename_i old _
    exact ⟨e.pool.giveBack old.invocation.arguments, rfl⟩

/-- What holds at first and is kept by every operation, whatever handlers do, holds all along. -/
theorem after_keeps {P : Engine κ → Prop}
    (keeps : ∀ (e : Engine κ) [Code κ] (o : Operation κ), P e → P (e.perform o).value.2)
    {e : Engine κ} (h : P e) (us : List (Use κ)) : P (e.after us) := by
  induction us generalizing e with
  | nil => exact h
  | cons u us ih =>
    apply ih
    let := u.code
    exact keeps e u.operation h

end Engine
end CommandConsole
