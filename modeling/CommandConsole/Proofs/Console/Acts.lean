import CommandConsole.Console.Session
import CommandConsole.Proofs.Engine.Life

/-! What a host does with a session, and what that asks of the engine: the texts in the history are
the lines executed, in their order and for the invoker of the console. -/
namespace CommandConsole

variable {κ : Type}

/-- The line that an operation executes, and for whom. -/
def Operation.executed? : Operation κ → Option (String × Invoker)
  | .execute line invoker => some (line, invoker)
  | _ => none

namespace Console

variable [Code κ] (c : Console κ)

theorem console_handle (line : String) :
    (c.handle line).value.2 =
      { c with engine := (c.engine.execute line c.invoker).value.2 } := by
  simp only [handle, Reported.value_bind]
  split <;> rfl

theorem console_advance (id : RunId) (responses : List Response) :
    ∃ engine, (c.advance id responses).value.2 = { c with engine } ∧
      (engine = (c.engine.work []).tick.value.2 ∨
        engine = (c.engine.work []).tick.value.2.elapse tickInterval) := by
  simp only [advance, Reported.value_bind]
  split
  · exact ⟨_, rfl, .inl rfl⟩
  · exact ⟨_, rfl, .inr rfl⟩

end Console

namespace Session

/-- What a host can do with a session: give it what reading a line has come to, or let time pass. -/
inductive Deed where
  | read (r : ReadResult)
  | advance

/-- One deed, and the behaviour of handlers while it lasts. -/
structure Act (κ : Type) where
  deed : Deed
  code : Code κ

/-- The session after an act. -/
def act (s : Session κ) (a : Act κ) : Session κ :=
  letI := a.code
  match a.deed with
  | .read r => (s.read r).value
  | .advance => s.advance.value

/-- The session after some acts. -/
def after (s : Session κ) : List (Act κ) → Session κ
  | [] => s
  | a :: as => (s.act a).after as

/-- What has been read of a text, and one more line. -/
def extended : Option String → String → String
  | none, line => line
  | some before, line => before ++ " " ++ line

/-- How a session goes on with a line that has come so far. -/
def stageOf : Progress → Stage
  | .answered _ => .reading none
  | .waiting id responses => .handling (.waiting id responses)

theorem proceed_value (s : Session κ) (p : Progress) :
    (s.proceed p).value = { s with stage := stageOf p } := by
  cases p <;> rfl

theorem interrupt_value (s : Session κ) (unfinished : Bool) :
    (s.interrupt unfinished).value =
      { s with
        console := { s.console with
          engine := (s.console.engine.endConversation s.console.invoker.conversationKey).value.2 }
        stage := .reading none } := rfl

theorem start_value (c : Console κ) :
    (start c).value = ⟨c, .reading none, [], c.engine.commands.names⟩ := by
  simp only [start]
  split <;> rfl

section Reading

variable [Code κ] {s : Session κ} {text : String}

theorem submit_blank (h : Text.trim text = "") :
    (s.submit text).value = { s with stage := .reading none } := by
  rw [submit, if_pos h]
  rfl

theorem submit_value (h : Text.trim text ≠ "") :
    ∃ p, (s.submit text).value =
      { s with
        console := { s.console with
          engine := (s.console.engine.execute text s.console.invoker).value.2 }
        history := s.history ++ [text]
        stage := stageOf p } := by
  refine ⟨(s.console.handle text).value.1, ?_⟩
  rw [submit, if_neg h, Reported.value_bind, proceed_value, Console.console_handle]

/-- A session that is not reading takes no notice of what is read. -/
theorem read_unheeded (h : ∀ input, s.stage ≠ .reading input) (r : ReadResult) :
    (s.read r).value = s := by
  rcases hstage : s.stage with input | p | result
  · exact (h input hstage).elim
  · simp only [Session.read, hstage]
    rfl
  · simp only [Session.read, hstage]
    rfl

theorem addLine_eq (s : Session κ) (input : Option String) (line : String) :
    s.addLine input line =
      if Line.isBalanced (extended input line) then s.submit (extended input line)
      else pure { s with stage := .reading (some (extended input line)) } := by
  cases input <;> rfl

end Reading

/-- A session has come to another by uses of its engine, and has noted the lines executed. -/
structure Comes (s t : Session κ) (us : List (Use κ)) : Prop where
  invoker : t.console.invoker = s.console.invoker
  engine : t.console.engine = s.console.engine.after us
  executed : t.history.map (·, s.console.invoker) =
    s.history.map (·, s.console.invoker) ++ us.filterMap (·.operation.executed?)

variable {s t u : Session κ} {us vs : List (Use κ)}

theorem Comes.refl (s : Session κ) (stage : Stage) : Comes s { s with stage } [] :=
  ⟨rfl, rfl, by simp⟩

theorem Comes.trans (h : Comes s t us) (h' : Comes t u vs) : Comes s u (us ++ vs) := by
  refine ⟨h'.invoker.trans h.invoker, ?_, ?_⟩
  · rw [h'.engine, h.engine, Engine.after_append]
  · have hexecuted := h'.executed
    rw [h.invoker, h.executed, List.append_assoc] at hexecuted
    rw [hexecuted, List.filterMap_append]

theorem exists_comes_submit [code : Code κ] (s : Session κ) (text : String) :
    ∃ us, Comes s (s.submit text).value us := by
  by_cases h : Text.trim text = ""
  · rw [submit_blank h]
    exact ⟨[], .refl s _⟩
  · obtain ⟨p, hsubmit⟩ := submit_value (s := s) h
    rw [hsubmit]
    refine ⟨[⟨.execute text s.console.invoker, code⟩], rfl, rfl, ?_⟩
    simp [Operation.executed?]

theorem exists_comes_interrupt [code : Code κ] (s : Session κ) (unfinished : Bool) :
    ∃ us, Comes s (s.interrupt unfinished).value us := by
  rw [interrupt_value]
  refine ⟨[⟨.endConversation s.console.invoker.conversationKey, code⟩], rfl, rfl, ?_⟩
  simp [Operation.executed?]

theorem exists_comes_read [code : Code κ] (s : Session κ) (r : ReadResult) :
    ∃ us, Comes s (s.read r).value us := by
  simp only [Session.read]
  split
  · rw [addLine_eq]
    split
    · exact exists_comes_submit s _
    · exact ⟨[], .refl s _⟩
  · exact exists_comes_interrupt s _
  · exact ⟨[], .refl s _⟩
  · exact ⟨[], .refl s _⟩
  · exact ⟨[], .refl s _⟩
  · exact ⟨[], .refl s s.stage⟩

theorem exists_comes_advance [code : Code κ] (s : Session κ) :
    ∃ us, Comes s s.advance.value us := by
  simp only [Session.advance]
  split
  · rename_i id responses _
    obtain ⟨engine, hconsole, hengine⟩ := s.console.console_advance id responses
    rw [Reported.value_bind, proceed_value, hconsole]
    rcases hengine with rfl | rfl
    · exact ⟨[⟨.work [], code⟩, ⟨.tick, code⟩], rfl, rfl, by simp [Operation.executed?]⟩
    · exact ⟨[⟨.work [], code⟩, ⟨.tick, code⟩, ⟨.elapse Console.tickInterval, code⟩], rfl, rfl,
        by simp [Operation.executed?]⟩
  · rw [proceed_value]
    exact ⟨[], .refl s _⟩
  · exact ⟨[], .refl s s.stage⟩

theorem exists_comes_act (s : Session κ) (a : Act κ) : ∃ us, Comes s (s.act a) us := by
  obtain ⟨deed, code⟩ := a
  cases deed with
  | read r => exact exists_comes_read s r
  | advance => exact exists_comes_advance s

/-- Whatever a host does with a session, the lines executed are those in its history. -/
theorem exists_comes (s : Session κ) (acts : List (Act κ)) :
    ∃ us, Comes s (s.after acts) us := by
  induction acts generalizing s with
  | nil => exact ⟨[], .refl s s.stage⟩
  | cons a acts ih =>
    obtain ⟨us, h⟩ := s.exists_comes_act a
    obtain ⟨vs, h'⟩ := ih (s.act a)
    exact ⟨us ++ vs, h.trans h'⟩

/-- Whatever a host does with the session of a console, the texts in its history are what the engine
executes, in their order and for the invoker of the console. -/
theorem exists_uses_of_acts (c : Console κ) (acts : List (Act κ)) :
    ∃ uses, ((start c).value.after acts).console.engine = c.engine.after uses ∧
      uses.filterMap (·.operation.executed?) =
        ((start c).value.after acts).history.map (·, c.invoker) := by
  obtain ⟨uses, h⟩ := (start c).value.exists_comes acts
  rw [start_value] at h ⊢
  exact ⟨uses, h.engine, h.executed.symm⟩

end Session
end CommandConsole
