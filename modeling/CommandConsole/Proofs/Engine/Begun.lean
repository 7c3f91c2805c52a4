import CommandConsole.Proofs.Engine.Course
import CommandConsole.Proofs.Engine.Sights

/-! The run that a line begins, if it begins one. -/
namespace CommandConsole.Engine

variable {κ : Type} {e : Engine κ} {line : String} {invoker : Invoker} {command : Command κ}
  {c : Context κ} {q : BindRequest}

/-- The command that a line runs, and the context in which it is run. -/
def begun? (e : Engine κ) (line : String) (invoker : Invoker) : Option (Command κ × Context κ) :=
  match e.conversations.find? invoker.conversationKey, e.request? line invoker with
  | none, some (command, q) =>
    match (q.bind command.overloads e.pool).1 with
    | .ok b =>
      some (command,
        .ofInvocation (.start command.name line (q.words.map (·.text)) b.arguments invoker))
    | .error _ => none
  | _, _ => none

/-- A line is bound if its first word is not in trouble and names a command which the invoker may
use. -/
theorem request?_eq_some_iff : e.request? line invoker = some (command, q) ↔
    ∃ name words, (Line.cut line).words = name :: words ∧
      (Line.cut line).problem.filter (·.position < name.stop) = none ∧
      e.commands.find? name.text = some command ∧
      command.permission.filter (!invoker.hasPermission ·) = none ∧
      q = ⟨command.name, line, words, invoker, (Line.cut line).problem⟩ := by
  constructor
  · intro h
    simp only [request?] at h
    split at h
    · cases h
    rename_i name words hwords
    split at h
    · rename_i found hproblem hfound
      split at h
      · rename_i hpermission
        injection h with h
        injection h with hcommand hq
        subst hcommand
        exact ⟨name, words, hwords, hproblem, hfound, hpermission, hq.symm⟩
      · cases h
    · cases h
  · rintro ⟨name, words, hwords, hproblem, hfound, hpermission, rfl⟩
    simp only [request?, hwords, hproblem, hfound, hpermission]

theorem begun?_spec (h : e.begun? line invoker = some (command, c)) :
    e.conversations.find? invoker.conversationKey = none ∧ ∃ q b,
      e.request? line invoker = some (command, q) ∧
      (q.bind command.overloads e.pool).1 = .ok b ∧
      c = .ofInvocation
        (.start command.name line (q.words.map (·.text)) b.arguments invoker) := by
  simp only [begun?] at h
  split at h
  · rename_i found q hfree hrequest
    split at h
    · rename_i b hbound
      injection h with h
      injection h with hfound hc
      subst hfound
      exact ⟨hfree, q, b, hrequest, hbound, hc.symm⟩
    · cases h
  · cases h

theorem begun?_eq_none_iff (free : e.conversations.find? invoker.conversationKey = none) :
    e.begun? line invoker = none ↔ ∀ command q, e.request? line invoker = some (command, q) →
      ∃ problem, (q.bind command.overloads e.pool).1 = .error problem := by
  simp only [begun?, free]
  constructor
  · intro h command q hrequest
    simp only [hrequest] at h
    split at h
    · cases h
    · rename_i problem hbound
      exact ⟨problem, hbound⟩
  · intro h
    split
    · rename_i command q _ hrequest
      obtain ⟨problem, hbound⟩ := h command q hrequest
      simp only [hbound]
    · rfl

theorem admission_of_begun (h : e.begun? line invoker = some (command, c)) :
    ∃ pool, e.pool.Lends 1 pool ∧
      (e.admission line invoker).value = (.ok (command, c), { e with pool }) := by
  obtain ⟨-, q, b, hrequest, hbound, rfl⟩ := begun?_spec h
  obtain ⟨hadmission, hcommand, hline, hinvoker⟩ := admission_of_request? hrequest
  obtain ⟨name, l, words, i, trouble⟩ := q
  subst hcommand hline hinvoker
  have hlends := BindRequest.bind_lends ⟨command.name, l, words, i, trouble⟩ command.overloads e.pool
  cases hq : BindRequest.bind ⟨command.name, l, words, i, trouble⟩ command.overloads e.pool with
  | mk result pool =>
    rw [hq] at hbound hlends
    simp only at hbound
    subst hbound
    exact ⟨pool, hlends, by rw [hadmission, prepare_of_ok hq]⟩

theorem admission_of_not_begun (free : e.conversations.find? invoker.conversationKey = none)
    (h : e.begun? line invoker = none) :
    ∃ (response : Response) (pool : Pool),
      (e.admission line invoker).value = (.error response, { e with pool }) ∧
      response.kind = .fail ∧ e.pool.Lends 0 pool := by
  rw [begun?_eq_none_iff free] at h
  cases hq : e.request? line invoker with
  | none =>
    obtain ⟨response, hadmission, hfail⟩ := admission_of_no_request? hq
    exact ⟨response, e.pool, hadmission, hfail, e.pool.lends_zero⟩
  | some x =>
    obtain ⟨command, q⟩ := x
    obtain ⟨problem, hbound⟩ := h command q hq
    obtain ⟨hadmission, hcommand, hline, hinvoker⟩ := admission_of_request? hq
    obtain ⟨name, l, words, i, trouble⟩ := q
    subst hcommand hline hinvoker
    have hlends :=
      BindRequest.bind_lends ⟨command.name, l, words, i, trouble⟩ command.overloads e.pool
    cases hq : BindRequest.bind ⟨command.name, l, words, i, trouble⟩ command.overloads e.pool with
    | mk result pool =>
      rw [hq] at hbound hlends
      simp only at hbound
      subst hbound
      exact ⟨_, pool, by rw [hadmission, prepare_of_error hq], rfl, hlends⟩

section Code

variable [Code κ]

/-- A line that begins a run has its command started, with storage for its arguments. -/
theorem value_execute_of_begun (h : e.begun? line invoker = some (command, c))
    (meanwhile : List (Catalogue.Change κ)) :
    ∃ pool, e.pool.Lends 1 pool ∧
      (e.execute line invoker meanwhile).value =
        ({ e with pool }.start command c meanwhile).value := by
  obtain ⟨pool, hlends, hadmission⟩ := admission_of_begun h
  refine ⟨pool, hlends, ?_⟩
  simp only [execute, (begun?_spec h).1, dispatch, Reported.value_bind, hadmission, proceed]

/-- Its run is over at once, or suspended. -/
theorem started_of_begun (hr : Rested e.runners) (h : e.begun? line invoker = some (command, c))
    (meanwhile : List (Catalogue.Change κ)) :
    ∃ pool, Started { e with pool } command c (e.execute line invoker meanwhile).value := by
  obtain ⟨pool, -, hexecute⟩ := value_execute_of_begun h meanwhile
  rw [hexecute]
  exact ⟨pool, start_started (e := { e with pool }) hr command c meanwhile⟩

/-- A line that begins no run fails, and at most storage has been taken and given back. -/
theorem value_execute_of_not_begun (free : e.conversations.find? invoker.conversationKey = none)
    (h : e.begun? line invoker = none) (meanwhile : List (Catalogue.Change κ)) :
    ∃ response pool,
      (e.execute line invoker meanwhile).value = (.completed response, { e with pool }) ∧
      response.kind = .fail ∧ e.pool.Lends 0 pool := by
  obtain ⟨response, pool, hadmission, hfail, hlends⟩ := admission_of_not_begun free h
  refine ⟨response, pool, ?_, hfail, hlends⟩
  simp only [execute, free, dispatch, Reported.value_bind, hadmission, proceed, Reported.value_pure]

/-- A line that begins no run suspends nothing. -/
theorem schedule_execute_of_not_begun (h : Rested e.runners)
    (hnone : e.begun? line invoker = none) (meanwhile : List (Catalogue.Change κ)) :
    (e.execute line invoker meanwhile).value.2.schedule = e.schedule := by
  have hx := execute_executed h line invoker meanwhile
  generalize hvalue : (e.execute line invoker meanwhile).value = x at hx
  cases hx with
  | refused pool free failed returned => rfl
  | misread waiting malformed => rfl
  | replied waiting read handled responded =>
    obtain ⟨response, conversations, pool, hc⟩ := concluded_frame _ _
    rw [hc]
  | answered free addressed handled responded rented rested =>
    obtain ⟨response, conversations, pool, hc⟩ := concluded_frame _ _
    rw [hc]
  | suspended free addressed handled holds rented rested =>
    obtain ⟨response, pool, hfailed, -⟩ := value_execute_of_not_begun free hnone meanwhile
    rw [hfailed] at hvalue
    cases hvalue

end Code

/-- A first line that begins no run is answered with a failure, and leaves all but the pool as it
is. -/
theorem use_of_not_begun (free : e.conversations.find? invoker.conversationKey = none)
    (hnone : e.begun? line invoker = none) (meanwhile : List (Catalogue.Change κ)) (code : Code κ) :
    let m := e.use ⟨.execute line invoker meanwhile, code⟩
    (∃ pool, m.after = { e with pool }) ∧
      ∃ response, m.answer = .dispatch (.completed response) ∧ response.kind = .fail := by
  let := code
  obtain ⟨response, pool, hvalue, hfail, -⟩ := value_execute_of_not_begun free hnone meanwhile
  refine ⟨⟨pool, congrArg Prod.snd hvalue⟩, response, ?_, hfail⟩
  exact congrArg (fun x => Answer.dispatch x.1) hvalue

theorem begins_of_begun (hs : Sound e) (h : e.begun? line invoker = some (command, c))
    (meanwhile : List (Catalogue.Change κ)) (code : Code κ) :
    Begins e (e.use ⟨.execute line invoker meanwhile, code⟩) command
      ⟨.run c ⟨e.lastRun + 1⟩, e.help, code⟩ := by
  let := code
  obtain ⟨pool, -, hexecute⟩ := value_execute_of_begun h meanwhile
  obtain ⟨-, q, b, hrequest, -, -⟩ := begun?_spec h
  exact begins_of_started hs (addressed_of_request? hrequest) hexecute

end CommandConsole.Engine
