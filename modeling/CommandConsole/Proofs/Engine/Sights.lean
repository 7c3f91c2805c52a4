import CommandConsole.Proofs.Bindings.Checks
import CommandConsole.Proofs.Engine.Life
import CommandConsole.Proofs.Engine.Lines

/-! What an engine shows to code that is not its own: to handlers, to the callbacks of
conversations, to workers and to the conditions on arguments. -/
namespace CommandConsole

variable {κ α τ : Type}

/-- One call of code that is not the engine's own, with all that it is shown. -/
inductive Sight (κ : Type) where
  /-- A condition is asked about a value. -/
  | check (x : Check)
  /-- A handler takes a line, or a callback a reply. -/
  | body (code : κ) (context : Context κ) (help : String)
  /-- A stepped handler takes its next step. -/
  | step (code : κ) (context : Context κ) (help : String)
  /-- A worker is called. -/
  | launch (code : κ) (scene : Scene)
  /-- A worker goes as far as it can. -/
  | work (code : κ) (scene : Scene) (signals : Signals)

/-- Two behaviours of handlers do the same when they are shown this. -/
def Sight.Alike (C D : Code κ) : Sight κ → Prop
  | .check _ => True
  | .body code c help => (C.body code).run help c = (D.body code).run help c
  | .step code c help => (C.resume code).run help c = (D.resume code).run help c
  | .launch code scene => C.launch code scene = D.launch code scene
  | .work code scene signals => C.work code scene signals = D.work code scene signals

namespace Runner

/-- What a runner shows when it is given an invocation. -/
def shownByRun (r : Runner κ) (help : String) (c : Context κ) : List (Sight κ) :=
  if r.isInProgress then []
  else
    match r.execution with
    | .sync code => [.body code c help]
    | .stepped code => [.step code c help]
    | .worker code => [.launch code ⟨c.invocation.request, help⟩]

/-- What a runner shows when it is polled. -/
def shownByPoll (r : Runner κ) (help : String) : List (Sight κ) :=
  if r.isInProgress then
    match r.inFlight with
    | some (.stepping code c) => [.step code c help]
    | _ => []
  else []

/-- What a runner shows when its worker goes on. -/
def shownByWork (r : Runner κ) (help : String) (opened : List String) : List (Sight κ) :=
  match r.inFlight with
  | some (.awaiting (.working code) c elapsed _) =>
    [.work code ⟨c.invocation.request, help⟩ ⟨opened, elapsed⟩]
  | _ => []

end Runner

namespace Engine

/-- The command that a first line comes to, and what is to be bound for it. -/
def request? (e : Engine κ) (line : String) (invoker : Invoker) :
    Option (Command κ × BindRequest) :=
  let pieces := Line.cut line
  match pieces.words with
  | [] => none
  | name :: words =>
    match pieces.problem.filter (·.position < name.stop), e.commands.find? name.text with
    | none, some command =>
      match command.permission.filter (!invoker.hasPermission ·) with
      | none => some (command, ⟨command.name, line, words, invoker, pieces.problem⟩)
      | some _ => none
    | _, _ => none

/-- What is shown when a line is bound and, if it can be, run. -/
def shownByInvoke (e : Engine κ) (command : Command κ) (q : BindRequest) : List (Sight κ) :=
  (q.checks command.overloads).map .check ++
    match (q.bind command.overloads e.pool).1 with
    | .error _ => []
    | .ok b =>
      (e.rentRunner command).1.shownByRun e.help
        (.ofInvocation (.start q.command q.line (q.words.map (·.text)) b.arguments q.invoker))

/-- What is shown in the course of an operation, in order. -/
def shown (e : Engine κ) : Operation κ → List (Sight κ)
  | .execute line invoker _ =>
    match e.conversations.find? invoker.conversationKey with
    | some c =>
      match Line.words line with
      | .ok words => [.body c.callback (c.next line words) e.help]
      | .error _ => []
    | none =>
      match e.request? line invoker with
      | some (command, q) => e.shownByInvoke command q
      | none => []
  | .tick _ => e.schedule.pending.flatMap fun s => s.runner.shownByPoll e.help
  | .work opened => e.schedule.pending.flatMap fun s => s.runner.shownByWork e.help opened
  | _ => []

/-- What is shown in the course of some uses, one use after another. -/
def sights (e : Engine κ) : List (Use κ) → List (List (Sight κ))
  | [] => []
  | u :: us => e.shown u.operation :: (e.use u).after.sights us

end Engine

/-! Nothing else is shown: behaviours that do the same with all of this cannot be told apart. -/

section Alike

variable {C D : Code κ} {c : Context κ} {r : Runner κ} {help : String} {id : RunId}

theorem Context.carryOut_eq {s t : Script κ α} (h : s.run help c = t.run help c) :
    c.carryOut help s = c.carryOut help t := by
  simp only [carryOut, h]

namespace Runner

theorem step_eq_of_alike {code : κ} (h : (Sight.step code c help).Alike C D) :
    @step κ C r help code c = @step κ D r help code c := by
  simp only [step, Context.carryOut_eq h]

theorem run_eq_of_alike (h : ∀ s ∈ r.shownByRun help c, s.Alike C D) :
    @run κ C r help c id = @run κ D r help c id := by
  simp only [shownByRun] at h
  simp only [run]
  split
  · rfl
  · rename_i hfree
    rw [if_neg hfree] at h
    cases hx : r.execution with
    | sync code =>
      simp only [hx, List.mem_singleton, forall_eq] at h
      simp only [Context.carryOut_eq h]
    | stepped code =>
      simp only [hx, List.mem_singleton, forall_eq] at h
      exact step_eq_of_alike h
    | worker code =>
      simp only [hx, List.mem_singleton, forall_eq, Sight.Alike] at h
      simp only [launch, h]

theorem poll_eq_of_alike (h : ∀ s ∈ r.shownByPoll help, s.Alike C D) :
    @poll κ C r help = @poll κ D r help := by
  simp only [shownByPoll] at h
  simp only [poll]
  cases hr : r.isInProgress with
  | false => rfl
  | true =>
    rw [if_pos hr] at h
    cases hf : r.inFlight with
    | none => rfl
    | some f =>
      cases f with
      | stepping code c =>
        simp only [hf, List.mem_singleton, forall_eq] at h
        exact step_eq_of_alike h
      | awaiting job c elapsed warned => cases job <;> rfl

theorem work_eq_of_alike {opened : List String} (h : ∀ s ∈ r.shownByWork help opened, s.Alike C D) :
    @work κ C r help opened = @work κ D r help opened := by
  simp only [shownByWork] at h
  simp only [work]
  split
  · rename_i code c elapsed warned hf
    simp only [hf, List.mem_singleton, forall_eq, Sight.Alike] at h
    simp only [h]
  · rfl

end Runner

theorem Schedule.pollAll_eq_of_alike {ps : List (Suspended κ τ)}
    (h : ∀ p ∈ ps, ∀ s ∈ p.runner.shownByPoll help, s.Alike C D) :
    @pollAll κ τ C help ps = @pollAll κ τ D help ps := by
  induction ps with
  | nil => rfl
  | cons p rest ih =>
    have hrest := ih fun q hq => h q (List.mem_cons_of_mem p hq)
    simp only [pollAll, Runner.poll_eq_of_alike (h p List.mem_cons_self), hrest]

namespace Engine

variable {e : Engine κ} {command : Command κ} {line : String} {invoker : Invoker}

theorem rentRunner_frame (e : Engine κ) (command : Command κ) :
    ∃ runners, (e.rentRunner command).2 = { e with runners } := by
  simp only [rentRunner]
  split
  · exact ⟨e.runners, rfl⟩
  · split <;> exact ⟨_, rfl⟩

/-- Which runner is rented is a matter of the runners and of the settings. -/
theorem rentRunner_with_pool (e : Engine κ) (pool : Pool) (n : Nat) (command : Command κ) :
    (rentRunner { e with pool, lastRun := n } command).1 = (e.rentRunner command).1 := by
  simp only [rentRunner]
  split
  · rfl
  · split <;> rfl

theorem start_eq_of_alike
    (h : ∀ s ∈ (rentRunner { e with lastRun := e.lastRun + 1 } command).1.shownByRun e.help c,
      s.Alike C D) (meanwhile : List (Catalogue.Change κ)) :
    @start κ C e command c meanwhile = @start κ D e command c meanwhile := by
  obtain ⟨runners, hrent⟩ := rentRunner_frame { e with lastRun := e.lastRun + 1 } command
  have hhelp : (rentRunner { e with lastRun := e.lastRun + 1 } command).2.help = e.help := by
    rw [hrent]
    rfl
  simp only [start]
  rw [hhelp, Runner.run_eq_of_alike h]

theorem addressed_of_request? {q : BindRequest}
    (h : e.request? line invoker = some (command, q)) : e.addressed? line = some command := by
  simp only [request?] at h
  split at h
  · cases h
  · rename_i name words hwords
    split at h
    · rename_i found _ hcommand
      split at h
      · injection h with h
        injection h with hfound
        simp only [addressed?, hwords, List.head?_cons, Option.bind_some, hcommand, hfound]
      · cases h
    · cases h

/-- A line that is to be bound is admitted if it can be bound, in the context of its words. -/
theorem admission_of_request? {q : BindRequest} (h : e.request? line invoker = some (command, q)) :
    e.admission line invoker = e.prepare command q.line q.words q.invoker q.trouble ∧
      q.command = command.name ∧ q.line = line ∧ q.invoker = invoker := by
  cases hwords : (Line.cut line).words with
  | nil =>
    simp only [request?, hwords] at h
    cases h
  | cons name words =>
    simp only [request?, hwords] at h
    simp only [admission, hwords]
    split at h
    · rename_i found hproblem hcommand
      split at h
      · rename_i hpermission
        injection h with h
        injection h with hfound hq
        subst hfound hq
        simp only [hproblem, hcommand, hpermission, and_self]
      · cases h
    · cases h

/-- Any other line is refused. -/
theorem admission_of_no_request? (h : e.request? line invoker = none) :
    ∃ response : Response, (e.admission line invoker).value = (.error response, e) ∧
      response.kind = .fail := by
  simp only [request?] at h
  simp only [admission]
  split
  · exact ⟨_, rfl, rfl⟩
  · rename_i name words hwords
    split
    · exact ⟨_, rfl, rfl⟩
    · rename_i hproblem
      split
      · split <;> exact ⟨_, rfl, rfl⟩
      · rename_i command hcommand
        split
        · exact ⟨_, rfl, rfl⟩
        · rename_i hpermission
          simp only [hwords, hproblem, hcommand, hpermission] at h
          cases h

theorem prepare_of_error {words : List Word} {trouble : Option ScanError} {problem : Error}
    {pool : Pool} (h : BindRequest.bind ⟨command.name, line, words, invoker, trouble⟩
      command.overloads e.pool = (.error problem, pool)) :
    (e.prepare command line words invoker trouble).value =
      (.error problem.response, { e with pool }) := by
  simp only [prepare, h]
  rfl

theorem prepare_of_ok {words : List Word} {trouble : Option ScanError} {b : Bound}
    {pool : Pool} (h : BindRequest.bind ⟨command.name, line, words, invoker, trouble⟩
      command.overloads e.pool = (.ok b, pool)) :
    (e.prepare command line words invoker trouble).value =
      (.ok (command, .ofInvocation
        (.start command.name line (words.map (·.text)) b.arguments invoker)), { e with pool }) := by
  simp only [prepare, h]
  rfl

theorem dispatch_eq_of_alike (meanwhile : List (Catalogue.Change κ))
    (h : ∀ command q, e.request? line invoker = some (command, q) →
      ∀ s ∈ e.shownByInvoke command q, s.Alike C D) :
    @dispatch κ C e line invoker meanwhile = @dispatch κ D e line invoker meanwhile := by
  have hproceed : @proceed κ C (e.admission line invoker).value.2 meanwhile
        (e.admission line invoker).value.1 =
      @proceed κ D (e.admission line invoker).value.2 meanwhile (e.admission line invoker).value.1 := by
    cases hq : e.request? line invoker with
    | none =>
      obtain ⟨response, hadmission, -⟩ := admission_of_no_request? hq
      rw [hadmission]
      rfl
    | some x =>
      obtain ⟨command, q⟩ := x
      obtain ⟨hadmission, hcommand, hline, hinvoker⟩ := admission_of_request? hq
      have hshown := h command q hq
      obtain ⟨_, l, words, i, trouble⟩ := q
      subst hcommand hline hinvoker
      rw [hadmission]
      simp only [shownByInvoke, List.mem_append] at hshown
      cases hbound : BindRequest.bind ⟨command.name, l, words, i, trouble⟩ command.overloads
          e.pool with
      | mk result pool =>
        cases result with
        | error problem =>
          rw [prepare_of_error hbound]
          rfl
        | ok b =>
          rw [prepare_of_ok hbound]
          rw [hbound] at hshown
          apply start_eq_of_alike (e := { e with pool })
          rw [rentRunner_with_pool e pool (e.lastRun + 1)]
          exact fun s hs => hshown s (.inr hs)
  exact congrArg (fun x : Reported (Dispatch × Engine κ) =>
    (⟨x.value, (e.admission line invoker).notes ++ x.notes⟩ : Reported _)) hproceed

theorem execute_eq_of_alike {meanwhile : List (Catalogue.Change κ)}
    (h : ∀ s ∈ e.shown (.execute line invoker meanwhile), s.Alike C D) :
    @execute κ C e line invoker meanwhile = @execute κ D e line invoker meanwhile := by
  simp only [shown] at h
  simp only [execute]
  cases hc : e.conversations.find? invoker.conversationKey with
  | some c =>
    simp only [hc] at h
    simp only [continueConversation]
    cases hw : Line.words line with
    | error trouble => rfl
    | ok words =>
      simp only [hw, List.mem_singleton, forall_eq, Sight.Alike] at h
      exact congrArg (· >>= _) (Context.carryOut_eq h)
  | none =>
    simp only [hc] at h
    refine dispatch_eq_of_alike meanwhile fun command q hq => ?_
    simpa only [hq] using h

theorem tick_eq_of_alike {meanwhile : RunId → List (Catalogue.Change κ)}
    (h : ∀ s ∈ e.shown (.tick meanwhile), s.Alike C D) :
    @tick κ C e meanwhile = @tick κ D e meanwhile := by
  simp only [shown, List.mem_flatMap, forall_exists_index, and_imp] at h
  simp only [tick, Schedule.tick]
  rw [Schedule.pollAll_eq_of_alike fun p hp s hs => h s p hp hs]

theorem work_eq_of_alike {opened : List String} (h : ∀ s ∈ e.shown (.work opened), s.Alike C D) :
    @work κ C e opened = @work κ D e opened := by
  simp only [shown, List.mem_flatMap, forall_exists_index, and_imp] at h
  have hpending : ∀ p ∈ e.schedule.pending,
      ({ p with runner := @Runner.work κ C p.runner e.help opened } : Suspended κ (Command κ)) =
        { p with runner := @Runner.work κ D p.runner e.help opened } := by
    intro p hp
    rw [Runner.work_eq_of_alike fun s hs => h s p hp hs]
  simp only [work, Schedule.mapRunners, List.map_congr_left hpending]

/-- Behaviours that do the same with all that is shown in the course of an operation make no
difference to it. -/
theorem perform_eq_of_alike {o : Operation κ} (h : ∀ s ∈ e.shown o, s.Alike C D) :
    @perform κ C e o = @perform κ D e o := by
  cases o with
  | execute line invoker meanwhile => simp only [perform, execute_eq_of_alike h]
  | tick meanwhile => simp only [perform, tick_eq_of_alike h]
  | work opened => simp only [perform, work_eq_of_alike h]
  | register d => rfl
  | registerCommand d => rfl
  | unregisterCommand name => rfl
  | disturb changes => rfl
  | registerParser key p => rfl
  | endConversation key => rfl
  | elapse d => rfl
  | workerEnds id result => rfl

end Engine
end Alike
end CommandConsole
