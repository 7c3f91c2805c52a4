import Mathlib.Data.List.Nodup
import CommandConsole.Proofs.Engine.Completion
import CommandConsole.Proofs.Engine.Pools
import CommandConsole.Proofs.Runner.Life

/-! The course of one run through an engine: the calls that its runner gets, from the line on to the
answer. -/
namespace CommandConsole

variable {κ : Type}

namespace Engine

variable {e : Engine κ} {s : Suspended κ (Command κ)} {d : Context κ} {q : Posted κ}

/-- What a use of an engine does to the runner of a suspended run, if anything. -/
def act? (e : Engine κ) (id : RunId) (u : Use κ) : Option (Act κ) :=
  match u.operation with
  | .tick _ => some ⟨.poll, e.help, u.code⟩
  | .elapse d => some ⟨.elapse d, e.help, u.code⟩
  | .work opened => some ⟨.work opened, e.help, u.code⟩
  | .workerEnds i result => if i = id then some ⟨.workerEnds result, e.help, u.code⟩ else none
  | _ => none

/-- What some uses do to it, one after another. -/
def acts (e : Engine κ) (id : RunId) : List (Use κ) → List (Act κ)
  | [] => []
  | u :: us => (e.act? id u).toList ++ (e.use u).after.acts id us

/-- The completion of a run that ends with a context. -/
def completionOf (id : RunId) (c : Context κ) : Completion :=
  ⟨id, c.invocation.command, c.invocation.invoker.name, c.invocation.response?.getD .empty⟩

theorem conclude_response (e : Engine κ) (c : Context κ) :
    (e.conclude c).value.1 = c.invocation.response?.getD .empty := by
  simp only [conclude, Invocation.response?]
  split <;> rfl

theorem concluded_answer (e : Engine κ) {response : Response}
    (hr : d.invocation.response? = some response) :
    (e.concluded d).1 = dispatchOf response := by
  simp only [concluded, conclude_response, hr, Option.getD_some]

theorem settled_completion (e : Engine κ) (changes : List (Catalogue.Change κ))
    (f : Finished κ (Command κ)) (c : Context κ) :
    (e.settled changes f c).1 = completionOf f.id c := by
  simp only [settled, conclude_response, completionOf]

/-- Every run that is found finished with a context is answered for. -/
theorem completion_mem_settleAll {fs : List (Finished κ (Command κ))}
    {f : Finished κ (Command κ)} (hf : f ∈ fs) (hd : f.context = some d) (e : Engine κ)
    (meanwhile : RunId → List (Catalogue.Change κ)) :
    completionOf f.id d ∈ (e.settleAll meanwhile fs).value.1 := by
  induction fs generalizing e with
  | nil => cases hf
  | cons g rest ih =>
    rcases List.mem_cons.mp hf with rfl | hf
    · rw [value_settleAll_cons hd, settled_completion]
      exact List.mem_cons_self
    · cases hc : g.context with
      | none =>
        rw [settleAll_cons_of_none hc]
        exact ih hf e
      | some c =>
        rw [value_settleAll_cons hc]
        exact List.mem_cons_of_mem _ (ih hf _)

section Code

variable [Code κ]

/-- A line leaves suspended runs as they are. -/
theorem mem_pending_execute (h : Rested e.runners) (hs : s ∈ e.schedule.pending) (line : String)
    (invoker : Invoker) (meanwhile : List (Catalogue.Change κ)) :
    s ∈ (e.execute line invoker meanwhile).value.2.schedule.pending := by
  have hx := execute_executed h line invoker meanwhile
  generalize (e.execute line invoker meanwhile).value = x at hx
  cases hx with
  | refused pool free failed returned => exact hs
  | misread waiting malformed => exact hs
  | replied waiting read handled responded =>
    obtain ⟨response, conversations, pool, hc⟩ := concluded_frame _ _
    rw [hc]
    exact hs
  | answered free addressed handled responded rented rested =>
    obtain ⟨response, conversations, pool, hc⟩ := concluded_frame _ _
    rw [hc]
    exact hs
  | suspended free addressed handled holds rented rested => exact List.mem_append_left _ hs

theorem poll_posted_iff {c : Context κ} (holds : s.runner.context? = some c) (help : String) :
    (s.runner.poll help).value.2.isSome = true ↔
      (s.runner.poll help).value.1.isFinished = true := by
  obtain ⟨p, hp, -⟩ := Runner.context?_eq_some_iff.mp holds
  exact (Runner.poll_outcome hp help).posted_iff

variable (meanwhile : RunId → List (Catalogue.Change κ))

theorem tick_goes_on (h : Rested e.runners) (hs : s ∈ e.schedule.pending)
    {c : Context κ} (holds : s.runner.context? = some c)
    (hd : (s.runner.poll e.help).value.2 = none) :
    { s with runner := (s.runner.poll e.help).value.1 } ∈
      (e.tick meanwhile).value.2.schedule.pending := by
  have hf : ¬ (s.runner.poll e.help).value.1.isFinished = true := by
    rw [← poll_posted_iff holds e.help, hd]
    exact Bool.false_ne_true
  obtain ⟨commands, runners, conversations, pool, htick, -⟩ := tick_frame h meanwhile
  rw [htick]
  exact List.mem_filterMap.mpr ⟨s, hs, by simp [Schedule.stays?, hf]⟩

theorem tick_completes (hs : s ∈ e.schedule.pending) {c : Context κ}
    (holds : s.runner.context? = some c) (hq : (s.runner.poll e.help).value.2 = some q) :
    completionOf s.id q.context ∈ (e.tick meanwhile).value.1 := by
  have hf : (s.runner.poll e.help).value.1.isFinished = true := by
    rw [← poll_posted_iff holds e.help, hq]
    rfl
  have hended :
      ⟨s.id, s.origin, (s.runner.poll e.help).value.1, some q.context⟩ ∈ e.ended :=
    List.mem_filterMap.mpr ⟨s, hs, by simp [Schedule.ends?, hf, hq]⟩
  rw [value_tick]
  exact completion_mem_settleAll hended rfl e.polled meanwhile

end Code

/-- A use that does nothing to the runner of a run leaves the run suspended. -/
theorem use_aside (h : Rested e.runners) (hs : s ∈ e.schedule.pending) {u : Use κ}
    (ha : e.act? s.id u = none) : s ∈ (e.use u).after.schedule.pending := by
  obtain ⟨operation, code⟩ := u
  cases operation with
  | execute line invoker meanwhile => exact mem_pending_execute h hs line invoker meanwhile
  | register d =>
    obtain ⟨commands, runners, hr, -⟩ := e.register_frame d
    simpa only [use, perform, Reported.value_bind, Reported.value_pure, hr] using hs
  | registerCommand d =>
    obtain ⟨commands, hr⟩ := e.registerCommand_frame d
    simpa only [use, perform, Reported.value_bind, Reported.value_pure, hr] using hs
  | endConversation key =>
    obtain ⟨pool, hr⟩ := e.endConversation_frame key
    simpa only [use, perform, Reported.value_bind, Reported.value_pure, hr] using hs
  | unregisterCommand name => exact hs
  | disturb changes => exact hs
  | registerParser key p => exact hs
  | workerEnds id result =>
    simp only [act?] at ha
    split at ha
    · cases ha
    · rename_i hne
      exact List.mem_map.mpr ⟨s, hs, if_neg (fun h => hne h.symm)⟩
  | tick meanwhile => cases ha
  | elapse d => cases ha
  | work opened => cases ha

/-- A run whose runner does not finish goes on. -/
theorem use_goes_on (h : Rested e.runners) (hs : s ∈ e.schedule.pending)
    {c : Context κ} (holds : s.runner.context? = some c) {u : Use κ} {a : Act κ}
    (ha : e.act? s.id u = some a) (hfired : (s.runner.exchange a).fired = none) :
    { s with runner := (s.runner.exchange a).after } ∈ (e.use u).after.schedule.pending := by
  obtain ⟨operation, code⟩ := u
  let := code
  cases operation with
  | tick meanwhile =>
    injection ha with ha
    subst ha
    exact tick_goes_on meanwhile h hs holds hfired
  | elapse d =>
    injection ha with ha
    subst ha
    exact List.mem_map.mpr ⟨s, hs, rfl⟩
  | work opened =>
    injection ha with ha
    subst ha
    exact List.mem_map.mpr ⟨s, hs, rfl⟩
  | workerEnds id result =>
    simp only [act?] at ha
    split at ha
    · rename_i hid
      injection ha with ha
      subst ha hid
      exact List.mem_map.mpr ⟨s, hs, if_pos rfl⟩
    · cases ha
  | _ => cases ha

/-- A run whose runner finishes is completed. -/
theorem use_completes (hs : s ∈ e.schedule.pending) {c : Context κ}
    (holds : s.runner.context? = some c) {u : Use κ} {a : Act κ} (ha : e.act? s.id u = some a)
    (hfired : (s.runner.exchange a).fired = some q) :
    completionOf s.id q.context ∈ (e.use u).completions := by
  obtain ⟨operation, code⟩ := u
  let := code
  cases operation with
  | tick meanwhile =>
    injection ha with ha
    subst ha
    exact tick_completes meanwhile hs holds hfired
  | elapse d =>
    injection ha with ha
    subst ha
    cases hfired
  | work opened =>
    injection ha with ha
    subst ha
    cases hfired
  | workerEnds id result =>
    simp only [act?] at ha
    split at ha
    · injection ha with ha
      subst ha
      cases hfired
    · cases ha
  | _ => cases ha

/-- As long as nothing is handed over, a suspended run is where its calls have brought it. -/
theorem pending_after (config : Config) (us ws : List (Use κ)) {s : Suspended κ (Command κ)}
    (hs : s ∈ ((ofConfig config).after us).schedule.pending)
    (quiet : Runner.handedOver
      (s.runner.exchanges (((ofConfig config).after us).acts s.id ws)) = []) :
    { s with runner := s.runner.after (((ofConfig config).after us).acts s.id ws) } ∈
      (((ofConfig config).after us).after ws).schedule.pending := by
  induction ws generalizing us s with
  | nil => exact hs
  | cons u ws ih =>
    have hh := accounted_moments config us
    obtain ⟨c, hc⟩ := hh.holds s hs
    have hnext : (((ofConfig config).after us).use u).after = (ofConfig config).after (us ++ [u]) :=
      (after_append _ us [u]).symm
    simp only [acts, after, hnext] at quiet ⊢
    cases ha : ((ofConfig config).after us).act? s.id u with
    | none =>
      have hmem := use_aside hh.rested hs ha
      rw [hnext] at hmem
      rw [ha] at quiet
      exact ih (us ++ [u]) hmem quiet
    | some a =>
      rw [ha] at quiet
      simp only [Option.toList_some, List.singleton_append, Runner.exchanges,
        Runner.handedOver_cons, List.append_eq_nil_iff, Option.toList_eq_nil_iff] at quiet ⊢
      have hmem := use_goes_on hh.rested hs hc ha quiet.1
      rw [hnext] at hmem
      exact ih (us ++ [u]) hmem quiet.2

/-- The course of a run that a line begins: `r` is its runner before the first call, and the calls
after the line are those that the uses of the engine come to. -/
structure Course (m : Moment κ) (command : Command κ) (r : Runner κ) (first : Act κ) : Prop where
  /-- A run that is over in its first call is answered for at once. -/
  atOnce : ∀ q, (r.exchange first).fired = some q → ∃ response,
    q.context.invocation.response? = some response ∧ m.answer = .dispatch (dispatchOf response)
  /-- Any other is suspended, under the latest number. -/
  suspended : (r.exchange first).fired = none → m.answer = .dispatch (.pending ⟨m.after.lastRun⟩)
  /-- Until it is over, its number stands for its own runner, brought on by its own calls. -/
  goesOn : ∀ ws, let calls := first :: m.after.acts ⟨m.after.lastRun⟩ ws
    Runner.handedOver (r.exchanges calls) = [] →
    ∀ s, (s ∈ (m.after.after ws).schedule.pending ∧ s.id = ⟨m.after.lastRun⟩) ↔
      s = ⟨⟨m.after.lastRun⟩, command, r.after calls⟩
  /-- The call in which it is over completes it. -/
  completes : ∀ ws u a q, let calls := first :: m.after.acts ⟨m.after.lastRun⟩ ws
    Runner.handedOver (r.exchanges calls) = [] →
    (m.after.after ws).act? ⟨m.after.lastRun⟩ u = some a →
    ((r.after calls).exchange a).fired = some q → ∃ response,
      q.context.invocation.response? = some response ∧
      ⟨⟨m.after.lastRun⟩, q.context.invocation.command, q.context.invocation.invoker.name,
          response⟩ ∈ ((m.after.after ws).use u).completions

/-- A run that is suspended by a line of some life takes its course. -/
theorem course_of_suspended {config : Config} {us : List (Use κ)} {u : Use κ} {command : Command κ}
    {r : Runner κ} {first : Act κ} (hcoherent : r.Coherent)
    (hanswer : (((ofConfig config).after us).use u).answer =
      .dispatch (.pending ⟨(((ofConfig config).after us).use u).after.lastRun⟩))
    (hfired : (r.exchange first).fired = none)
    (hs : ⟨⟨(((ofConfig config).after us).use u).after.lastRun⟩, command,
      (r.exchange first).after⟩ ∈ (((ofConfig config).after us).use u).after.schedule.pending) :
    Course (((ofConfig config).after us).use u) command r first := by
  have hnext : (((ofConfig config).after us).use u).after = (ofConfig config).after (us ++ [u]) :=
    (after_append _ us [u]).symm
  generalize ((ofConfig config).after us).use u = m at *
  have hmem : ∀ ws,
      Runner.handedOver (r.exchanges (first :: m.after.acts ⟨m.after.lastRun⟩ ws)) = [] →
      ⟨⟨m.after.lastRun⟩, command, r.after (first :: m.after.acts ⟨m.after.lastRun⟩ ws)⟩ ∈
        (m.after.after ws).schedule.pending := by
    intro ws quiet
    simp only [Runner.exchanges, Runner.handedOver_cons, hfired, Option.toList_none,
      List.nil_append] at quiet
    rw [hnext] at hs quiet ⊢
    exact pending_after config (us ++ [u]) ws hs quiet
  have haccounted : ∀ ws, Accounted ((ofConfig config).moments (us ++ [u] ++ ws)) (m.after.after ws) := by
    intro ws
    rw [hnext, ← after_append]
    exact accounted_moments config (us ++ [u] ++ ws)
  constructor
  · intro d hd
    rw [hfired] at hd
    cases hd
  · exact fun _ => hanswer
  · intro ws calls quiet s
    constructor
    · rintro ⟨hin, hid⟩
      exact List.inj_on_of_nodup_map (haccounted ws).ids_nodup hin (hmem ws quiet) hid
    · rintro rfl
      exact ⟨hmem ws quiet, rfl⟩
  · intro ws u a q calls quiet ha hd
    obtain ⟨response, hr⟩ :=
      Runner.exchange_responded (Runner.after_coherent hcoherent calls) hd
    obtain ⟨c, hc⟩ := (haccounted ws).holds _ (hmem ws quiet)
    have hcompleted := use_completes (hmem ws quiet) hc ha hd
    simp only [completionOf, hr, Option.getD_some] at hcompleted
    exact ⟨response, hr, hcompleted⟩

/-- A run that is over in its first call has no further course. -/
theorem course_of_answered {m : Moment κ} {command : Command κ} {r : Runner κ} {first : Act κ}
    (hfired : (r.exchange first).fired = some q) {response : Response}
    (hr : q.context.invocation.response? = some response)
    (hanswer : m.answer = .dispatch (dispatchOf response)) : Course m command r first := by
  constructor
  · intro q' hq'
    rw [hfired] at hq'
    injection hq' with hq'
    exact ⟨response, hq' ▸ hr, hanswer⟩
  · intro hnone
    rw [hfired] at hnone
    cases hnone
  · intro ws calls quiet
    simp [calls, Runner.exchanges, hfired] at quiet
  · intro ws u a q' calls quiet
    simp [calls, Runner.exchanges, hfired] at quiet

/-- A line begins a run of a command with the first call of a new runner for it. -/
structure Begins (e : Engine κ) (m : Moment κ) (command : Command κ) (first : Act κ) : Prop where
  numbered : m.after.lastRun = e.lastRun + 1
  suspended : ((e.fresh command).exchange first).fired = none →
    m.answer = .dispatch (.pending ⟨m.after.lastRun⟩) ∧
    ⟨⟨m.after.lastRun⟩, command, ((e.fresh command).exchange first).after⟩ ∈
      m.after.schedule.pending
  concluded : ∀ q, ((e.fresh command).exchange first).fired = some q →
    ∃ e' : Engine κ, e'.conversations = e.conversations ∧
      m.answer = .dispatch (e'.concluded q.context).1 ∧ m.after = (e'.concluded q.context).2

theorem fresh_coherent (e : Engine κ) (command : Command κ) : (e.fresh command).Coherent :=
  ⟨rfl, rfl⟩

/-- A line that has a command started begins a run of it. -/
theorem begins_of_started (h : Sound e) {line : String} {invoker : Invoker} {code : Code κ}
    {command : Command κ} {context : Context κ} {pool : Pool}
    {meanwhile : List (Catalogue.Change κ)} (addressed : e.addressed? line = some command)
    (started : (@execute κ code e line invoker meanwhile).value =
      (@start κ code { e with pool } command context meanwhile).value) :
    Begins e (e.use ⟨.execute line invoker meanwhile, code⟩) command
      ⟨.run context ⟨e.lastRun + 1⟩, e.help, code⟩ := by
  let m := e.use ⟨.execute line invoker meanwhile, code⟩
  let := code
  have hanswer : m.answer = .dispatch (e.execute line invoker meanwhile).value.1 := rfl
  have hafter : m.after = (e.execute line invoker meanwhile).value.2 := rfl
  let first : Act κ := ⟨.run context ⟨e.lastRun + 1⟩, e.help, code⟩
  obtain ⟨commands, runners, hpools, hstart⟩ := start_fresh (e := { e with pool }) h.pools
    (registered_of_addressed h.pools addressed) context meanwhile
  have hrun : ((fresh { e with pool } command).run (help { e with pool }) context
      ⟨e.lastRun + 1⟩).value =
      (((e.fresh command).exchange first).after, ((e.fresh command).exchange first).fired) := rfl
  rw [started, hstart, hrun] at hanswer hafter
  cases hfired : ((e.fresh command).exchange first).fired with
  | none =>
    simp only [taken, hfired] at hanswer hafter
    have hlast : m.after.lastRun = e.lastRun + 1 := by rw [hafter]
    refine ⟨hlast, fun _ => ⟨?_, ?_⟩, fun q hq => ?_⟩
    · rw [hanswer, hlast]
    · rw [hlast, hafter]
      exact List.mem_append_right _ List.mem_cons_self
    · rw [hfired] at hq
      cases hq
  | some q =>
    have hsteady := Runner.exchange_steady (e.fresh command) first
    obtain ⟨kept, hkept, -⟩ := recycle_pooled hpools List.mem_cons_self hsteady
    simp only [taken, hfired, hkept] at hanswer hafter
    refine ⟨?_, fun hnone => ?_, fun q' hq' => ?_⟩
    · obtain ⟨answer, conversations, pool', hc⟩ :=
        concluded_frame { e with pool, commands, runners := kept, lastRun := e.lastRun + 1 } q.context
      rw [hafter, hc]
    · rw [hfired] at hnone
      cases hnone
    · rw [hfired] at hq'
      injection hq' with hq'
      subst hq'
      exact ⟨{ e with pool, commands, runners := kept, lastRun := e.lastRun + 1 }, rfl, hanswer,
        hafter⟩

/-- The run that a line of some life begins takes its course. -/
theorem Begins.course {config : Config} {us : List (Use κ)} {u : Use κ} {command : Command κ}
    {first : Act κ}
    (h : Begins ((ofConfig config).after us) (((ofConfig config).after us).use u) command first) :
    Course (((ofConfig config).after us).use u) command
      (((ofConfig config).after us).fresh command) first := by
  cases hfired : ((((ofConfig config).after us).fresh command).exchange first).fired with
  | none =>
    obtain ⟨hanswer, hs⟩ := h.suspended hfired
    exact course_of_suspended (fresh_coherent _ command) hanswer hfired hs
  | some q =>
    obtain ⟨response, hr⟩ := Runner.exchange_responded (fresh_coherent _ command) hfired
    obtain ⟨e', -, hanswer, -⟩ := h.concluded q hfired
    rw [concluded_answer e' hr] at hanswer
    exact course_of_answered hfired hr hanswer

end Engine
end CommandConsole
