import Mathlib.Data.List.Induction
import CommandConsole.Proofs.Engine.Life
import CommandConsole.Proofs.Engine.Ticks

/-! Every suspended run is answered for at most once, by a later tick, under its own number. -/
namespace CommandConsole

variable {κ : Type}

namespace Moment

/-- The number under which a line was suspended. -/
def pendingId? (m : Moment κ) : Option RunId :=
  match m.answer with
  | .dispatch (.pending id) => some id
  | _ => none

def completions (m : Moment κ) : List Completion :=
  match m.answer with
  | .completions cs => cs
  | _ => []

theorem pendingId?_of_answered {m : Moment κ} {r : Response}
    (h : m.answer = .dispatch (Engine.dispatchOf r)) : m.pendingId? = none := by
  simp only [pendingId?]
  rw [h]
  simp only [Engine.dispatchOf]
  cases r.isContinued <;> rfl

/-- A line of the named invoker for the named command was suspended under a number. -/
def Suspends (m : Moment κ) (id : RunId) (command invoker : String) : Prop :=
  ∃ line i meanwhile c, m.operation = .execute line i meanwhile ∧ m.answer = .dispatch (.pending id) ∧
    m.before.addressed? line = some c ∧ c.name = command ∧ i.name = invoker

/-- A line was answered at once. -/
def IsAnswered (m : Moment κ) : Prop := ∃ d r, m.answer = .dispatch d ∧ d.response? = some r

theorem isAnswered_of_dispatchOf {m : Moment κ} {r : Response}
    (h : m.answer = .dispatch (Engine.dispatchOf r)) : m.IsAnswered :=
  ⟨_, r, h, Engine.response?_dispatchOf r⟩

end Moment

/-- The numbers of all suspended lines, in order. -/
def pendingIds (h : List (Moment κ)) : List RunId := h.filterMap (·.pendingId?)

/-- The numbers of all completions, in order. -/
def completedIds (h : List (Moment κ)) : List RunId := h.flatMap fun m => m.completions.map (·.id)

/-- An engine is in step with its past: the runs in progress are those that were suspended and not
completed, each with the line it was suspended for. -/
structure Accounted (h : List (Moment κ)) (e : Engine κ) : Prop where
  rested : Rested e.runners
  holding : ∀ x ∈ e.schedule.held, x.2.isSome = true
  increasing : ((pendingIds h).map (·.number)).Pairwise (· < ·)
  bounded : ∀ id ∈ pendingIds h, id.number ≤ e.lastRun
  completedOnce : (completedIds h).Nodup
  taken : ∀ id ∈ completedIds h, id ∈ pendingIds h
  unfinished : e.schedule.held.map (·.1) = (pendingIds h).filter (· ∉ completedIds h)
  traced : ∀ id c, (id, some c) ∈ e.schedule.held →
    ∃ m ∈ h, m.Suspends id c.invocation.command c.invocation.invoker.name
  atOnce : ∀ m ∈ h, m.before.lastRun < m.after.lastRun → m.pendingId? = none →
    m.IsAnswered ∧ m.after.lastRun ≤ e.lastRun ∧ ⟨m.after.lastRun⟩ ∉ pendingIds h

namespace Accounted

variable {h : List (Moment κ)} {e e' : Engine κ} {m : Moment κ}

theorem pendingIds_nodup (hh : Accounted h e) : (pendingIds h).Nodup :=
  (hh.increasing.imp (fun hlt => Nat.ne_of_lt hlt)).of_map _
    (fun _ _ hne hab => hne (congrArg RunId.number hab))

theorem fresh (config : Config) : Accounted ([] : List (Moment κ)) (.ofConfig config) := by
  constructor <;> simp [pendingIds, completedIds, Engine.ofConfig, Schedule.empty, Schedule.held,
    Rested]

/-- Whatever is neither a suspension nor a completion leaves the account as it is. -/
theorem quiet (hh : Accounted h e) (before : m.before = e) (after : m.after = e')
    (silent : m.pendingId? = none) (none_done : m.completions = [])
    (held : e'.schedule.held = e.schedule.held)
    (runs : e'.lastRun = e.lastRun ∨ e'.lastRun = e.lastRun + 1 ∧ m.IsAnswered)
    (rested : Rested e'.runners) : Accounted (h ++ [m]) e' := by
  have hle : e.lastRun ≤ e'.lastRun := by omega
  have hp : pendingIds (h ++ [m]) = pendingIds h := by simp [pendingIds, silent]
  have hc : completedIds (h ++ [m]) = completedIds h := by simp [completedIds, none_done]
  constructor
  · exact rested
  · rw [held]
    exact hh.holding
  · rw [hp]
    exact hh.increasing
  · rw [hp]
    intro id hid
    exact Nat.le_trans (hh.bounded id hid) hle
  · rw [hc]
    exact hh.completedOnce
  · rw [hp, hc]
    exact hh.taken
  · rw [hp, hc, held]
    exact hh.unfinished
  · intro id c hid
    rw [held] at hid
    obtain ⟨n, hn, hs⟩ := hh.traced id c hid
    exact ⟨n, List.mem_append_left _ hn, hs⟩
  · intro n hn hlt hnone
    rw [hp]
    rcases List.mem_append.mp hn with hn | hn
    · obtain ⟨hanswered, hold, hnot⟩ := hh.atOnce n hn hlt hnone
      exact ⟨hanswered, Nat.le_trans hold hle, hnot⟩
    · rw [List.mem_singleton] at hn
      subst hn
      rw [before, after] at hlt
      rcases runs with runs | ⟨runs, hanswered⟩
      · omega
      · refine ⟨hanswered, Nat.le_of_eq (congrArg Engine.lastRun after), ?_⟩
        intro hin
        have hold : n.after.lastRun ≤ e.lastRun := hh.bounded _ hin
        rw [after] at hold
        omega

/-- A suspended line is entered under the next number. -/
theorem suspend (hh : Accounted h e) {id : RunId} {c : Context κ} (before : m.before = e)
    (after : m.after = e') (next : id = ⟨e.lastRun + 1⟩)
    (pending : m.answer = .dispatch (.pending id))
    (suspends : m.Suspends id c.invocation.command c.invocation.invoker.name)
    (held : e'.schedule.held = e.schedule.held ++ [(id, some c)])
    (runs : e'.lastRun = e.lastRun + 1) (rested : Rested e'.runners) :
    Accounted (h ++ [m]) e' := by
  have hid : m.pendingId? = some id := by simp [Moment.pendingId?, pending]
  have hp : pendingIds (h ++ [m]) = pendingIds h ++ [id] := by simp [pendingIds, hid]
  have hc : completedIds (h ++ [m]) = completedIds h := by
    simp [completedIds, Moment.completions, pending]
  have hlt : ∀ i ∈ pendingIds h, i.number < id.number := by
    intro i hi
    have := hh.bounded i hi
    simp only [next]
    omega
  have hnew : id ∉ completedIds h := by
    intro hin
    exact absurd (hlt id (hh.taken id hin)) (Nat.lt_irrefl _)
  constructor
  · exact rested
  · rw [held]
    intro x hx
    rcases List.mem_append.mp hx with hx | hx
    · exact hh.holding x hx
    · simp_all
  · rw [hp, List.map_append, List.pairwise_append]
    refine ⟨hh.increasing, by simp, ?_⟩
    simpa using hlt
  · rw [hp, runs]
    intro i hi
    rcases List.mem_append.mp hi with hi | hi
    · exact Nat.le_succ_of_le (hh.bounded i hi)
    · simp_all
  · rw [hc]
    exact hh.completedOnce
  · rw [hp, hc]
    intro i hi
    exact List.mem_append_left _ (hh.taken i hi)
  · rw [hp, hc, held, List.map_append, List.filter_append, hh.unfinished]
    simp [hnew]
  · intro i d hi
    rw [held] at hi
    rcases List.mem_append.mp hi with hi | hi
    · obtain ⟨n, hn, hs⟩ := hh.traced i d hi
      exact ⟨n, List.mem_append_left _ hn, hs⟩
    · simp only [List.mem_singleton, Prod.mk.injEq, Option.some.injEq] at hi
      obtain ⟨rfl, rfl⟩ := hi
      exact ⟨m, by simp, suspends⟩
  · intro n hn hltn hnone
    rw [hp, runs]
    rcases List.mem_append.mp hn with hn | hn
    · obtain ⟨hanswered, hle, hnot⟩ := hh.atOnce n hn hltn hnone
      refine ⟨hanswered, by omega, ?_⟩
      intro hin
      rcases List.mem_append.mp hin with hin | hin
      · exact hnot hin
      · simp only [next, List.mem_singleton, RunId.mk.injEq] at hin
        omega
    · rw [List.mem_singleton] at hn
      subst hn
      simp [hid] at hnone

/-- A tick enters the completions of some of the runs in progress, in order, and drops these. -/
theorem complete (hh : Accounted h e) (done : List RunId) (before : m.before = e)
    (after : m.after = e') (silent : m.pendingId? = none)
    (completed : m.completions.map (·.id) = done)
    (sub : done.Sublist (e.schedule.held.map (·.1)))
    (rest : e'.schedule.held.map (·.1) = (e.schedule.held.map (·.1)).filter (· ∉ done))
    (holding : ∀ x ∈ e'.schedule.held, x.2.isSome = true)
    (kept : ∀ id d, (id, some d) ∈ e'.schedule.held →
      ∃ c, (id, some c) ∈ e.schedule.held ∧ d.invocation.asked = c.invocation.asked)
    (runs : e'.lastRun = e.lastRun) (rested : Rested e'.runners) :
    Accounted (h ++ [m]) e' := by
  have hp : pendingIds (h ++ [m]) = pendingIds h := by simp [pendingIds, silent]
  have hc : completedIds (h ++ [m]) = completedIds h ++ done := by
    simp [completedIds, completed]
  have hopen : ∀ id ∈ done, id ∈ pendingIds h ∧ id ∉ completedIds h := by
    intro id hid
    have := sub.subset hid
    rw [hh.unfinished, List.mem_filter] at this
    simpa using this
  constructor
  · exact rested
  · exact holding
  · rw [hp]
    exact hh.increasing
  · rw [hp, runs]
    exact hh.bounded
  · rw [hc, List.nodup_append]
    refine ⟨hh.completedOnce, ?_, ?_⟩
    · rw [hh.unfinished] at sub
      exact (hh.pendingIds_nodup.filter _).sublist sub
    · rintro a ha b hb rfl
      exact (hopen a hb).2 ha
  · rw [hp, hc]
    intro id hid
    rcases List.mem_append.mp hid with hid | hid
    · exact hh.taken id hid
    · exact (hopen id hid).1
  · rw [hp, hc, rest, hh.unfinished, List.filter_filter]
    apply List.filter_congr
    intro id _
    simp [and_comm]
  · intro id d hid
    obtain ⟨c, hin, hasked⟩ := kept id d hid
    obtain ⟨n, hn, hs⟩ := hh.traced id c hin
    rw [Invocation.command_eq_of_asked hasked, Invocation.invoker_eq_of_asked hasked]
    exact ⟨n, List.mem_append_left _ hn, hs⟩
  · intro n hn hlt hnone
    rw [hp, runs]
    rcases List.mem_append.mp hn with hn | hn
    · exact hh.atOnce n hn hlt hnone
    · rw [List.mem_singleton] at hn
      subst hn
      rw [before, after, runs] at hlt
      omega

end Accounted

theorem Accounted.holds {h : List (Moment κ)} {e : Engine κ} (hh : Accounted h e) :
    ∀ p ∈ e.schedule.pending, ∃ c, p.runner.context? = some c := by
  intro p hp
  exact Option.isSome_iff_exists.mp (hh.holding _ (Schedule.mem_held hp))

theorem Accounted.ids_nodup {h : List (Moment κ)} {e : Engine κ} (hh : Accounted h e) :
    (e.schedule.pending.map (·.id)).Nodup := by
  rw [← Schedule.held_ids, hh.unfinished]
  exact hh.pendingIds_nodup.filter _

namespace Engine

variable {config : Config} {us : List (Use κ)}

section Step

variable [Code κ] {h : List (Moment κ)} {e : Engine κ}

theorem accounted_execute (hh : Accounted h e) (line : String) (invoker : Invoker)
    (meanwhile : List (Catalogue.Change κ)) :
    Accounted (h ++ [⟨e, .execute line invoker meanwhile,
      .dispatch (e.execute line invoker meanwhile).value.1,
      (e.execute line invoker meanwhile).value.2⟩]) (e.execute line invoker meanwhile).value.2 := by
  have hx := execute_executed hh.rested line invoker meanwhile
  generalize (e.execute line invoker meanwhile).value = x at hx
  cases hx with
  | refused pool free failed returned =>
    exact hh.quiet rfl rfl rfl rfl rfl (.inl rfl) hh.rested
  | misread waiting malformed =>
    exact hh.quiet rfl rfl rfl rfl rfl (.inl rfl) hh.rested
  | @replied c words context waiting read handled responded =>
    obtain ⟨response, conversations, pool, hc⟩ := concluded_frame
      { e with conversations := e.conversations.erase invoker.conversationKey } context
    rw [hc]
    exact hh.quiet rfl rfl (Moment.pendingId?_of_answered rfl) rfl rfl (.inl rfl) hh.rested
  | @answered command words bindings context pool runners commands free addressed handled responded
      rented rested =>
    obtain ⟨response, conversations, pool', hc⟩ := concluded_frame
      { e with pool, runners, commands, lastRun := e.lastRun + 1 } context
    rw [hc]
    exact hh.quiet rfl rfl (Moment.pendingId?_of_answered rfl) rfl rfl
      (.inr ⟨rfl, Moment.isAnswered_of_dispatchOf rfl⟩) rested
  | @suspended command words bindings context runner pool runners commands free addressed handled
      holds rented rested =>
    have hc := Invocation.command_eq_of_asked handled.asked
    have hi := congrArg Invoker.name (Invocation.invoker_eq_of_asked handled.asked)
    refine hh.suspend (c := context) rfl rfl rfl rfl ?_ ?_ rfl rested
    · exact ⟨line, invoker, meanwhile, command, rfl, rfl, addressed, hc.symm, hi.symm⟩
    · rw [Schedule.held_submit, Runner.context?_of_current? holds]

variable (meanwhile : RunId → List (Catalogue.Change κ))

/-- The completions of a tick are those of the runs that it finds finished. -/
theorem tick_ids (hh : Accounted h e) :
    (e.tick meanwhile).value.1.map (·.id) = e.ended.map (·.id) := by
  rw [value_tick]
  apply settleAll_ids
  intro f hf
  obtain ⟨p, _, c, d, _, _, _, hd, _⟩ := Schedule.handed_of_ends? hh.holds hf
  rw [hd]
  rfl

theorem tick_ids_sublist (hh : Accounted h e) :
    ((e.tick meanwhile).value.1.map (·.id)).Sublist (e.schedule.held.map (·.1)) := by
  rw [tick_ids meanwhile hh, Schedule.held_ids]
  exact Schedule.ends?_ids_sublist e.help e.schedule.pending

theorem accounted_tick (hh : Accounted h e) :
    Accounted (h ++ [⟨e, .tick meanwhile, .completions (e.tick meanwhile).value.1,
      (e.tick meanwhile).value.2⟩]) (e.tick meanwhile).value.2 := by
  obtain ⟨commands, runners, conversations, pool, hafter, hrested⟩ := tick_frame hh.rested meanwhile
  rw [hafter]
  refine hh.complete ((e.tick meanwhile).value.1.map (·.id)) rfl rfl rfl rfl
    (tick_ids_sublist meanwhile hh) ?_ ?_ ?_ rfl hrested
  · rw [tick_ids meanwhile hh, Schedule.held_ids, Schedule.held_ids]
    exact Schedule.stays?_ids hh.ids_nodup hh.holds
  · intro x hx
    obtain ⟨q, hq, rfl⟩ := List.mem_map.mp hx
    obtain ⟨p, _, c, d, _, _, _, hd, _⟩ := Schedule.held_of_stays? hh.holds hq
    exact Option.isSome_iff_exists.mpr ⟨d, hd⟩
  · intro id d hx
    obtain ⟨q, hq, hqd⟩ := List.mem_map.mp hx
    obtain ⟨p, hp, c, d', hid, _, hpc, hqd', hcd⟩ := Schedule.held_of_stays? hh.holds hq
    simp only [hqd', Prod.mk.injEq, Option.some.injEq] at hqd
    obtain ⟨rfl, rfl⟩ := hqd
    exact ⟨c, List.mem_map.mpr ⟨p, hp, by rw [hid, hpc]⟩, hcd.asked⟩

/-- A tick completes what was suspended before, for the same command and invoker. -/
theorem suspends_of_tick (hh : Accounted h e) {c : Completion}
    (hc : c ∈ (e.tick meanwhile).value.1) :
    ∃ m ∈ h, m.Suspends c.id c.command c.invoker := by
  rw [value_tick] at hc
  obtain ⟨f, hf, d, hd, hid, hcommand, hinvoker⟩ := exists_finished_of_completion hc
  obtain ⟨p, hp, b, d', hfp, _, hb, hd', _, hbd, _⟩ := Schedule.handed_of_ends? hh.holds hf
  rw [hd] at hd'
  injection hd' with hd'
  subst hd'
  have hheld : (c.id, some b) ∈ e.schedule.held :=
    List.mem_map.mpr ⟨p, hp, by rw [hid, hfp, hb]⟩
  obtain ⟨m, hm, hs⟩ := hh.traced _ _ hheld
  rw [hcommand, hinvoker, Invocation.command_eq_of_asked hbd.asked,
    Invocation.invoker_eq_of_asked hbd.asked]
  exact ⟨m, hm, hs⟩

end Step

theorem accounted_use {h : List (Moment κ)} {e : Engine κ} (hh : Accounted h e) (u : Use κ) :
    Accounted (h ++ [e.use u]) (e.use u).after := by
  obtain ⟨operation, code⟩ := u
  let := code
  cases operation with
  | execute line invoker meanwhile => exact accounted_execute hh line invoker meanwhile
  | tick meanwhile => exact accounted_tick meanwhile hh
  | register d =>
    obtain ⟨commands, runners, hr, hsub⟩ := e.register_frame d
    simp only [use, perform, Reported.value_bind, Reported.value_pure, hr]
    exact hh.quiet rfl rfl rfl rfl rfl (.inl rfl)
      (fun b hb => hh.rested b (hsub.subset hb))
  | registerCommand d =>
    obtain ⟨commands, hr⟩ := e.registerCommand_frame d
    simp only [use, perform, Reported.value_bind, Reported.value_pure, hr]
    exact hh.quiet rfl rfl rfl rfl rfl (.inl rfl) hh.rested
  | unregisterCommand name => exact hh.quiet rfl rfl rfl rfl rfl (.inl rfl) hh.rested
  | disturb changes => exact hh.quiet rfl rfl rfl rfl rfl (.inl rfl) hh.rested
  | registerParser key p => exact hh.quiet rfl rfl rfl rfl rfl (.inl rfl) hh.rested
  | endConversation key =>
    obtain ⟨pool, hr⟩ := e.endConversation_frame key
    simp only [use, perform, Reported.value_bind, Reported.value_pure, hr]
    exact hh.quiet rfl rfl rfl rfl rfl (.inl rfl) hh.rested
  | elapse d =>
    refine hh.quiet rfl rfl rfl rfl ?_ (.inl rfl) hh.rested
    exact Schedule.held_mapRunners e.schedule (fun r => (r.elapse_aside d).context?_eq)
  | work opened =>
    refine hh.quiet rfl rfl rfl rfl ?_ (.inl rfl) hh.rested
    exact Schedule.held_mapRunners e.schedule (fun r => (r.work_aside e.help opened).context?_eq)
  | workerEnds id result =>
    refine hh.quiet rfl rfl rfl rfl ?_ (.inl rfl) hh.rested
    exact Schedule.held_workerEnds e.schedule id result

theorem accounted_moments (config : Config) (us : List (Use κ)) :
    Accounted ((ofConfig config).moments us) ((ofConfig config).after us) := by
  induction us using List.reverseRecOn with
  | nil => exact .fresh config
  | append_singleton us u ih =>
    rw [moments_append, after_append]
    exact accounted_use ih u

theorem operation_of_completions {e : Engine κ} {u : Use κ} {c : Completion}
    (h : c ∈ (e.use u).completions) : ∃ meanwhile, (e.use u).operation = .tick meanwhile := by
  obtain ⟨operation, code⟩ := u
  cases operation with
  | tick meanwhile => exact ⟨meanwhile, rfl⟩
  | _ => cases h

/-- Over any life of an engine the numbers of suspended lines grow, each is completed at most once,
by a tick after its line and with the command and invoker of that line, and the runs in flight are
those not completed yet. One tick completes in order of the numbers. A run that is over within its
line is answered there and is never completed. -/
theorem suspended_lines_complete_once (config : Config) (us : List (Use κ)) :
    let moments := (ofConfig config).moments us
    ((pendingIds moments).map (·.number)).Pairwise (· < ·) ∧
    (completedIds moments).Nodup ∧
    (∀ past m future, moments = past ++ m :: future → ∀ c ∈ m.completions,
      (∃ meanwhile, m.operation = .tick meanwhile) ∧ ∃ n ∈ past, n.Suspends c.id c.command c.invoker) ∧
    ((ofConfig config).after us).inFlight =
      ((pendingIds moments).filter (· ∉ completedIds moments)).length ∧
    (∀ m ∈ moments, (m.completions.map (·.id.number)).Pairwise (· < ·)) ∧
    (∀ m ∈ moments, m.before.lastRun < m.after.lastRun → m.pendingId? = none →
      m.IsAnswered ∧ ⟨m.after.lastRun⟩ ∉ completedIds moments) := by
  intro moments
  have hh := accounted_moments (κ := κ) config us
  refine ⟨hh.increasing, hh.completedOnce, ?_, ?_, ?_, ?_⟩
  · intro past m future hm c hc
    obtain ⟨vs, u, ws, -, rfl, rfl⟩ := exists_use_of_moments hm
    have hpast := accounted_moments (κ := κ) config vs
    obtain ⟨meanwhile, htick⟩ := operation_of_completions hc
    refine ⟨⟨meanwhile, htick⟩, ?_⟩
    obtain ⟨operation, code⟩ := u
    change operation = .tick meanwhile at htick
    subst htick
    let := code
    exact suspends_of_tick meanwhile hpast hc
  · have hlen := congrArg List.length hh.unfinished
    rw [Schedule.held_ids, List.length_map] at hlen
    exact hlen
  · intro m hm
    obtain ⟨past, future, hsplit⟩ := List.append_of_mem hm
    obtain ⟨vs, u, ws, -, -, rfl⟩ := exists_use_of_moments hsplit
    have hpast := accounted_moments (κ := κ) config vs
    obtain ⟨operation, code⟩ := u
    cases operation with
    | tick meanwhile =>
      let := code
      have hids := (tick_ids_sublist meanwhile hpast).map RunId.number
      rw [List.map_map, hpast.unfinished] at hids
      exact (hpast.increasing.sublist (List.filter_sublist.map _)).sublist hids
    | _ => exact .nil
  · intro m hm hlt hnone
    obtain ⟨hanswered, -, hnot⟩ := hh.atOnce m hm hlt hnone
    exact ⟨hanswered, fun hin => hnot (hh.taken _ hin)⟩

end Engine
end CommandConsole
