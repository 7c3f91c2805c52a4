import CommandConsole.Proofs.Engine.Alone
import CommandConsole.Proofs.Runner.Stepping

/-! Suspended coroutines go on by one step a tick, whatever else is going on. -/
namespace CommandConsole

variable {κ : Type}

def Moment.isTick (m : Moment κ) : Bool :=
  match m.operation with
  | .tick _ => true
  | _ => false

/-- How many of some moments are ticks. -/
def ticks (h : List (Moment κ)) : Nat := h.countP (·.isTick)

theorem completedIds_append_singleton (h : List (Moment κ)) (m : Moment κ) :
    completedIds (h ++ [m]) = completedIds h ++ m.completions.map (·.id) := by
  simp only [completedIds, List.flatMap_append, List.flatMap_singleton]

theorem ticks_singleton (m : Moment κ) : ticks [m] = if m.isTick = true then 1 else 0 :=
  List.countP_singleton

theorem ticks_append (h g : List (Moment κ)) : ticks (h ++ g) = ticks h + ticks g :=
  List.countP_append

namespace Engine

variable {B : Code κ → Prop} {config : Config} {e : Engine κ} {us ws : List (Use κ)} {u : Use κ}
  {id : RunId} {k : Nat} {c d : Context κ}

/-- The run of a number is suspended, with a coroutine that is to yield so many times before it ends
the run. -/
def Awaits (B : Code κ → Prop) (e : Engine κ) (id : RunId) (k : Nat) (d : Context κ) : Prop :=
  ∃ s ∈ e.schedule.pending, s.id = id ∧
    ∃ code c, Runner.Steps s.runner id code c ∧ Runner.Yields B k code c d

theorem isTick_use : (e.use u).isTick = true ↔ ∃ meanwhile, u.operation = .tick meanwhile := by
  obtain ⟨operation, code⟩ := u
  cases operation <;> simp [use, Moment.isTick]

/-- Only in a tick is a runner polled. -/
theorem act?_aside {a : Act κ} (ha : e.act? id u = some a)
    (hu : ¬∃ meanwhile, u.operation = .tick meanwhile) :
    a.call ≠ .poll ∧ a.call ≠ .reset ∧ ∀ c i, a.call ≠ .run c i := by
  obtain ⟨operation, code⟩ := u
  cases operation with
  | tick meanwhile => exact absurd ⟨meanwhile, rfl⟩ hu
  | elapse t =>
    injection ha with ha
    subst ha
    simp
  | work opened =>
    injection ha with ha
    subst ha
    simp
  | workerEnds i result =>
    simp only [act?] at ha
    split at ha
    · injection ha with ha
      subst ha
      simp
    · cases ha
  | _ => cases ha

/-- Nothing but a tick has an effect on a suspended coroutine. -/
theorem Awaits.aside (hr : Rested e.runners) (h : Awaits B e id k d)
    (hu : ¬∃ meanwhile, u.operation = .tick meanwhile) : Awaits B (e.use u).after id k d := by
  obtain ⟨s, hs, hid, code, c, steps, rest⟩ := h
  cases ha : e.act? s.id u with
  | none => exact ⟨s, use_aside hr hs ha, hid, code, c, steps, rest⟩
  | some a =>
    obtain ⟨hpoll, hreset, hrun⟩ := act?_aside ha hu
    obtain ⟨hafter, hfired⟩ := steps.exchange_aside hpoll hreset hrun
    have hnext := use_goes_on hr hs steps.context? ha hfired
    rw [hafter] at hnext
    exact ⟨s, hnext, hid, code, c, steps, rest⟩

/-- A tick lets it yield once. -/
theorem Awaits.tick {meanwhile : RunId → List (Catalogue.Change κ)} (hr : Rested e.runners)
    (h : Awaits B e id (k + 1) d) (hB : B u.code) (hu : u.operation = .tick meanwhile) :
    Awaits B (e.use u).after id k d := by
  obtain ⟨s, hs, hid, code, c, steps, rest⟩ := h
  obtain ⟨operation, C⟩ := u
  subst hu
  obtain ⟨hfired, next, c', steps', rest'⟩ :=
    rest.exchange_poll (a := ⟨.poll, e.help, C⟩) hB steps rfl
  exact ⟨_, use_goes_on (u := ⟨.tick meanwhile, C⟩) hr hs steps.context? rfl hfired, hid, next, c',
    steps', rest'⟩

/-- Once it has yielded for the last time, a tick completes the run. -/
theorem Awaits.completes {meanwhile : RunId → List (Catalogue.Change κ)} (h : Awaits B e id 0 d)
    (hB : B u.code) (hu : u.operation = .tick meanwhile) :
    completionOf id d ∈ (e.use u).completions := by
  obtain ⟨s, hs, rfl, code, c, steps, rest⟩ := h
  obtain ⟨operation, C⟩ := u
  subst hu
  have hfired := rest.exchange_last (a := ⟨.poll, e.help, C⟩) hB steps rfl
  exact use_completes (u := ⟨.tick meanwhile, C⟩) hs steps.context? rfl hfired

/-- A run that is still suspended has not been completed. -/
theorem Awaits.not_completed {h : List (Moment κ)} (hh : Accounted h e) (hw : Awaits B e id k d) :
    id ∉ completedIds h := by
  obtain ⟨s, hs, rfl, -⟩ := hw
  have hin : s.id ∈ e.schedule.held.map (·.1) := by
    rw [Schedule.held_ids]
    exact List.mem_map_of_mem hs
  rw [hh.unfinished] at hin
  exact of_decide_eq_true (List.mem_filter.mp hin).2

/-- Where a run stands after some ticks: its coroutine is still to yield, or it has been completed. -/
def Stands (B : Code κ → Prop) (h : List (Moment κ)) (e : Engine κ) (id : RunId) (k n : Nat)
    (d : Context κ) : Prop :=
  (n ≤ k ∧ Awaits B e id (k - n) d) ∨ (k < n ∧ id ∈ completedIds h)

theorem Stands.use {h : List (Moment κ)} {n : Nat} (hs : Stands B h e id k n d)
    (hr : Rested e.runners) (hB : B u.code) :
    Stands B (h ++ [e.use u]) (e.use u).after id k (n + ticks [e.use u]) d := by
  simp only [Stands, completedIds_append_singleton, List.mem_append, ticks_singleton] at hs ⊢
  rcases hs with ⟨hfew, hawaits⟩ | ⟨hmany, hdone⟩
  · by_cases htick : ∃ meanwhile, u.operation = .tick meanwhile
    · simp only [isTick_use.mpr htick, if_true]
      obtain ⟨meanwhile, htick⟩ := htick
      cases hleft : k - n with
      | zero =>
        rw [hleft] at hawaits
        have hcompleted := List.mem_map_of_mem (f := (·.id)) (hawaits.completes hB htick)
        exact .inr ⟨by omega, .inr hcompleted⟩
      | succ j =>
        rw [hleft] at hawaits
        have hj : k - (n + 1) = j := by omega
        rw [hj]
        exact .inl ⟨by omega, hawaits.tick hr hB htick⟩
    · simp only [mt isTick_use.mp htick]
      exact .inl ⟨hfew, hawaits.aside hr htick⟩
  · exact .inr ⟨by omega, .inl hdone⟩

/-- In each tick a suspended coroutine yields once, until its run is completed. -/
theorem stands_after (h : Awaits B ((ofConfig config).after us) id k d) (hB : ∀ w ∈ ws, B w.code) :
    Stands B ((ofConfig config).moments (us ++ ws)) ((ofConfig config).after (us ++ ws)) id k
      (ticks (((ofConfig config).after us).moments ws)) d := by
  induction ws using List.reverseRecOn with
  | nil =>
    rw [List.append_nil]
    exact .inl ⟨Nat.zero_le k, h⟩
  | append_singleton ws w ih =>
    have hrested := (accounted_moments config (us ++ ws)).rested
    have hstands := ih fun v hv => hB v (List.mem_append_left _ hv)
    have hnext := hstands.use hrested (hB w (by simp))
    rw [moments_append _ ws, ticks_append, ← after_append _ us, ← List.append_assoc,
      moments_append _ (us ++ ws), after_append _ (us ++ ws)]
    exact hnext

/-- No two completions of a tick have the same number. -/
theorem filter_completions_of_mem {h : List (Moment κ)} (hh : Accounted h e) {x : Completion}
    (hx : x ∈ (e.use u).completions) : (e.use u).completions.filter (·.id = x.id) = [x] := by
  have hnodup : ((e.use u).completions.map (·.id)).Nodup := by
    have hnext := (accounted_use hh u).completedOnce
    rw [completedIds_append_singleton] at hnext
    exact (List.nodup_append.mp hnext).2.1
  obtain ⟨earlier, later, hsplit⟩ := List.append_of_mem hx
  rw [hsplit, List.map_append, List.map_cons, List.nodup_append, List.nodup_cons] at hnodup
  obtain ⟨-, ⟨hlater, -⟩, hearlier⟩ := hnodup
  have hnone : earlier.filter (·.id = x.id) = [] := by
    rw [List.filter_eq_nil_iff]
    intro y hy
    exact fun hid => hearlier _ (List.mem_map_of_mem hy) _ List.mem_cons_self (of_decide_eq_true hid)
  have hnone' : later.filter (·.id = x.id) = [] := by
    rw [List.filter_eq_nil_iff]
    intro y hy hid
    exact hlater (of_decide_eq_true hid ▸ List.mem_map_of_mem hy)
  have hkept : (x :: later).filter (·.id = x.id) = x :: later.filter (·.id = x.id) :=
    List.filter_cons_of_pos (decide_eq_true rfl)
  rw [hsplit, List.filter_append, hnone, hkept, hnone']
  rfl

/-- A run that is awaited is completed in its tick, and neither before nor after. -/
theorem Stands.completions {h : List (Moment κ)} {n : Nat} {response : Response}
    (hs : Stands B h e id k n d) (hh : Accounted h e) (hB : B u.code)
    (hr : d.invocation.response? = some response) :
    (e.use u).completions.filter (·.id = id) =
      if (e.use u).isTick = true ∧ n = k then
        [⟨id, d.invocation.command, d.invocation.invoker.name, response⟩]
      else [] := by
  by_cases hnow : (e.use u).isTick = true ∧ n = k
  · obtain ⟨htick, rfl⟩ := hnow
    rcases hs with ⟨-, hawaits⟩ | ⟨hmany, -⟩
    · rw [Nat.sub_self] at hawaits
      obtain ⟨meanwhile, hoperation⟩ := isTick_use.mp htick
      have hfilter := filter_completions_of_mem hh (hawaits.completes hB hoperation)
      simp only [completionOf, hr, Option.getD_some] at hfilter
      rw [if_pos ⟨htick, rfl⟩]
      exact hfilter
    · exact absurd hmany (Nat.lt_irrefl n)
  · have hh' := accounted_use hh u
    -- after this use the run is still awaited, or else it was completed before
    have hnone : id ∉ (e.use u).completions.map (·.id) := by
      intro hin
      have hin' : id ∈ completedIds (h ++ [e.use u]) := by
        rw [completedIds_append_singleton]
        exact List.mem_append_right _ hin
      rcases hs.use hh.rested hB with ⟨-, hawaits⟩ | ⟨hmany, -⟩
      · exact hawaits.not_completed hh' hin'
      · rcases hs with ⟨hfew, -⟩ | ⟨-, hdone⟩
        · rw [ticks_singleton] at hmany
          split at hmany
          · rename_i htick
            exact hnow ⟨htick, by omega⟩
          · omega
        · have hnodup := hh'.completedOnce
          rw [completedIds_append_singleton, List.nodup_append] at hnodup
          exact hnodup.2.2 id hdone id hin rfl
    rw [if_neg hnow, List.filter_eq_nil_iff]
    intro y hy hid
    exact hnone (of_decide_eq_true hid ▸ List.mem_map_of_mem hy)

/-- The number of an awaited run is completed in one tick of all that are to come. -/
theorem Awaits.completions {response : Response} {past future : List (Moment κ)} {n : Moment κ}
    (h : Awaits B ((ofConfig config).after us) id k d) (hB : ∀ w ∈ ws, B w.code)
    (hr : d.invocation.response? = some response)
    (hsplit : ((ofConfig config).after us).moments ws = past ++ n :: future) :
    n.completions.filter (·.id = id) =
      if n.isTick = true ∧ ticks past = k then
        [⟨id, d.invocation.command, d.invocation.invoker.name, response⟩]
      else [] := by
  obtain ⟨vs, u, ws, rfl, rfl, rfl⟩ := exists_use_of_moments hsplit
  have hstands := stands_after h fun v hv => hB v (List.mem_append_left _ hv)
  rw [← after_append]
  exact hstands.completions (accounted_moments config (us ++ vs)) (hB u (by simp)) hr

/-- The run that a line has begun is suspended, and completed in the tick of the given number after
the line, once, whatever else is done as long as handlers behave in some known way. -/
structure CompletesInTick (m : Moment κ) (B : Code κ → Prop) (k : Nat) (x : Completion) : Prop where
  suspended : m.answer = .dispatch (.pending x.id)
  completed : ∀ ws, (∀ w ∈ ws, B w.code) → ∀ past n future,
    m.after.moments ws = past ++ n :: future →
    n.completions.filter (·.id = x.id) =
      if n.isTick = true ∧ ticks past + 1 = k then [x] else []

/-- A line for a coroutine that is to yield so often begins a run that is completed in the tick of
that number. -/
theorem completesInTick_of_begun {line : String} {invoker : Invoker}
    (meanwhile : List (Catalogue.Change κ)) {code : Code κ} {command : Command κ} {start : κ}
    {response : Response}
    (begun : ((ofConfig config).after us).begun? line invoker = some (command, c))
    (stepped : command.execution = .stepped start) (known : B code)
    (yields : Runner.Yields B (k + 1) start c d) (hr : d.invocation.response? = some response) :
    let m := ((ofConfig config).after us).use ⟨.execute line invoker meanwhile, code⟩
    m.after.lastRun = ((ofConfig config).after us).lastRun + 1 ∧
      CompletesInTick m B (k + 1) ⟨⟨m.after.lastRun⟩, command.name, invoker.name, response⟩ := by
  intro m
  have hbegins := begins_of_begun (sound_after config us) begun meanwhile code
  obtain ⟨-, q, b, -, -, hc⟩ := begun?_spec begun
  have hasked := yields.asked known
  -- the first step is taken with the line itself
  obtain ⟨hfired, next, c', steps, rest⟩ := yields.exchange_run
    (a := ⟨.run c ⟨((ofConfig config).after us).lastRun + 1⟩, ((ofConfig config).after us).help,
      code⟩)
    (r := ((ofConfig config).after us).fresh command) known rfl stepped rfl
  obtain ⟨hanswer, hpending⟩ := hbegins.suspended hfired
  have hnext :
      m.after = (ofConfig config).after (us ++ [⟨.execute line invoker meanwhile, code⟩]) :=
    (after_append _ us [_]).symm
  have hawaits : Awaits B m.after ⟨m.after.lastRun⟩ k d := by
    refine ⟨_, hpending, rfl, next, c', ?_, rest⟩
    rw [hbegins.numbered]
    exact steps
  have hcommand : d.invocation.command = command.name := by
    rw [Invocation.command_eq_of_asked hasked, hc]
    rfl
  have hinvoker : d.invocation.invoker = invoker := by
    rw [Invocation.invoker_eq_of_asked hasked, hc]
    rfl
  refine ⟨hbegins.numbered, hanswer, ?_⟩
  generalize m.after.lastRun = number at hawaits ⊢
  intro ws hB past n future hsplit
  rw [hnext] at hawaits hsplit
  have hcompletions := hawaits.completions hB hr hsplit
  rw [hcommand, hinvoker] at hcompletions
  simpa only [Nat.add_right_cancel_iff] using hcompletions

/-- The runs of coroutines advance independently. A line of any life begins a run of a coroutine that
yields `k` times, once at least, before it answers, fails or panics. Then it is completed in just the
`k`-th tick after the line, with the response that it is completed with in any engine that has been
set up with the same commands and parsers, and where nothing else is run; there are such engines. All
handlers may behave in any way under which this coroutine goes through the same steps, and whatever
else is done, to the catalogue too, does not matter. -/
theorem stepped_runs_advance_independently (config : Config) (us : List (Use κ)) (line : String)
    (invoker : Invoker) (meanwhile : List (Catalogue.Change κ)) (code : Code κ) (B : Code κ → Prop)
    (k : Nat) (command : Command κ) (start : κ) (c d : Context κ)
    (begun : ((ofConfig config).after us).begun? line invoker = some (command, c))
    (stepped : command.execution = .stepped start) (known : B code) (positive : 1 ≤ k)
    (yields : Runner.Yields B k start c d) :
    let e := (ofConfig config).after us
    let m := e.use ⟨.execute line invoker meanwhile, code⟩
    ∃ response, d.invocation.response? = some response ∧
      CompletesInTick m B k ⟨⟨m.after.lastRun⟩, command.name, invoker.name, response⟩ ∧
      (∃ vs : List (Use κ), (∀ v ∈ vs, v.setsUp = true) ∧ Equipped e ((ofConfig config).after vs)) ∧
      ∀ vs : List (Use κ), (∀ v ∈ vs, v.setsUp = true) →
        let alone := (ofConfig config).after vs
        Equipped e alone → alone.inFlight = 0 ∧ alone.conversationCount = 0 ∧
        alone.begun? line invoker = some (command, c) ∧
        ∀ meanwhile', CompletesInTick (alone.use ⟨.execute line invoker meanwhile', code⟩) B k
          ⟨⟨1⟩, command.name, invoker.name, response⟩ := by
  intro e m
  obtain ⟨k, rfl⟩ := Nat.exists_eq_add_of_le' positive
  obtain ⟨response, hr⟩ := yields.exists_response
  obtain ⟨-, hcompletes⟩ :=
    completesInTick_of_begun meanwhile begun stepped known yields hr
  refine ⟨response, hr, hcompletes, exists_equipped config us, ?_⟩
  intro vs hvs alone hequipped
  have hfresh : Fresh alone := fresh_after config hvs
  have hbegun := begun?_alone begun hvs hequipped
  refine ⟨?_, ?_, hbegun, ?_⟩
  · exact congrArg List.length hfresh.nothingSuspended
  · exact congrArg List.length hfresh.nothingOpen
  · intro meanwhile'
    obtain ⟨hnumber, hcompletes'⟩ :=
      completesInTick_of_begun meanwhile' hbegun stepped known yields hr
    rw [hfresh.nothingRun] at hnumber
    rwa [hnumber] at hcompletes'

/-- A coroutine that counts down and then panics. -/
@[reducible]
def countingDown : Code Nat where
  body _ := .done ()
  resume
    | 0 => .raise (.panicked (some "over"))
    | n + 1 => .done (some n)
  launch _ _ := ⟨[], .ok 0⟩
  work _ _ _ := none

theorem exists_yields_countingDown (n : Nat) (c : Context Nat) :
    ∃ d, Runner.Yields (· = countingDown) n n c d := by
  induction n with
  | zero =>
    refine ⟨_, .ends (o := ⟨c, [], .error (.panicked (some "over"))⟩) ?_ (by simp)⟩
    rintro C rfl help
    rfl
  | succ n ih =>
    obtain ⟨d, hd⟩ := ih
    refine ⟨d, .yields (o := ⟨c, [], .ok (some n)⟩) ?_ rfl hd⟩
    rintro C rfl help
    rfl

/-- One such run behind another: it panics in the second tick. -/
theorem second_tick_completes :
    let uses := List.map fun o : Operation Nat => (⟨o, countingDown⟩ : Use Nat)
    let e := (ofConfig {}).after (uses
      [.registerCommand { name := "count", execution := .stepped 2 },
        .execute "count" (.named "bob"), .tick])
    let m := e.use ⟨.execute "count" (.named "ada"), countingDown⟩
    ∃ command c d response, e.begun? "count" (.named "ada") = some (command, c) ∧
      command.execution = .stepped 2 ∧ Runner.Yields (· = countingDown) 2 2 c d ∧
      d.invocation.response? = some response ∧
      CompletesInTick m (· = countingDown) 2 ⟨⟨2⟩, "count", "ada", response⟩ := by
  intro uses e m
  have hfirst : (e.begun? "count" (.named "ada")).map (fun x => (x.1.name, x.1.execution)) =
      some ("count", .stepped 2) := by decide +kernel
  obtain ⟨⟨command, c⟩, begun, hcommand⟩ := Option.map_eq_some_iff.mp hfirst
  obtain ⟨hname, stepped⟩ := Prod.mk.inj hcommand
  obtain ⟨d, yields⟩ := exists_yields_countingDown 2 c
  obtain ⟨response, hr, hcompletes, -⟩ := stepped_runs_advance_independently {} _ "count"
    (.named "ada") [] countingDown (· = countingDown) 2 command 2 c d begun stepped rfl (by decide)
    yields
  have hnumber : m.after.lastRun = 2 := by decide +kernel
  rw [hname, hnumber] at hcompletes
  exact ⟨command, c, d, response, begun, stepped, yields, hr, hcompletes⟩

end Engine
end CommandConsole
