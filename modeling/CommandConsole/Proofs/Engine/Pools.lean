import CommandConsole.Proofs.Engine.Life
import CommandConsole.Proofs.Engine.Ticks
import CommandConsole.Proofs.Pools
import CommandConsole.Proofs.Runner.Calls

/-! The runners that an engine rents, lends and takes back. -/
namespace CommandConsole

variable {κ : Type} {outs : List (Command κ)}

namespace Engine

variable {e : Engine κ} {command origin : Command κ}

/-- A new runner for a command. -/
def fresh (e : Engine κ) (command : Command κ) : Runner κ :=
  { Runner.create command.execution with slowAfter := e.config.slowTaskThreshold }

/-- The pools of an engine are in order, while some runners are out of them. -/
def PoolsHold (e : Engine κ) (outs : List (Command κ)) : Prop :=
  Pooled outs e.config.runnerPoolCapacity e.commands e.runners

theorem eq_fresh {r : Runner κ} (resting : r.Resting)
    (made : r.execution = command.execution) :
    { r with slowAfter := e.config.slowTaskThreshold } = e.fresh command := by
  obtain ⟨⟨still, unheard⟩, idle⟩ := resting
  simp only [fresh, Runner.create, made, still, unheard, idle]

/-- A command of the catalogue gets a runner that is as good as a new one for it. -/
theorem rentRunner_fresh (h : e.PoolsHold outs) (hc : e.commands.Registered command) :
    ∃ runners, e.rentRunner command = (e.fresh command, { e with runners }) ∧
      ({ e with runners } : Engine κ).PoolsHold (command :: outs) := by
  unfold rentRunner
  cases hf : e.runners.find? command.name with
  | none =>
    refine ⟨e.runners, rfl, h.lend hc ?_⟩
    intro b hb hn
    have hnone := (Table.find?_eq_none_iff e.runners command.name).mp hf
    exact absurd (List.mem_map.mpr ⟨b, hb, hn⟩) hnone
  | some idle =>
    have hmem := Table.mem_of_find? hf
    have hstock := h.stocked _ hmem
    have hfilter := List.filter_sublist (p := (·.origin.registration == command.registration))
      (l := idle)
    have hown : ∀ p ∈ idle.filter (·.origin.registration == command.registration),
        p.origin = command := by
      intro p hp
      obtain ⟨hp, hr⟩ := List.mem_filter.mp hp
      exact h.distinct _ _ (.pooled hmem hp rfl) (.registered hc) (by simpa using hr)
    -- What is left of the pool, of this registration alone, disturbs nobody.
    have hlend : ∀ left : List (PooledRunner κ),
        left.Sublist (idle.filter (·.origin.registration == command.registration)) →
        Pooled (command :: outs) e.config.runnerPoolCapacity e.commands
          (e.runners.insert command.name left) := by
      intro left hleft
      have hstocked := h.restock (Stock.sublist hstock (hleft.trans hfilter))
        (fun p hp => .pooled hmem (hfilter.subset (hleft.subset hp)) rfl)
        (fun o ho hr hn p hp =>
          h.undisturbed o ho hr _ hmem hn p (hfilter.subset (hleft.subset hp)))
      refine hstocked.lend hc ?_
      rintro ⟨name, kept⟩ hb hn p hp
      simp only at hn
      subst hn
      have hkept := Table.eq_of_mem_insert h.nodup hb
      subst hkept
      exact hown p (hleft.subset hp)
    generalize hl : idle.filter (·.origin.registration == command.registration) = own at *
    simp only [hl]
    cases own with
    | nil => exact ⟨e.runners.insert command.name [], rfl, hlend [] (.refl _)⟩
    | cons p rest =>
      have hp : p ∈ idle := hfilter.subset List.mem_cons_self
      have hmade := hstock.made p hp
      rw [hown p List.mem_cons_self] at hmade
      refine ⟨e.runners.insert command.name rest, ?_, hlend rest (List.sublist_cons_self p rest)⟩
      simp only [eq_fresh (hstock.rested p hp) hmade]

theorem registered_of_isCurrent (h : e.PoolsHold outs) (ho : origin ∈ outs)
    (hc : e.isCurrent origin = true) : e.commands.Registered origin := by
  simp only [isCurrent] at hc
  split at hc
  · rename_i current hf
    have hcurrent := Catalogue.registered_of_find? h.keyed hf
    have heq := h.distinct _ _ (.registered hcurrent) (.out ho) (by simpa using hc)
    exact heq ▸ hcurrent
  · cases hc

/-- A runner that comes back is kept only if its registration is still the one in the catalogue. -/
theorem recycle_pooled (h : e.PoolsHold outs) (ho : origin ∈ outs) {runner : Runner κ}
    (made : runner.execution = origin.execution) :
    ∃ runners, (e.recycle origin runner).value = { e with runners } ∧
      ({ e with runners } : Engine κ).PoolsHold outs := by
  cases hc : e.isCurrent origin with
  | false => exact ⟨e.runners, by simp [recycle, hc], h⟩
  | true =>
    cases hp : runner.shouldPool with
    | false => exact ⟨e.runners, by simp [recycle, hc, hp], h⟩
    | true =>
      cases hf : runner.isFinished with
      | false => exact ⟨e.runners, by simp [recycle, hc, hp, Runner.reset, hf], h⟩
      | true =>
        have hr := registered_of_isCurrent h ho hc
        obtain ⟨hstock, hmem⟩ := h.stock_getD origin.name
        have hown : ∀ p ∈ (e.runners.find? origin.name).getD [], p.origin = origin := by
          intro p hp
          obtain ⟨b, hb, hn, hpb⟩ := hmem p hp
          exact h.undisturbed origin ho hr b hb hn p hpb
        generalize hidle : (e.runners.find? origin.name).getD [] = idle at hstock hown
        refine ⟨_, by simp [recycle, hc, hp, Runner.reset, hf, hidle]; rfl, ?_⟩
        have hback : Stock e.config.runnerPoolCapacity origin.name
            (if idle.length < e.config.runnerPoolCapacity then
              ⟨origin, { runner with state := .idle, inFlight := none, completion := none }⟩ :: idle
              else idle) :=
          hstock.giveBack hown ⟨⟨rfl, rfl⟩, rfl⟩ made
        apply h.restock hback
        · intro p hp
          rw [Stock.origin_of_giveBack hown hp]
          exact .out ho
        · intro o _ hr' hn p hp
          rw [Stock.origin_of_giveBack hown hp]
          exact h.keyed.eq_of_name hr hr' hn

/-! Lines and ticks -/

/-- Every pool is in order, with the runners of suspended runs out, each of them made for the
registration of its run. -/
structure Sound (e : Engine κ) : Prop where
  pools : e.PoolsHold (e.schedule.pending.map (·.origin))
  made : ∀ s ∈ e.schedule.pending, s.runner.execution = s.origin.execution

/-- What becomes of a run once its runner has taken it on: it is suspended under the latest number,
or the line is answered. -/
def taken (e : Engine κ) (command : Command κ) (x : Runner κ × Option (Posted κ)) :
    Dispatch × Engine κ :=
  match x.2 with
  | none =>
    (.pending ⟨e.lastRun⟩, { e with schedule := e.schedule.submit ⟨e.lastRun⟩ command x.1 })
  | some posted => (e.recycle command x.1).value.concluded posted.context

theorem PoolsHold.disturb (h : e.PoolsHold outs) (changes : List (Catalogue.Change κ)) :
    (e.disturb changes).value.PoolsHold outs :=
  Pooled.changeAll h changes

theorem registered_of_addressed (h : e.PoolsHold outs) {line : String}
    (ha : e.addressed? line = some command) : e.commands.Registered command := by
  obtain ⟨name, -, hf⟩ := Option.bind_eq_some_iff.mp ha
  exact Catalogue.registered_of_find? h.keyed hf

theorem taken_sound {x : Runner κ × Option (Posted κ)}
    (h : e.PoolsHold (command :: e.schedule.pending.map (·.origin)))
    (made : ∀ s ∈ e.schedule.pending, s.runner.execution = s.origin.execution)
    (own : x.1.execution = command.execution) : Sound (e.taken command x).2 := by
  obtain ⟨runner, _ | posted⟩ := x
  · constructor
    · apply Pooled.of_subset h
      intro o ho
      simp only [taken, Schedule.submit, List.map_append, List.map_cons, List.map_nil,
        List.mem_append, List.mem_singleton] at ho
      rcases ho with ho | rfl
      · exact List.mem_cons_of_mem _ ho
      · exact List.mem_cons_self
    · intro s hs
      simp only [taken, Schedule.submit, List.mem_append, List.mem_singleton] at hs
      rcases hs with hs | rfl
      · exact made s hs
      · exact own
  · obtain ⟨runners, hr, hpools⟩ := recycle_pooled h List.mem_cons_self own
    obtain ⟨response, conversations, pool, hc⟩ := concluded_frame { e with runners } posted.context
    simp only [taken, hr, hc]
    exact ⟨hpools.of_subset fun o ho => List.mem_cons_of_mem _ ho, made⟩

/-- What keeps the origins and the handlers of suspended runs leaves the pools in order. -/
theorem Sound.reschedule (h : Sound e) {s : Schedule κ (Command κ)}
    (hs : ∀ q ∈ s.pending, ∃ p ∈ e.schedule.pending,
      q.origin = p.origin ∧ q.runner.execution = p.runner.execution) :
    Sound { e with schedule := s } := by
  constructor
  · apply Pooled.of_subset h.pools
    intro o ho
    obtain ⟨q, hq, rfl⟩ := List.mem_map.mp ho
    obtain ⟨p, hp, horigin, -⟩ := hs q hq
    exact List.mem_map.mpr ⟨p, hp, horigin.symm⟩
  · intro q hq
    obtain ⟨p, hp, horigin, hexecution⟩ := hs q hq
    rw [horigin, hexecution, h.made p hp]

theorem Sound.mapRunners (h : Sound e) {f : Runner κ → Runner κ}
    (hf : ∀ r, (f r).execution = r.execution) :
    Sound { e with schedule := e.schedule.mapRunners f } := by
  apply h.reschedule
  intro q hq
  obtain ⟨p, hp, rfl⟩ := List.mem_map.mp hq
  exact ⟨p, hp, rfl, hf p.runner⟩

theorem Sound.workerEnds (h : Sound e) (id : RunId) (result : Except Fault Response) :
    Sound { e with schedule := e.schedule.workerEnds id result } := by
  apply h.reschedule
  intro q hq
  obtain ⟨p, hp, rfl⟩ := List.mem_map.mp hq
  refine ⟨p, hp, ?_⟩
  split <;> simp

theorem settled_pools (h : e.PoolsHold outs) {f : Finished κ (Command κ)}
    (ho : f.origin ∈ outs) (made : f.runner.execution = f.origin.execution)
    (changes : List (Catalogue.Change κ)) (c : Context κ) :
    ∃ commands runners conversations pool,
      (e.settled changes f c).2 = { e with commands, runners, conversations, pool } ∧
      Pooled outs e.config.runnerPoolCapacity commands runners := by
  have hchanged := h.disturb changes
  rw [disturb_frame] at hchanged
  generalize hcommands : (e.commands.changeAll changes).value = commands at hchanged
  obtain ⟨runners, hr, hpools⟩ := recycle_pooled hchanged ho made
  obtain ⟨conversations, pool, hc⟩ := conclude_frame { e with commands, runners } c
  refine ⟨commands, runners, conversations, pool, ?_, hpools⟩
  simp only [settled, disturb_frame, hcommands, hr, hc]

theorem settleAll_pools {fs : List (Finished κ (Command κ))} (h : e.PoolsHold outs)
    (hf : ∀ f ∈ fs, ∀ c, f.context = some c →
      f.origin ∈ outs ∧ f.runner.execution = f.origin.execution)
    (meanwhile : RunId → List (Catalogue.Change κ)) :
    ∃ commands runners conversations pool,
      (e.settleAll meanwhile fs).value.2 = { e with commands, runners, conversations, pool } ∧
      Pooled outs e.config.runnerPoolCapacity commands runners := by
  refine settleAll_keeps
    (P := fun x => ∃ commands runners conversations pool,
      x = { e with commands, runners, conversations, pool } ∧
      Pooled outs e.config.runnerPoolCapacity commands runners) ?_ hf
    ⟨e.commands, e.runners, e.conversations, e.pool, rfl, h⟩
  rintro _ f c ⟨commands, runners, conversations, pool, rfl, hpools⟩ ⟨ho, made⟩
  obtain ⟨commands', runners', conversations', pool', hs, hpools'⟩ :=
    settled_pools (e := { e with commands, runners, conversations, pool }) hpools ho made
      (meanwhile f.id) c
  exact ⟨commands', runners', conversations', pool', hs, hpools'⟩

theorem registerCommand_cases (e : Engine κ) (d : CommandDeclaration κ) :
    (∃ err, (e.registerCommand d).value = (.error err, e)) ∨
      ∃ new, (e.registerCommand d).value = (.ok new, { e with commands := e.commands.put new }) ∧
        new.registration = e.commands.registrations := by
  simp only [registerCommand, Reported.value_bind]
  rcases e.commands.register_cases d e.parsers with ⟨err, hr⟩ | ⟨new, hr, fresh⟩
  · rw [hr]
    exact .inl ⟨err, rfl⟩
  · rw [hr]
    exact .inr ⟨new, rfl, fresh⟩

theorem registerCommand_sound (h : Sound e) (d : CommandDeclaration κ) :
    Sound (e.registerCommand d).value.2 := by
  rcases e.registerCommand_cases d with ⟨err, hr⟩ | ⟨new, hr, fresh⟩
  · rw [hr]
    exact h
  · rw [hr]
    exact ⟨h.pools.put fresh, h.made⟩

theorem unregisterCommand_sound (h : Sound e) (name : String) :
    Sound (e.unregisterCommand name).2 := by
  simp only [unregisterCommand]
  rcases e.commands.unregister_cases name with hu | ⟨old, hu⟩
  · rw [hu]
    exact h
  · rw [hu]
    exact ⟨h.pools.shrink (fun _ ho => ho) (h.pools.keyed.remove old) (fun _ => .of_remove) rfl
      (.refl _), h.made⟩

theorem register_sound (h : Sound e) (d : CommandDeclaration κ) :
    Sound (e.register d).value.2 := by
  simp only [register, Reported.value_bind]
  rcases e.registerCommand_cases d with ⟨err, hr⟩ | ⟨new, hr, fresh⟩
  · simp only [hr]
    exact h
  · simp only [hr]
    have hput := h.pools.put fresh
    exact ⟨hput.shrink (fun _ ho => ho) hput.keyed (fun _ ho => ho) rfl
      (Table.erase_sublist _ _), h.made⟩

section Code

variable [Code κ]

/-- A run of a command of the catalogue is a run of a new runner for that very command. -/
theorem start_fresh (h : e.PoolsHold outs) (hc : e.commands.Registered command)
    (context : Context κ) (meanwhile : List (Catalogue.Change κ)) :
    ∃ commands runners,
      ({ e with commands, runners, lastRun := e.lastRun + 1 } : Engine κ).PoolsHold
        (command :: outs) ∧
      (e.start command context meanwhile).value =
        ({ e with commands, runners, lastRun := e.lastRun + 1 }).taken command
          ((e.fresh command).run e.help context ⟨e.lastRun + 1⟩).value := by
  obtain ⟨runners, hrent, hpools⟩ :=
    rentRunner_fresh (e := { e with lastRun := e.lastRun + 1 }) h hc
  refine ⟨_, runners, hpools.disturb meanwhile, ?_⟩
  simp only [start, Reported.value_bind, hrent, taken, disturb_frame]
  have hfresh : ({ e with lastRun := e.lastRun + 1 } : Engine κ).fresh command = e.fresh command :=
    rfl
  have hhelp : ({ e with runners, lastRun := e.lastRun + 1 } : Engine κ).help = e.help := rfl
  rw [hfresh, hhelp]
  cases ((e.fresh command).run e.help context ⟨e.lastRun + 1⟩).value.2 <;> rfl

theorem execute_sound (h : Sound e) (line : String) (invoker : Invoker)
    (meanwhile : List (Catalogue.Change κ)) :
    Sound (e.execute line invoker meanwhile).value.2 := by
  have hx := e.execute_entered line invoker meanwhile
  generalize (e.execute line invoker meanwhile).value = x at hx
  cases hx with
  | refused pool free failed returned => exact ⟨h.pools, h.made⟩
  | misread waiting malformed => exact ⟨h.pools, h.made⟩
  | replied waiting read =>
    obtain ⟨response, conversations, pool, hc⟩ := concluded_frame _ _
    rw [hc]
    exact ⟨h.pools, h.made⟩
  | @started command words bindings pool free addressed rented =>
    obtain ⟨commands, runners, hpools, hstart⟩ := start_fresh (e := { e with pool }) h.pools
      (registered_of_addressed h.pools addressed)
      (.ofInvocation (.start command.name line words bindings invoker)) meanwhile
    rw [hstart]
    exact taken_sound hpools h.made (by simp [fresh, Runner.create])

theorem tick_sound (h : Sound e) (meanwhile : RunId → List (Catalogue.Change κ)) :
    Sound (e.tick meanwhile).value.2 := by
  have hpolled : Sound e.polled := by
    apply h.reschedule
    intro q hq
    obtain ⟨p, hp, hs⟩ := List.mem_filterMap.mp hq
    rw [Schedule.stays?_eq_some hs]
    exact ⟨p, hp, rfl, p.runner.execution_poll e.help⟩
  have hended : ∀ f ∈ e.ended, ∀ c, f.context = some c →
      f.origin ∈ e.schedule.pending.map (·.origin) ∧ f.runner.execution = f.origin.execution := by
    intro f hf c _
    obtain ⟨p, hp, he⟩ := List.mem_filterMap.mp hf
    rw [Schedule.ends?_eq_some he]
    exact ⟨List.mem_map_of_mem hp, by simp [h.made p hp]⟩
  -- The runners that are settled are still out while the others are.
  obtain ⟨commands, runners, conversations, pool, hs, hpools⟩ :=
    settleAll_pools (e := e.polled) h.pools hended meanwhile
  rw [value_tick, hs]
  refine ⟨hpools.of_subset ?_, hpolled.made⟩
  intro o ho
  obtain ⟨q, hq, rfl⟩ := List.mem_map.mp ho
  obtain ⟨p, hp, hstays⟩ := List.mem_filterMap.mp hq
  rw [Schedule.stays?_eq_some hstays]
  exact List.mem_map.mpr ⟨p, hp, rfl⟩

theorem perform_sound (h : Sound e) (o : Operation κ) : Sound (e.perform o).value.2 := by
  cases o with
  | execute line invoker meanwhile => exact execute_sound h line invoker meanwhile
  | tick meanwhile => exact tick_sound h meanwhile
  | register d =>
    simp only [perform, Reported.value_bind, Reported.value_pure]
    exact register_sound h d
  | registerCommand d =>
    simp only [perform, Reported.value_bind, Reported.value_pure]
    exact registerCommand_sound h d
  | unregisterCommand name => exact unregisterCommand_sound h name
  | disturb changes => exact ⟨h.pools.disturb changes, h.made⟩
  | registerParser key p => exact ⟨h.pools, h.made⟩
  | endConversation key =>
    obtain ⟨pool, hr⟩ := e.endConversation_frame key
    simp only [perform, Reported.value_bind, Reported.value_pure, hr]
    exact ⟨h.pools, h.made⟩
  | elapse d => exact h.mapRunners (fun r => r.execution_elapse d)
  | work opened => exact h.mapRunners (fun r => r.execution_work e.help opened)
  | workerEnds id result => exact h.workerEnds id result

/-- No operation changes the settings. -/
theorem config_perform (h : Rested e.runners) (o : Operation κ) :
    (e.perform o).value.2.config = e.config := by
  cases o with
  | execute line invoker meanwhile =>
    obtain ⟨_, _, _, _, _, _, hr⟩ := execute_frame h line invoker meanwhile
    simp only [perform, Reported.value_bind, Reported.value_pure, hr]
  | tick meanwhile =>
    obtain ⟨commands, runners, conversations, pool, hr, -⟩ := tick_frame h meanwhile
    simp only [perform, Reported.value_bind, Reported.value_pure, hr, polled]
  | register d =>
    obtain ⟨commands, runners, hr, -⟩ := e.register_frame d
    simp only [perform, Reported.value_bind, Reported.value_pure, hr]
  | registerCommand d =>
    obtain ⟨commands, hr⟩ := e.registerCommand_frame d
    simp only [perform, Reported.value_bind, Reported.value_pure, hr]
  | endConversation key =>
    obtain ⟨pool, hr⟩ := e.endConversation_frame key
    simp only [perform, Reported.value_bind, Reported.value_pure, hr]
  | unregisterCommand name => rfl
  | disturb changes => rfl
  | registerParser key p => rfl
  | elapse d => rfl
  | work opened => rfl
  | workerEnds id result => rfl

end Code

theorem Sound.rested (h : Sound e) : Rested e.runners :=
  fun b hb => (h.pools.stocked b hb).rested

theorem sound_after (config : Config) (us : List (Use κ)) : Sound ((ofConfig config).after us) := by
  refine after_keeps (P := Sound) (fun _ _ o h => perform_sound h o) ?_ us
  exact ⟨.empty, fun s hs => nomatch hs⟩

theorem config_after (config : Config) (us : List (Use κ)) :
    ((ofConfig config).after us).config = config := by
  refine (after_keeps (P := fun e => Sound e ∧ e.config = config) ?_ ⟨sound_after config [], rfl⟩
    us).2
  rintro e _ o ⟨hsound, hconfig⟩
  exact ⟨perform_sound hsound o, (config_perform hsound.rested o).trans hconfig⟩

end Engine
end CommandConsole
