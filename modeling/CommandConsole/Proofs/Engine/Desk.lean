import CommandConsole.Engine.Desk
import CommandConsole.Proofs.Engine.Completion
import CommandConsole.Proofs.Engine.Flight
import CommandConsole.Proofs.Value.Maps
import Mathlib.Data.List.Basic

/-! Engines whose runs report by post do what engines do that are handed each context by its runner:
between two uses nothing is left in the outbox, and the command of each run in flight is known. -/
namespace CommandConsole

variable {κ : Type}

namespace Engine

variable {e : Engine κ}

/-- Every run in flight is in progress under its own number, which has been given out once. -/
structure Numbered (e : Engine κ) : Prop where
  own : ∀ p ∈ e.schedule.pending, ∃ q, p.runner.current? = some q ∧ q.id = p.id
  distinct : (e.schedule.pending.map (·.id)).Nodup
  given : ∀ p ∈ e.schedule.pending, p.id.number ≤ e.lastRun
  rested : Rested e.runners

theorem Numbered.holds (h : e.Numbered) :
    ∀ p ∈ e.schedule.pending, ∃ c, p.runner.context? = some c := by
  intro p hp
  obtain ⟨q, hq, -⟩ := h.own p hp
  exact ⟨q.context, Runner.context?_of_current? hq⟩

theorem own_perform [Code κ] (rested : Rested e.runners)
    (own : ∀ p ∈ e.schedule.pending, ∃ q, p.runner.current? = some q ∧ q.id = p.id)
    (o : Operation κ) :
    ∀ p ∈ (e.perform o).value.2.schedule.pending, ∃ q, p.runner.current? = some q ∧ q.id = p.id := by
  have aside (ho : o.isAside = true) :
      ∀ p ∈ (e.perform o).value.2.schedule.pending,
        ∃ q, p.runner.current? = some q ∧ q.id = p.id := by
    obtain ⟨f, hf, hpending⟩ := e.pending_aside ho
    rw [hpending, List.forall_mem_map]
    intro p hp
    obtain ⟨q, hq, hid⟩ := own p hp
    obtain ⟨hsame, -, haside⟩ := hf p
    exact ⟨q, haside.current?_eq.trans hq, hid.trans hsame.symm⟩
  cases o with
  | execute line invoker meanwhile =>
    have hx := execute_executed rested line invoker meanwhile
    simp only [perform, Reported.value_bind, Reported.value_pure]
    generalize (e.execute line invoker meanwhile).value = x at hx
    cases hx with
    | refused pool free failed returned => exact own
    | misread waiting malformed => exact own
    | replied waiting read handled responded =>
      obtain ⟨response, conversations, pool, hc⟩ := concluded_frame _ _
      rw [hc]
      exact own
    | answered free addressed handled responded rented rested =>
      obtain ⟨response, conversations, pool, hc⟩ := concluded_frame _ _
      rw [hc]
      exact own
    | suspended free addressed handled holds rented rested =>
      intro p hp
      rcases List.mem_append.mp hp with hp | hp
      · exact own p hp
      · obtain rfl := List.mem_singleton.mp hp
        exact ⟨_, holds, rfl⟩
  | tick meanwhile =>
    obtain ⟨commands, runners, conversations, pool, hr, -⟩ := tick_frame rested meanwhile
    simp only [perform, Reported.value_bind, Reported.value_pure, hr, polled]
    intro s hs
    obtain ⟨p, hp, hstays⟩ := List.mem_filterMap.mp hs
    obtain ⟨q, hq, hid⟩ := own p hp
    have hpolled := Runner.poll_outcome hq e.help
    simp only [Schedule.stays?] at hstays
    generalize (p.runner.poll e.help).value = polled at hpolled hstays
    cases hpolled with
    | held holds leads =>
      split at hstays
      · cases hstays
      · obtain rfl := Option.some.inj hstays
        exact ⟨_, holds, leads.same.trans hid⟩
    | ended finished bare leads responded => simp [finished] at hstays
  | _ => exact aside rfl

theorem numbered_after (config : Config) (us : List (Use κ)) :
    ((ofConfig config).after us).Numbered := by
  have accounted := accounted_moments config us
  refine ⟨?_, accounted.ids_nodup, ?_, accounted.rested⟩
  · clear accounted
    induction us using List.reverseRecOn with
    | nil =>
      intro p hp
      cases hp
    | append_singleton us u ih =>
      rw [after_append]
      let := u.code
      exact own_perform (accounted_moments config us).rested ih u.operation
  · intro p hp
    have hheld : p.id ∈ ((ofConfig config).after us).schedule.held.map (·.1) := by
      rw [Schedule.held_ids]
      exact List.mem_map_of_mem hp
    rw [accounted.unfinished] at hheld
    exact accounted.bounded _ (List.mem_filter.mp hheld).1

@[simp] theorem schedule_disturb (e : Engine κ) (changes : List (Catalogue.Change κ)) :
    (e.disturb changes).value.schedule = e.schedule := rfl

@[simp] theorem schedule_recycle (e : Engine κ) (origin : Command κ) (runner : Runner κ) :
    (e.recycle origin runner).value.schedule = e.schedule := by
  simp only [recycle]
  split
  · rfl
  · split
    · rfl
    · split <;> rfl

@[simp] theorem schedule_conclude (e : Engine κ) (c : Context κ) :
    (e.conclude c).value.2.schedule = e.schedule := by
  obtain ⟨conversations, pool, h⟩ := e.conclude_frame c
  rw [h]

@[simp] theorem schedule_continueConversation [Code κ] (e : Engine κ) (key : String)
    (c : Conversation κ) (line : String) :
    (e.continueConversation key c line).value.2.schedule = e.schedule := by
  cases hw : Line.words line with
  | error trouble => simp only [continueConversation, hw, Reported.value_pure]
  | ok words =>
    rw [value_continueConversation hw, concluded, schedule_conclude]

end Engine

namespace Desk

variable {e : Engine κ}

/-- What an engine that runs report to by post has beside it between two uses. -/
def beside (e : Engine κ) : Desk κ :=
  ⟨e, e.schedule.pending.map fun p => (p.id, p.origin), []⟩

theorem take_posted (p : Posted κ) : take [p] p.id = (some p.context, []) := by
  simp [take]

theorem foldl_erase_cons {ν : Type} {ids : List RunId} {id : RunId} (h : id ∉ ids) (v : ν)
    (t : Table RunId ν) :
    ids.foldl Table.erase ((id, v) :: t) = (id, v) :: ids.foldl Table.erase t := by
  induction ids generalizing t with
  | nil => rfl
  | cons i rest ih =>
    obtain ⟨hne, hrest⟩ := List.ne_and_not_mem_of_not_mem_cons h
    have hother : (i == id) = false := beq_eq_false_iff_ne.mpr fun he => hne he.symm
    rw [List.foldl_cons, List.foldl_cons, Table.erase, hother]
    exact ih hrest (t.erase i)

section Settle

variable {fs : List (Finished κ (Command κ))}

/-- What finished runs have posted. -/
def postedBy (fs : List (Finished κ (Command κ))) : List (Posted κ) :=
  fs.filterMap fun f => f.context.map (⟨f.id, ·⟩)

/-- Runs that are known by their numbers, and whose contexts are posted, are settled as an engine
does it that has them at hand. -/
theorem settleAll_eq (meanwhile : RunId → List (Catalogue.Change κ))
    (handed : ∀ f ∈ fs, f.context.isSome = true) (e : Engine κ)
    {origins : Table RunId (Command κ)} (keys : (origins.map Prod.fst).Nodup)
    (distinct : (fs.map (·.id)).Nodup)
    (known : ∀ f ∈ fs, origins.find? f.id = some f.origin) :
    settleAll ⟨e, origins, []⟩ meanwhile (fs.map fun f => (f.id, f.runner)) (postedBy fs) =
      ⟨((e.settleAll meanwhile fs).value.1, [],
          ⟨(e.settleAll meanwhile fs).value.2, (fs.map (·.id)).foldl Table.erase origins, []⟩),
        (e.settleAll meanwhile fs).notes⟩ := by
  induction fs generalizing e origins with
  | nil => rfl
  | cons f rest ih =>
    obtain ⟨c, hc⟩ := Option.isSome_iff_exists.mp (handed f List.mem_cons_self)
    obtain ⟨hfresh, hdistinct⟩ := List.nodup_cons.mp distinct
    have hposted : postedBy (f :: rest) = ⟨f.id, c⟩ :: postedBy rest := by
      simp [postedBy, hc]
    have hkeys : ((origins.erase f.id).map Prod.fst).Nodup :=
      keys.sublist ((Table.erase_sublist _ _).map _)
    have hknown : ∀ g ∈ rest, (origins.erase f.id).find? g.id = some g.origin := by
      intro g hg
      have hne : (g.id == f.id) = false := by
        rw [beq_eq_false_iff_ne]
        intro h
        exact hfresh (List.mem_map.mpr ⟨g, hg, h⟩)
      rw [Table.find?_erase keys, hne]
      exact known g (List.mem_cons_of_mem _ hg)
    have hfirst : Table.find? ((f :: rest).map fun f => (f.id, f.runner)) f.id = some f.runner := by
      simp [Table.find?]
    have hothers : Table.erase ((f :: rest).map fun f => (f.id, f.runner)) f.id =
        rest.map fun f => (f.id, f.runner) := by
      simp [Table.erase]
    have hrest := fun e =>
      ih (fun g hg => handed g (List.mem_cons_of_mem _ hg)) e hkeys hdistinct hknown
    rw [hposted]
    simp only [settleAll, Engine.settleAll, hc, hfirst, hothers, known f List.mem_cons_self, hrest]
    rfl

end Settle

variable [Code κ]

theorem value_pollAll {τ : Type} (help : String) (ps : List (Suspended κ τ)) :
    (pollAll help ps).value =
      (ps.map fun p => { p with runner := (p.runner.poll help).value.1 },
        ps.filterMap fun p => (p.runner.poll help).value.2) := by
  induction ps with
  | nil => rfl
  | cons p rest ih =>
    simp only [pollAll, Reported.value_bind, Reported.value_pure, ih, List.map_cons]
    cases hp : (p.runner.poll help).value.2 with
    | none => simp [hp]
    | some q => simp [hp]

theorem notes_pollAll {τ : Type} (help : String) (ps : List (Suspended κ τ)) :
    (pollAll help ps).notes = (Schedule.pollAll help ps).notes := by
  induction ps with
  | nil => rfl
  | cons p rest ih =>
    simp only [pollAll, Schedule.pollAll, Reported.notes_bind, Reported.notes_pure, ih]
    split <;> rfl

/-- The runs that are finished, with their runners, and those that go on. -/
theorem partition_polled (e : Engine κ) :
    let polled := (pollAll e.help e.schedule.pending).value.1.partition (·.runner.isFinished)
    polled.1.map (fun p => (p.id, p.runner)) = e.ended.map (fun f => (f.id, f.runner)) ∧
      polled.2 = e.polled.schedule.pending := by
  simp only [value_pollAll, List.partition_eq_filter_filter, Engine.ended, Engine.polled]
  induction e.schedule.pending with
  | nil => exact ⟨rfl, rfl⟩
  | cons p rest ih =>
    cases hfinished : (p.runner.poll e.help).value.1.isFinished <;>
      simpa [Schedule.ends?, Schedule.stays?, hfinished] using ih

/-- What a poll finds finished has posted its context under its own number. -/
theorem postedBy_ends? {help : String} {ps : List (Suspended κ (Command κ))}
    (own : ∀ p ∈ ps, ∃ q, p.runner.current? = some q ∧ q.id = p.id) :
    ps.filterMap (fun p => (p.runner.poll help).value.2) =
      postedBy (ps.filterMap (Schedule.ends? help)) := by
  rw [postedBy, List.filterMap_filterMap]
  apply List.filterMap_congr
  intro p hp
  obtain ⟨q, hq, hid⟩ := own p hp
  have hpolled := Runner.poll_outcome hq help
  simp only [Schedule.ends?]
  generalize (p.runner.poll help).value = polled at hpolled ⊢
  cases hpolled with
  | held holds leads =>
    have hgoing :=
      Runner.not_isFinished_of_isInProgress (Runner.isInProgress_of_current? holds)
    simp [hgoing]
  | @ended r posted finished bare leads responded =>
    obtain ⟨id, c⟩ := posted
    obtain rfl : id = p.id := leads.same.trans hid
    simp [finished]

/-- The commands that are left once those of the finished runs are taken out. -/
theorem origins_of_tick {help : String} {ps : List (Suspended κ (Command κ))}
    (distinct : (ps.map (·.id)).Nodup) :
    ((ps.filterMap (Schedule.ends? help)).map (·.id)).foldl Table.erase
        (ps.map fun p => (p.id, p.origin)) =
      (ps.filterMap (Schedule.stays? help)).map fun p => (p.id, p.origin) := by
  induction ps with
  | nil => rfl
  | cons p rest ih =>
    obtain ⟨hfresh, hdistinct⟩ := List.nodup_cons.mp distinct
    have hothers : p.id ∉ (rest.filterMap (Schedule.ends? help)).map (·.id) :=
      fun h => hfresh ((Schedule.ends?_ids_sublist help rest).subset h)
    cases hfinished : (p.runner.poll help).value.1.isFinished with
    | true =>
      simpa [Schedule.ends?, Schedule.stays?, hfinished, Table.erase] using ih hdistinct
    | false =>
      have hends : Schedule.ends? help p = none := by simp [Schedule.ends?, hfinished]
      have hstays : Schedule.stays? help p =
          some { p with runner := (p.runner.poll help).value.1 } := by
        simp [Schedule.stays?, hfinished]
      rw [List.filterMap_cons_none hends, List.filterMap_cons_some hstays, List.map_cons,
        List.map_cons, foldl_erase_cons hothers, ih hdistinct]

/-- A desk does what an engine does: the answer and all that is reported are the same, and so is the
engine, with nothing beside it but what it can tell. -/
structure Follows {α : Type} (x : Reported (α × Desk κ)) (y : Reported (α × Engine κ)) : Prop where
  value : x.value = (y.value.1, beside y.value.2)
  notes : x.notes = y.notes

theorem start_follows (h : e.Numbered) (command : Command κ) (c : Context κ)
    (meanwhile : List (Catalogue.Change κ)) :
    Follows ((beside e).start command c meanwhile) (e.start command c meanwhile) := by
  have hr := Engine.rentRunner_spec (e := { e with lastRun := e.lastRun + 1 }) h.rested command
  simp only [start, Engine.start, beside]
  generalize Engine.rentRunner { e with lastRun := e.lastRun + 1 } command = rent at hr ⊢
  obtain ⟨runner, e'⟩ := rent
  obtain ⟨hresting, runners, rfl, hrested⟩ := hr
  have hout := Runner.run_outcome hresting.not_isInProgress
    (Engine.help { e with runners, lastRun := e.lastRun + 1 }) c ⟨e.lastRun + 1⟩
  simp only
  generalize runner.run _ _ _ = run at hout ⊢
  obtain ⟨⟨runner, posted⟩, notes⟩ := run
  simp only at hout
  cases hout with
  | held holds leads =>
    have hgoing := Runner.not_isFinished_of_isInProgress (Runner.isInProgress_of_current? holds)
    have hfresh : (⟨e.lastRun + 1⟩ : RunId) ∉
        (e.schedule.pending.map fun p => (p.id, p.origin)).map Prod.fst := by
      intro hin
      obtain ⟨b, hb, hid⟩ := List.mem_map.mp hin
      obtain ⟨p, hp, rfl⟩ := List.mem_map.mp hb
      have hle := h.given p hp
      rw [show p.id = ⟨e.lastRun + 1⟩ from hid] at hle
      exact Nat.not_succ_le_self _ hle
    constructor
    · simp [hgoing, beside, Schedule.submit, Table.insert_of_notMem hfresh]
    · simp [hgoing]
  | @ended _ q finished bare leads responded =>
    have htake : take [q] ⟨e.lastRun + 1⟩ = (some q.context, []) := by
      rw [← take_posted q, leads.same]
    constructor
    · simp [finished, htake, beside]
    · simp [finished, htake]

theorem execute_follows (h : e.Numbered) (line : String) (invoker : Invoker)
    (meanwhile : List (Catalogue.Change κ)) :
    Follows ((beside e).execute line invoker meanwhile) (e.execute line invoker meanwhile) := by
  cases hc : e.conversations.find? invoker.conversationKey with
  | some c =>
    simp only [execute, Engine.execute, beside, hc]
    constructor
    · simp [beside]
    · simp
  | none =>
    have hadmitted := e.admission_admitted line invoker
    simp only [execute, Engine.execute, Engine.dispatch, beside, hc]
    generalize e.admission line invoker = x at hadmitted
    obtain ⟨value, notes⟩ := x
    simp only at hadmitted
    cases hadmitted with
    | refused pool failed returned => exact ⟨rfl, rfl⟩
    | @taken command words bindings pool addressed rented =>
      have hstart := start_follows (e := { e with pool }) ⟨h.own, h.distinct, h.given, h.rested⟩
        command (.ofInvocation (.start command.name line words bindings invoker)) meanwhile
      exact ⟨hstart.value, congrArg (notes ++ ·) hstart.notes⟩

theorem takeAll_follows (h : e.Numbered) (meanwhile : RunId → List (Catalogue.Change κ)) :
    let polled := (pollAll e.help e.schedule.pending).value
    Follows ((beside e).takeAll meanwhile polled.1 polled.2)
      (e.polled.settleAll meanwhile e.ended) := by
  intro polled
  have handed : ∀ f ∈ e.ended, f.context.isSome = true := by
    intro f hf
    obtain ⟨p, -, -, c, -, -, -, hc, -⟩ := Schedule.handed_of_ends? h.holds hf
    rw [hc]
    rfl
  have keys : ((e.schedule.pending.map fun p => (p.id, p.origin)).map Prod.fst).Nodup := by
    rw [List.map_map]
    exact h.distinct
  have distinct : (e.ended.map (·.id)).Nodup :=
    h.distinct.sublist (Schedule.ends?_ids_sublist e.help e.schedule.pending)
  have known : ∀ f ∈ e.ended,
      Table.find? (e.schedule.pending.map fun p => (p.id, p.origin)) f.id = some f.origin := by
    intro f hf
    obtain ⟨p, hp, hends⟩ := List.mem_filterMap.mp hf
    obtain rfl := Schedule.ends?_eq_some hends
    exact Table.find?_of_mem keys (List.mem_map.mpr ⟨p, hp, rfl⟩)
  have apart : Table.Distinct (e.ended.map fun f => (f.id, f.runner)) := by
    rw [Table.Distinct, List.pairwise_map]
    refine (List.pairwise_map.mp distinct).imp fun hne => ?_
    exact beq_eq_false_iff_ne.mpr hne.symm
  have hposted : polled.2 = postedBy e.ended :=
    (congrArg Prod.snd (value_pollAll e.help e.schedule.pending)).trans (postedBy_ends? h.own)
  obtain ⟨hrunners, hpending⟩ := partition_polled e
  have hall : (beside e).takeAll meanwhile polled.1 polled.2 = (do
      let x ← settleAll ⟨e.polled, e.schedule.pending.map fun p => (p.id, p.origin), []⟩ meanwhile
        (e.ended.map fun f => (f.id, f.runner)) (postedBy e.ended)
      pure (x.1, { x.2.2 with origins := x.2.1.keys.foldl Table.erase x.2.2.origins })) := by
    simp only [takeAll, beside, polled, hrunners, hpending, hposted,
      Table.ofPairs_of_distinct apart]
    rfl
  obtain ⟨commands, runners, conversations, pool, hframe, -⟩ :=
    Engine.settleAll_frame (e := e.polled) h.rested meanwhile e.ended
  have hleft : (e.polled.settleAll meanwhile e.ended).value.2.schedule = e.polled.schedule := by
    rw [hframe]
  have horigins : (e.ended.map (·.id)).foldl Table.erase
        (e.schedule.pending.map fun p => (p.id, p.origin)) =
      e.polled.schedule.pending.map fun p => (p.id, p.origin) :=
    origins_of_tick h.distinct
  rw [hall, settleAll_eq meanwhile handed e.polled keys distinct known]
  constructor
  · simp [beside, hleft, horigins, Table.keys]
  · simp

theorem tick_follows (h : e.Numbered) (meanwhile : RunId → List (Catalogue.Change κ)) :
    Follows ((beside e).tick meanwhile) (e.tick meanwhile) := by
  obtain ⟨hvalue, hnotes⟩ := takeAll_follows h meanwhile
  constructor
  · rw [Engine.value_tick]
    exact hvalue
  · simp only [tick, Engine.tick, Schedule.tick, Reported.notes_bind, Reported.value_bind,
      Reported.notes_pure, Reported.value_pure, notes_pollAll, Schedule.value_pollAll,
      List.append_nil]
    exact congrArg (_ ++ ·) hnotes

/-- What a host asks of a desk. Whatever is neither a line nor a tick is for the engine alone. -/
def perform (d : Desk κ) : Operation κ → Reported (Answer × Desk κ)
  | .execute line invoker meanwhile => do
    let x ← d.execute line invoker meanwhile
    pure (.dispatch x.1, x.2)
  | .tick meanwhile => do
    let x ← d.tick meanwhile
    pure (.completions x.1, x.2)
  | o => do
    let x ← d.engine.perform o
    pure (x.1, { d with engine := x.2 })

theorem perform_follows (h : e.Numbered) (o : Operation κ) :
    Follows ((beside e).perform o) (e.perform o) := by
  -- Other operations change neither which runs are in flight nor which commands they are for.
  have aside (ho : o.isAside = true) :
      Follows (do let x ← e.perform o; pure (x.1, { beside e with engine := x.2 }))
        (e.perform o) := by
    obtain ⟨f, hf, hpending⟩ := e.pending_aside ho
    have hknown : (fun p => (p.id, p.origin)) ∘ f = fun p => (p.id, p.origin) :=
      funext fun p => Prod.ext (hf p).1 (hf p).2.1
    constructor
    · simp [beside, hpending, hknown]
    · simp
  cases o with
  | execute line invoker meanwhile =>
    obtain ⟨hvalue, hnotes⟩ := execute_follows h line invoker meanwhile
    constructor
    · simp [perform, Engine.perform, hvalue]
    · simp [perform, Engine.perform, hnotes]
  | tick meanwhile =>
    obtain ⟨hvalue, hnotes⟩ := tick_follows h meanwhile
    constructor
    · simp [perform, Engine.perform, hvalue]
    · simp [perform, Engine.perform, hnotes]
  | _ => exact aside rfl

omit [Code κ] in
/-- The desk after one use. -/
def use (d : Desk κ) (u : Use κ) : Desk κ :=
  letI := u.code
  (d.perform u.operation).value.2

omit [Code κ] in
/-- The desk after some uses. -/
def after (d : Desk κ) : List (Use κ) → Desk κ
  | [] => d
  | u :: us => (d.use u).after us

omit [Code κ] in
theorem after_append (d : Desk κ) (us vs : List (Use κ)) :
    d.after (us ++ vs) = (d.after us).after vs := by
  induction us generalizing d with
  | nil => rfl
  | cons u us ih => exact ih (d.use u)

omit [Code κ] in
theorem after_eq_beside (config : Config) (us : List (Use κ)) :
    (ofConfig config).after us = beside ((Engine.ofConfig config).after us) := by
  induction us using List.reverseRecOn with
  | nil => rfl
  | append_singleton us u ih =>
    rw [after_append, Engine.after_append, ih]
    let := u.code
    have hnumbered := Engine.numbered_after config us
    exact congrArg Prod.snd (perform_follows hnumbered u.operation).value

/-- Posting is not seen from outside. Whatever is done with an engine whose runs report by post, the
answers and all that is reported are those of an engine that has every finished context handed over;
between two uses the outbox is empty, and the commands kept by number are those of the runs in
flight. -/
theorem desk_agrees_with_engine (config : Config) (us : List (Use κ)) (o : Operation κ) :
    let d := (ofConfig config).after us
    let e := (Engine.ofConfig config).after us
    d.engine = e ∧ d.outbox = [] ∧
      d.origins = e.schedule.pending.map (fun p => (p.id, p.origin)) ∧
      (d.perform o).value.1 = (e.perform o).value.1 ∧ (d.perform o).notes = (e.perform o).notes ∧
      (d.perform o).value.2.engine = (e.perform o).value.2 := by
  intro d e
  have hd : d = beside e := after_eq_beside config us
  obtain ⟨hvalue, hnotes⟩ := perform_follows (Engine.numbered_after config us) o
  rw [hd]
  exact ⟨rfl, rfl, rfl, congrArg Prod.fst hvalue, hnotes, congrArg (·.2.engine) hvalue⟩

end Desk
end CommandConsole
