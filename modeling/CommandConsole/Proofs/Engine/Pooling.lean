import CommandConsole.Proofs.Engine.Delay
import CommandConsole.Proofs.Engine.Pools
import CommandConsole.Proofs.Engine.Sights

/-! Pools are transparent. Two engines that differ in the sizes of their pools, and in what is kept
in them, answer alike, report alike and show handlers alike. -/
namespace CommandConsole

variable {κ α β γ δ : Type}

namespace Engine

variable {a r : Nat} {e : Engine κ} {pool : Pool}
  {runners : Table String (List (PooledRunner κ))} {command : Command κ}

/-- The engine with pools of other sizes, in which other things are kept. -/
def repooled (e : Engine κ) (a r : Nat) (pool : Pool)
    (runners : Table String (List (PooledRunner κ))) : Engine κ :=
  { e with
    config := { e.config with argumentPoolCapacity := a, runnerPoolCapacity := r }
    pool, runners }

/-- The second result is the first one, notes included, except for the pools. Idle storage holds
nothing in either. -/
def Twin (a r : Nat) (x y : Reported (α × Engine κ)) : Prop :=
  x.value.2.pool.Used ∧ ∃ pool runners, pool.Used ∧
    y = ⟨(x.value.1, x.value.2.repooled a r pool runners), x.notes⟩

theorem twin_pure (h : e.pool.Used) (h' : pool.Used) (x : α) :
    Twin a r (pure (x, e) : Reported (α × Engine κ)) (pure (x, e.repooled a r pool runners)) :=
  ⟨h, pool, runners, h', rfl⟩

/-- What is done to both alike, reporting the same, does not tell them apart. -/
theorem Twin.seq {x : Reported γ} {y : Reported δ} {f : γ → Reported (α × Engine κ)}
    {g : δ → Reported (α × Engine κ)} (hn : y.notes = x.notes)
    (h : Twin a r (f x.value) (g y.value)) : Twin a r (x >>= f) (y >>= g) := by
  obtain ⟨hu, p, rs, hp, hv⟩ := h
  refine ⟨hu, p, rs, hp, ?_⟩
  change (⟨(g y.value).value, y.notes ++ (g y.value).notes⟩ : Reported (α × Engine κ)) = _
  rw [hv, hn]
  rfl

theorem Twin.bind {x y : Reported (α × Engine κ)} {f g : α × Engine κ → Reported (β × Engine κ)}
    (h : Twin a r x y)
    (hfg : ∀ (v : α) {e : Engine κ} {pool : Pool} (runners), e.pool.Used → pool.Used →
      Twin a r (f (v, e)) (g (v, e.repooled a r pool runners))) :
    Twin a r (x >>= f) (y >>= g) := by
  obtain ⟨hu, p, rs, hp, rfl⟩ := h
  exact Twin.seq rfl (hfg _ rs hu hp)

theorem Twin.map {x y : Reported (α × Engine κ)} (h : Twin a r x y) (f : α → β) :
    Twin a r (do let v ← x; pure (f v.1, v.2)) (do let v ← y; pure (f v.1, v.2)) :=
  h.bind fun v _ _ _ hu hp => twin_pure hu hp (f v)

/-- Whether a runner is kept shows nowhere but in the pools. -/
theorem recycle_twin {f g : Engine κ → Reported (α × Engine κ)} (origin : Command κ)
    (runner : Runner κ)
    (hfg : ∀ kept kept',
      Twin a r (f { e with runners := kept }) (g (e.repooled a r pool kept'))) :
    Twin a r (e.recycle origin runner >>= f)
      ((e.repooled a r pool runners).recycle origin runner >>= g) := by
  have hcurrent : (e.repooled a r pool runners).isCurrent origin = e.isCurrent origin := rfl
  simp only [recycle, hcurrent]
  split
  · exact Twin.seq rfl (hfg e.runners runners)
  · split
    · exact Twin.seq rfl (hfg e.runners runners)
    · split
      · exact Twin.seq rfl (hfg e.runners runners)
      · exact Twin.seq rfl (hfg _ _)

/-- The catalogue changes alike in both. -/
theorem disturb_twin (runners : Table String (List (PooledRunner κ)))
    {f g : Engine κ → Reported (α × Engine κ)}
    (changes : List (Catalogue.Change κ))
    (hfg : ∀ commands,
      Twin a r (f { e with commands })
        (g (({ e with commands } : Engine κ).repooled a r pool runners))) :
    Twin a r (e.disturb changes >>= f) ((e.repooled a r pool runners).disturb changes >>= g) :=
  Twin.seq rfl (hfg _)

theorem openConversation_twin {f g : Engine κ → Reported (α × Engine κ)} (h : e.pool.Used)
    (h' : pool.Used) (key : String) (c : Conversation κ)
    (hfg : ∀ {x : Engine κ} {p : Pool}, x.pool.Used → p.Used →
      Twin a r (f x) (g (x.repooled a r p runners))) :
    Twin a r (e.openConversation key c >>= f)
      ((e.repooled a r pool runners).openConversation key c >>= g) := by
  have hsame : (e.repooled a r pool runners).conversations = e.conversations := rfl
  simp only [openConversation, hsame]
  cases e.conversations.find? key with
  | some old =>
    exact Twin.seq rfl
      (hfg (h.giveBack old.invocation.arguments) (h'.giveBack old.invocation.arguments))
  | none =>
    simp only [makeRoom, hsame, abandonOldest_eq]
    exact Twin.seq rfl (hfg h.foldl_giveBack h'.foldl_giveBack)

theorem conclude_twin (h : e.pool.Used) (h' : pool.Used) (c : Context κ) :
    Twin a r (e.conclude c) ((e.repooled a r pool runners).conclude c) := by
  simp only [conclude]
  split
  · exact openConversation_twin h h' _ _ fun hx hp => twin_pure hx hp _
  · exact twin_pure (h.giveBack c.invocation.arguments) (h'.giveBack c.invocation.arguments) _

theorem conclude_dispatch_twin (h : e.pool.Used) (h' : pool.Used) (c : Context κ) :
    Twin a r (do let (v, e) ← e.conclude c; pure (dispatchOf v, e))
      (do let (v, e) ← (e.repooled a r pool runners).conclude c; pure (dispatchOf v, e)) :=
  (conclude_twin h h' c).bind fun v _ _ _ hu hp => twin_pure hu hp (dispatchOf v)

theorem settleAll_twin {meanwhile : RunId → List (Catalogue.Change κ)}
    {fs : List (Finished κ (Command κ))} (h : e.pool.Used) (h' : pool.Used) :
    Twin a r (e.settleAll meanwhile fs) ((e.repooled a r pool runners).settleAll meanwhile fs) := by
  induction fs generalizing e pool runners with
  | nil => exact twin_pure h h' []
  | cons f rest ih =>
    cases hcontext : f.context with
    | none =>
      rw [settleAll_cons_of_none hcontext, settleAll_cons_of_none hcontext]
      exact ih h h'
    | some c =>
      simp only [settleAll, hcontext]
      refine disturb_twin _ (meanwhile f.id) fun commands => ?_
      refine recycle_twin (e := { e with commands }) f.origin f.runner fun kept kept' => ?_
      refine (conclude_twin (e := { e with commands, runners := kept }) h h' c).bind
        fun v _ _ rs hu hp => ?_
      refine Twin.seq rfl ((ih hu hp).bind fun vs _ _ rs' hu' hp' => ?_)
      exact twin_pure hu' hp' _

theorem registerCommand_twin (h : e.pool.Used) (h' : pool.Used) (d : CommandDeclaration κ) :
    Twin a r (e.registerCommand d) ((e.repooled a r pool runners).registerCommand d) := by
  have hsame : (e.repooled a r pool runners).commands.register d
      (e.repooled a r pool runners).parsers = e.commands.register d e.parsers := rfl
  simp only [registerCommand, hsame]
  refine Twin.seq rfl ?_
  split <;> exact ⟨h, pool, runners, h', rfl⟩

theorem register_twin (h : e.pool.Used) (h' : pool.Used) (d : CommandDeclaration κ) :
    Twin a r (e.register d) ((e.repooled a r pool runners).register d) := by
  simp only [register]
  refine (registerCommand_twin h h' d).bind fun result e' p rs hu hp => ?_
  cases result with
  | error err => exact twin_pure hu hp _
  | ok command => exact ⟨hu, p, rs.erase command.name, hp, rfl⟩

theorem endConversation_twin (h : e.pool.Used) (h' : pool.Used) (key : String) :
    Twin a r (e.endConversation key) ((e.repooled a r pool runners).endConversation key) := by
  have hsame : (e.repooled a r pool runners).conversations = e.conversations := rfl
  simp only [endConversation, hsame]
  cases e.conversations.find? key with
  | none => exact twin_pure h h' _
  | some old =>
    exact ⟨h.giveBack old.invocation.arguments, _, runners,
      h'.giveBack old.invocation.arguments, rfl⟩

variable {invoker : Invoker} {line : String}

/-- Binding does not depend on what is kept in the pools, nor on their sizes. -/
theorem prepare_repooled (h : e.pool.Used) (h' : pool.Used) (command : Command κ)
    (words : List Word) (trouble : Option ScanError) :
    let x := e.prepare command line words invoker trouble
    x.value.2.pool.Used ∧ ∃ left, left.Used ∧
      (e.repooled a r pool runners).prepare command line words invoker trouble =
        ⟨(x.value.1, x.value.2.repooled a r left runners), x.notes⟩ := by
  have hsame : (e.repooled a r pool runners).pool = pool := rfl
  simp only [prepare, hsame]
  generalize BindRequest.mk command.name line words invoker trouble = q
  have hbound := q.bind_fst_eq command.overloads h h'
  have hu := q.bind_used command.overloads h
  have hp := q.bind_used command.overloads h'
  generalize q.bind command.overloads e.pool = bound at hbound hu ⊢
  generalize q.bind command.overloads pool = bound' at hbound hp ⊢
  obtain ⟨result, left⟩ := bound
  obtain ⟨result', left'⟩ := bound'
  simp only at hbound
  subst hbound
  cases result' <;> exact ⟨hu, left', hp, rfl⟩

theorem admission_repooled (h : e.pool.Used) (h' : pool.Used)
    (runners : Table String (List (PooledRunner κ))) (line : String) (invoker : Invoker) :
    let x := e.admission line invoker
    x.value.2.pool.Used ∧ ∃ left, left.Used ∧
      (e.repooled a r pool runners).admission line invoker =
        ⟨(x.value.1, x.value.2.repooled a r left runners), x.notes⟩ := by
  have hcommands : (e.repooled a r pool runners).commands = e.commands := rfl
  have hlog : (e.repooled a r pool runners).config.logUnknownCommands =
      e.config.logUnknownCommands := rfl
  simp only [admission, hcommands, hlog]
  split
  · exact ⟨h, pool, h', rfl⟩
  · split
    · exact ⟨h, pool, h', rfl⟩
    · split
      · split <;> exact ⟨h, pool, h', rfl⟩
      · split
        · exact ⟨h, pool, h', rfl⟩
        · exact prepare_repooled h h' _ _ _

section Code

variable [Code κ]

/-- A run does not depend on which runner is rented for it, since it is as good as new. -/
theorem start_twin (hs : Sound e) (hs' : Sound (e.repooled a r pool runners)) (h : e.pool.Used)
    (h' : pool.Used) (hc : e.commands.Registered command) (c : Context κ)
    (meanwhile : List (Catalogue.Change κ)) :
    Twin a r (e.start command c meanwhile)
      ((e.repooled a r pool runners).start command c meanwhile) := by
  obtain ⟨rs, hrent, -⟩ := rentRunner_fresh (e := { e with lastRun := e.lastRun + 1 }) hs.pools hc
  obtain ⟨rs', hrent', -⟩ := rentRunner_fresh
    (e := { e.repooled a r pool runners with lastRun := e.lastRun + 1 }) hs'.pools hc
  have hlast : (e.repooled a r pool runners).lastRun = e.lastRun := rfl
  have hfresh : fresh { e.repooled a r pool runners with lastRun := e.lastRun + 1 } command =
      fresh { e with lastRun := e.lastRun + 1 } command := rfl
  have hhelp : help { e.repooled a r pool runners with lastRun := e.lastRun + 1, runners := rs' } =
      help { e with lastRun := e.lastRun + 1, runners := rs } := rfl
  simp only [start, hlast, hrent, hrent', hfresh, hhelp]
  generalize Runner.run (_ : Runner κ) _ _ _ = ran
  obtain ⟨⟨runner, posted⟩, notes⟩ := ran
  refine Twin.seq rfl ?_
  refine disturb_twin (e := { e with lastRun := e.lastRun + 1, runners := rs }) rs'
    meanwhile fun commands => ?_
  cases posted with
  | none => exact Twin.seq rfl ⟨h, pool, rs', h', rfl⟩
  | some posted =>
    refine recycle_twin (e := { e with lastRun := e.lastRun + 1, runners := rs, commands }) command
      runner fun kept kept' => ?_
    exact conclude_dispatch_twin
      (e := { e with lastRun := e.lastRun + 1, runners := kept, commands }) h h' posted.context

theorem dispatch_twin (hs : Sound e) (hs' : Sound (e.repooled a r pool runners))
    (h : e.pool.Used) (h' : pool.Used) (meanwhile : List (Catalogue.Change κ)) :
    Twin a r (e.dispatch line invoker meanwhile)
      ((e.repooled a r pool runners).dispatch line invoker meanwhile) := by
  obtain ⟨hu, left, hp, hadmission⟩ :=
    admission_repooled (a := a) (r := r) h h' runners line invoker
  have hadmitted := e.admission_admitted line invoker
  simp only [dispatch]
  rw [hadmission]
  refine Twin.seq rfl ?_
  generalize (e.admission line invoker).value = x at hadmitted hu ⊢
  cases hadmitted with
  | refused pool failed returned => exact twin_pure (e := { e with pool }) hu hp _
  | @taken command words bindings pool addressed rented =>
    have hsound : Sound { e with pool } := ⟨hs.pools, hs.made⟩
    have hsound' : Sound (({ e with pool } : Engine κ).repooled a r left runners) :=
      ⟨hs'.pools, hs'.made⟩
    exact start_twin hsound hsound' hu hp (registered_of_addressed hs.pools addressed) _ meanwhile

theorem execute_twin (hs : Sound e) (hs' : Sound (e.repooled a r pool runners)) (h : e.pool.Used)
    (h' : pool.Used) (meanwhile : List (Catalogue.Change κ)) :
    Twin a r (e.execute line invoker meanwhile)
      ((e.repooled a r pool runners).execute line invoker meanwhile) := by
  have hsame : (e.repooled a r pool runners).conversations = e.conversations := rfl
  simp only [execute, hsame]
  cases e.conversations.find? invoker.conversationKey with
  | none => exact dispatch_twin hs hs' h h' meanwhile
  | some c =>
    simp only [continueConversation]
    cases Line.words line with
    | error trouble => exact ⟨h, pool, runners, h', rfl⟩
    | ok words =>
      exact Twin.seq rfl (Twin.seq rfl (conclude_dispatch_twin
        (e := { e with conversations := e.conversations.erase invoker.conversationKey }) h h' _))

theorem tick_twin (h : e.pool.Used) (h' : pool.Used)
    (meanwhile : RunId → List (Catalogue.Change κ)) :
    Twin a r (e.tick meanwhile) ((e.repooled a r pool runners).tick meanwhile) :=
  Twin.seq rfl (settleAll_twin h h')

/-- One operation. -/
theorem perform_twin (hs : Sound e) (hs' : Sound (e.repooled a r pool runners)) (h : e.pool.Used)
    (h' : pool.Used) (o : Operation κ) :
    Twin a r (e.perform o) ((e.repooled a r pool runners).perform o) := by
  cases o with
  | execute line invoker meanwhile => exact (execute_twin hs hs' h h' meanwhile).map Answer.dispatch
  | tick meanwhile => exact (tick_twin h h' meanwhile).map Answer.completions
  | register d => exact (register_twin h h' d).map fun x => Answer.registered (problemOf x)
  | registerCommand d =>
    exact (registerCommand_twin h h' d).map fun x => Answer.registered (problemOf x)
  | endConversation key => exact (endConversation_twin h h' key).map Answer.found
  | unregisterCommand name => exact ⟨h, pool, runners, h', rfl⟩
  | disturb changes => exact ⟨h, pool, runners, h', rfl⟩
  | registerParser key p => exact ⟨h, pool, runners, h', rfl⟩
  | elapse d => exact ⟨h, pool, runners, h', rfl⟩
  | work opened => exact ⟨h, pool, runners, h', rfl⟩
  | workerEnds id result => exact ⟨h, pool, runners, h', rfl⟩

end Code

/-- What a first line shows does not depend on the pools, and neither does anything else that is
shown. -/
theorem shown_repooled (hs : Sound e) (hs' : Sound (e.repooled a r pool runners))
    (h : e.pool.Used) (h' : pool.Used) (o : Operation κ) :
    (e.repooled a r pool runners).shown o = e.shown o := by
  cases o with
  | execute line invoker meanwhile =>
    have hsame : (e.repooled a r pool runners).conversations = e.conversations := rfl
    have hrequest : (e.repooled a r pool runners).request? line invoker =
        e.request? line invoker := rfl
    have hhelp : (e.repooled a r pool runners).help = e.help := rfl
    simp only [shown, hsame, hrequest, hhelp]
    cases hq : e.request? line invoker with
    | none => rfl
    | some x =>
      obtain ⟨command, q⟩ := x
      have hc := registered_of_addressed hs.pools (addressed_of_request? hq)
      obtain ⟨rs, hrent, -⟩ := rentRunner_fresh hs.pools hc
      obtain ⟨rs', hrent', -⟩ := rentRunner_fresh hs'.pools hc
      have hbound := q.bind_fst_eq command.overloads h h'
      have hpool : (e.repooled a r pool runners).pool = pool := rfl
      have hfresh : (e.repooled a r pool runners).fresh command = e.fresh command := rfl
      simp only [shownByInvoke, hpool, hbound, hrent, hrent', hfresh, hhelp]
  | tick meanwhile => rfl
  | work opened => rfl
  | register d => rfl
  | registerCommand d => rfl
  | unregisterCommand name => rfl
  | disturb changes => rfl
  | registerParser key p => rfl
  | endConversation key => rfl
  | elapse d => rfl
  | workerEnds id result => rfl

/-- The course of some uses does not depend on the pools. -/
theorem after_repooled (hs : Sound e) (hs' : Sound (e.repooled a r pool runners))
    (h : e.pool.Used) (h' : pool.Used) (us : List (Use κ)) :
    (e.repooled a r pool runners).answers us = e.answers us ∧
      (e.repooled a r pool runners).notes us = e.notes us ∧
      (e.repooled a r pool runners).sights us = e.sights us ∧
      (e.after us).pool.Used ∧
      ∃ p rs, (e.repooled a r pool runners).after us = (e.after us).repooled a r p rs := by
  induction us generalizing e pool runners with
  | nil => exact ⟨rfl, rfl, rfl, h, pool, runners, rfl⟩
  | cons u us ih =>
    let := u.code
    obtain ⟨hu, p, rs, hp, hperform⟩ := perform_twin hs hs' h h' u.operation
    have hnext := perform_sound hs u.operation
    have hnext' := perform_sound hs' u.operation
    rw [hperform] at hnext'
    obtain ⟨hanswers, hnotes, hsights, hused, p', rs', hafter⟩ :=
      ih (e := (e.use u).after) hnext hnext' hu hp
    have hvalue : (e.repooled a r pool runners).use u = ⟨e.repooled a r pool runners, u.operation,
        (e.use u).answer, (e.use u).after.repooled a r p rs⟩ := by
      simp only [use, hperform]
    refine ⟨?_, ?_, ?_, hused, p', rs', ?_⟩
    · simp only [answers, moments, List.map_cons, hvalue] at hanswers ⊢
      rw [hanswers]
    · simp only [notes, hvalue, hnotes, hperform]
    · simp only [sights, hvalue, hsights, shown_repooled hs hs' h h']
    · simp only [after, hvalue, hafter]

/-- Idle storage holds nothing, whatever has happened. -/
theorem used_after (config : Config) (us : List (Use κ)) :
    ((ofConfig config).after us).pool.Used := by
  have hs : Sound (ofConfig config : Engine κ) := sound_after config []
  obtain ⟨-, -, -, hused, -⟩ := after_repooled hs hs (.fresh _) (.fresh _) us
  exact hused

/-- The sizes of the pools, zero included, make no difference to what an engine answers, to what it
reports and to what it shows to handlers, to callbacks, to workers and to conditions on arguments,
over any life of it. (Behaviours of handlers that do the same with what is shown cannot be told
apart.) In other respects than its pools the engine is the same in the end. Storage is rented empty,
and the runner that a command is given is a new one in all but name. -/
theorem pools_are_transparent (config : Config) (a r : Nat) (us : List (Use κ)) :
    let e : Engine κ := ofConfig config
    let e' : Engine κ :=
      ofConfig { config with argumentPoolCapacity := a, runnerPoolCapacity := r }
    e'.answers us = e.answers us ∧ e'.notes us = e.notes us ∧ e'.sights us = e.sights us ∧
      (∀ (C D : Code κ) (o : Operation κ), (∀ s ∈ (e.after us).shown o, s.Alike C D) →
        @perform κ C (e.after us) o = @perform κ D (e.after us) o) ∧
      (∃ pool runners, e'.after us = (e.after us).repooled a r pool runners) ∧
      (e.after us).pool.rent.1 = .empty ∧
      ∀ command, (e.after us).commands.Registered command →
        ((e.after us).rentRunner command).1 = (e.after us).fresh command := by
  intro e e'
  have hs : Sound e := sound_after config []
  have hs' : Sound e' := sound_after _ []
  obtain ⟨hanswers, hnotes, hsights, hused, hafter⟩ :=
    after_repooled (e := e) (a := a) (r := r) hs hs' (.fresh _) (.fresh a) us
  refine ⟨hanswers, hnotes, hsights, ?_, hafter, hused.rent_eq_empty, ?_⟩
  · exact fun C D o alike => perform_eq_of_alike alike
  · intro command hc
    obtain ⟨runners, hrent, -⟩ := rentRunner_fresh (sound_after config us).pools hc
    rw [hrent]

/-- The pools themselves are not alike: one engine has a runner left over, the other never has. -/
example :
    let us : List (Use Bool) :=
      [⟨.registerCommand { name := "ask", execution := .sync true }, prompting⟩,
        ⟨.execute "ask" (.named "ada"), prompting⟩]
    ((ofConfig {} : Engine Bool).after us).pooledRunners "ask" = 1 ∧
      ((ofConfig { runnerPoolCapacity := 0 } : Engine Bool).after us).pooledRunners "ask" = 0 := by
  decide +kernel

end Engine
end CommandConsole
