import CommandConsole.Proofs.Engine.Lines

/-! What can become of the runs that a tick finds finished. -/
namespace CommandConsole.Engine

variable {κ : Type} {e : Engine κ} {f : Finished κ (Command κ)} {c : Context κ}
  {fs gs : List (Finished κ (Command κ))} {meanwhile : RunId → List (Catalogue.Change κ)}

/-- A finished run settled, once the catalogue has changed: its completion, and the engine after it. -/
def settled (e : Engine κ) (changes : List (Catalogue.Change κ)) (f : Finished κ (Command κ))
    (c : Context κ) : Completion × Engine κ :=
  let x := (((e.disturb changes).value.recycle f.origin f.runner).value.conclude c).value
  (⟨f.id, c.invocation.command, c.invocation.invoker.name, x.1⟩, x.2)

/-- The runner of a finished run comes back to a catalogue that may have changed; then the answer is
taken. -/
theorem settled_spec (h : Rested e.runners) (changes : List (Catalogue.Change κ))
    (f : Finished κ (Command κ)) (c : Context κ) :
    ∃ commands runners, Rested runners ∧
      e.settled changes f c =
        (⟨f.id, c.invocation.command, c.invocation.invoker.name,
            (({ e with commands, runners } : Engine κ).conclude c).value.1⟩,
          (({ e with commands, runners } : Engine κ).conclude c).value.2) := by
  generalize hchanged : (e.commands.changeAll changes).value = commands
  obtain ⟨runners, hr, hrested⟩ :=
    recycle_spec (e := { e with commands }) h f.origin f.runner
  refine ⟨commands, runners, hrested, ?_⟩
  simp only [settled, disturb_frame, hchanged, hr]

theorem settled_frame (h : Rested e.runners) (changes : List (Catalogue.Change κ))
    (f : Finished κ (Command κ)) (c : Context κ) :
    ∃ commands runners conversations pool,
      (e.settled changes f c).2 = { e with commands, runners, conversations, pool } ∧
        Rested runners := by
  obtain ⟨commands, runners, hrested, hs⟩ := settled_spec h changes f c
  obtain ⟨conversations, pool, hc⟩ := conclude_frame { e with commands, runners } c
  exact ⟨commands, runners, conversations, pool, by rw [hs, hc], hrested⟩

theorem value_settleAll_cons (h : f.context = some c) (e : Engine κ)
    (rest : List (Finished κ (Command κ))) :
    (e.settleAll meanwhile (f :: rest)).value =
      ((e.settled (meanwhile f.id) f c).1 ::
          ((e.settled (meanwhile f.id) f c).2.settleAll meanwhile rest).value.1,
        ((e.settled (meanwhile f.id) f c).2.settleAll meanwhile rest).value.2) := by
  simp only [settleAll, h]
  rfl

theorem settleAll_cons_of_none (h : f.context = none) (e : Engine κ)
    (rest : List (Finished κ (Command κ))) :
    e.settleAll meanwhile (f :: rest) = e.settleAll meanwhile rest := by
  simp only [settleAll, h]

theorem value_settleAll_append (e : Engine κ) (fs gs : List (Finished κ (Command κ))) :
    (e.settleAll meanwhile (fs ++ gs)).value =
      ((e.settleAll meanwhile fs).value.1 ++
          ((e.settleAll meanwhile fs).value.2.settleAll meanwhile gs).value.1,
        ((e.settleAll meanwhile fs).value.2.settleAll meanwhile gs).value.2) := by
  induction fs generalizing e with
  | nil => rfl
  | cons f rest ih =>
    cases hf : f.context with
    | none =>
      rw [List.cons_append, settleAll_cons_of_none hf, settleAll_cons_of_none hf, ih]
    | some c =>
      rw [List.cons_append, value_settleAll_cons hf, value_settleAll_cons hf, ih, List.cons_append]

/-- Every finished run is answered for, under its own number. -/
theorem settleAll_ids (h : ∀ f ∈ fs, f.context.isSome = true) (e : Engine κ) :
    (e.settleAll meanwhile fs).value.1.map (·.id) = fs.map (·.id) := by
  induction fs generalizing e with
  | nil => rfl
  | cons f rest ih =>
    obtain ⟨c, hc⟩ := Option.isSome_iff_exists.mp (h f List.mem_cons_self)
    rw [value_settleAll_cons hc, List.map_cons, List.map_cons,
      ih (fun g hg => h g (List.mem_cons_of_mem _ hg))]
    rfl

/-- Each completion is the settling of one run that was found finished. -/
theorem exists_settled_of_completions {earlier later : List Completion} {completion : Completion}
    (h : (e.settleAll meanwhile fs).value.1 = earlier ++ completion :: later) :
    ∃ ran f rest c, fs = ran ++ f :: rest ∧ f.context = some c ∧
      (e.settleAll meanwhile ran).value.1 = earlier ∧
      ((e.settleAll meanwhile ran).value.2.settled (meanwhile f.id) f c).1 = completion := by
  induction fs generalizing e earlier with
  | nil => simp [settleAll] at h
  | cons f rest ih =>
    cases hf : f.context with
    | none =>
      rw [settleAll_cons_of_none hf] at h
      obtain ⟨ran, g, gs, c, rfl, hc, hearlier, hcompletion⟩ := ih h
      refine ⟨f :: ran, g, gs, c, rfl, hc, ?_, ?_⟩
      · rw [settleAll_cons_of_none hf, hearlier]
      · rw [settleAll_cons_of_none hf, hcompletion]
    | some d =>
      rw [value_settleAll_cons hf] at h
      cases earlier with
      | nil =>
        rw [List.nil_append, List.cons.injEq] at h
        exact ⟨[], f, rest, d, rfl, hf, rfl, h.1⟩
      | cons x earlier =>
        rw [List.cons_append, List.cons.injEq] at h
        obtain ⟨ran, g, gs, c, rfl, hc, hearlier, hcompletion⟩ := ih h.2
        refine ⟨f :: ran, g, gs, c, rfl, hc, ?_, ?_⟩
        · rw [value_settleAll_cons hf, h.1, hearlier]
        · rw [value_settleAll_cons hf, hcompletion]

/-- A completion names the command and the invoker of its own run. -/
theorem exists_finished_of_completion {completion : Completion}
    (h : completion ∈ (e.settleAll meanwhile fs).value.1) :
    ∃ f ∈ fs, ∃ c, f.context = some c ∧ completion.id = f.id ∧
      completion.command = c.invocation.command ∧
      completion.invoker = c.invocation.invoker.name := by
  obtain ⟨earlier, later, hsplit⟩ := List.append_of_mem h
  obtain ⟨ran, f, rest, c, rfl, hc, -, rfl⟩ := exists_settled_of_completions hsplit
  exact ⟨f, by simp, c, hc, rfl, rfl, rfl⟩

/-- What the settling of one run keeps, the settling of all of them keeps. -/
theorem settleAll_keeps {P : Engine κ → Prop} {Q : Finished κ (Command κ) → Context κ → Prop}
    (keeps : ∀ e f c, P e → Q f c → P (e.settled (meanwhile f.id) f c).2)
    (hf : ∀ f ∈ fs, ∀ c, f.context = some c → Q f c) (h : P e) :
    P (e.settleAll meanwhile fs).value.2 := by
  induction fs generalizing e with
  | nil => exact h
  | cons f rest ih =>
    have hrest := fun g hg => hf g (List.mem_cons_of_mem f hg)
    cases hc : f.context with
    | none =>
      rw [settleAll_cons_of_none hc]
      exact ih hrest h
    | some c =>
      rw [value_settleAll_cons hc]
      exact ih hrest (keeps e f c h (hf f List.mem_cons_self c hc))

/-- Settling touches neither what is suspended nor the numbers given out. -/
theorem settleAll_frame (h : Rested e.runners) (meanwhile : RunId → List (Catalogue.Change κ))
    (fs : List (Finished κ (Command κ))) :
    ∃ commands runners conversations pool,
      (e.settleAll meanwhile fs).value.2 = { e with commands, runners, conversations, pool } ∧
        Rested runners := by
  apply settleAll_keeps (Q := fun _ _ => True)
    (P := fun x => ∃ commands runners conversations pool,
      x = { e with commands, runners, conversations, pool } ∧ Rested runners)
  · rintro _ f c ⟨commands, runners, conversations, pool, rfl, hr⟩ _
    obtain ⟨d, r, t, p, hs, hr'⟩ :=
      settled_frame (e := { e with commands, runners, conversations, pool }) hr (meanwhile f.id) f c
    exact ⟨d, r, t, p, hs, hr'⟩
  · intro _ _ _ _
    trivial
  · exact ⟨e.commands, e.runners, e.conversations, e.pool, rfl, h⟩

section Poll

variable [Code κ]

/-- The engine once all its suspended runs are polled, and none is settled yet. -/
def polled (e : Engine κ) : Engine κ :=
  { e with
    schedule :=
      ⟨e.schedule.pending.filterMap (Schedule.stays? e.help), e.schedule.ticks + 1⟩ }

/-- The runs that a poll finds finished, in the order of dispatch. -/
def ended (e : Engine κ) : List (Finished κ (Command κ)) :=
  e.schedule.pending.filterMap (Schedule.ends? e.help)

theorem value_tick (e : Engine κ) (meanwhile : RunId → List (Catalogue.Change κ)) :
    (e.tick meanwhile).value = (e.polled.settleAll meanwhile e.ended).value := by
  simp only [tick, Schedule.tick, Reported.value_bind, Reported.value_pure, Schedule.value_pollAll,
    polled, ended]

theorem tick_frame (h : Rested e.runners) (meanwhile : RunId → List (Catalogue.Change κ)) :
    ∃ commands runners conversations pool,
      (e.tick meanwhile).value.2 = { e.polled with commands, runners, conversations, pool } ∧
        Rested runners := by
  rw [value_tick]
  exact settleAll_frame (e := e.polled) h meanwhile e.ended

end Poll

end CommandConsole.Engine
