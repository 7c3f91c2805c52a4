import CommandConsole.Proofs.Engine.Seniority

/-! What a refused reply does: it costs the conversation its place, and nothing else. Two engines that
differ in such a place alone answer and report alike, until the conversation would have had to make
room. -/
namespace CommandConsole

variable {κ α β : Type}

namespace Table

variable {ν : Type} {key : String} {t u : Table String ν}

/-- The second table is the first one, except that a key may stand further behind. -/
inductive Delayed (key : String) : Table String ν → Table String ν → Prop where
  | same (t : Table String ν) : Delayed key t t
  | moved (ahead passed behind : Table String ν) (v : ν) :
      Delayed key (ahead ++ (key, v) :: (passed ++ behind)) (ahead ++ passed ++ (key, v) :: behind)

namespace Delayed

theorem perm (h : Delayed key t u) : u.Perm t := by
  cases h with
  | same => exact .refl _
  | moved ahead passed behind v =>
    rw [List.append_assoc]
    exact List.perm_middle.append_left ahead

theorem find? (h : Delayed key t u) (hn : (t.map Prod.fst).Nodup) (q : String) :
    Table.find? u q = Table.find? t q :=
  find?_perm hn h.perm q

theorem nodup (h : Delayed key t u) (hn : (t.map Prod.fst).Nodup) : (u.map Prod.fst).Nodup :=
  (h.perm.map Prod.fst).nodup_iff.mpr hn

theorem erase (h : Delayed key t u) (hn : (t.map Prod.fst).Nodup) (q : String) :
    Delayed key (Table.erase t q) (Table.erase u q) := by
  rw [erase_eq_filter hn, erase_eq_filter (h.nodup hn)]
  cases h with
  | same => exact .same _
  | moved ahead passed behind v =>
    by_cases hq : q = key
    · simp only [List.filter_append, List.filter_cons, hq, bne_self_eq_false, List.append_assoc]
      exact .same _
    · have hkeep : (q != key) = true := by simpa using hq
      simp only [List.filter_append, List.filter_cons, hkeep, if_true]
      exact .moved _ _ _ v

theorem insert (h : Delayed key t u) (hn : (t.map Prod.fst).Nodup) (q : String) (w : ν) :
    Delayed key (Table.insert t q w) (Table.insert u q w) := by
  have hfind := h.find? hn q
  cases hf : Table.find? t q with
  | some v =>
    rw [insert_eq_map hn hf, insert_eq_map (h.nodup hn) (hfind.trans hf)]
    cases h with
    | same => exact .same _
    | moved ahead passed behind v =>
      simp only [List.map_append, List.map_cons]
      exact .moved _ _ _ _
  | none =>
    have hu := (find?_eq_none_iff u q).mp (hfind.trans hf)
    rw [insert_of_notMem ((find?_eq_none_iff t q).mp hf), insert_of_notMem hu]
    cases h with
    | same => exact .same _
    | moved ahead passed behind v =>
      have hend : Delayed key _ _ := .moved ahead passed (behind ++ [(q, w)]) v
      simpa only [List.append_assoc, List.cons_append] using hend

/-- The first of another key is the first in both tables. -/
theorem tail {first : String} {old : ν} {rest : Table String ν}
    (h : Delayed key ((first, old) :: rest) u) (hne : key ≠ first) :
    ∃ kept, u = (first, old) :: kept ∧ Delayed key rest kept := by
  generalize ht : (first, old) :: rest = t at h
  cases h with
  | same => exact ⟨rest, ht.symm, .same rest⟩
  | moved ahead passed behind v =>
    cases ahead with
    | nil =>
      rw [List.nil_append, List.cons.injEq, Prod.mk.injEq] at ht
      exact absurd ht.1.1.symm hne
    | cons b ahead =>
      rw [List.cons_append, List.cons.injEq] at ht
      obtain ⟨rfl, rfl⟩ := ht
      exact ⟨_, rfl, .moved ahead passed behind v⟩

end Delayed

theorem erase_middle {ahead behind : Table String ν} {v : ν}
    (hn : ((ahead ++ (key, v) :: behind).map Prod.fst).Nodup) :
    Table.erase (ahead ++ (key, v) :: behind) key = ahead ++ behind := by
  rw [erase_eq_filter hn, List.filter_append, List.filter_cons, bne_self_eq_false, if_neg (by simp),
    ← List.filter_append, List.filter_eq_self]
  intro b hb
  rw [bne_iff_ne]
  rintro rfl
  rw [List.map_append, List.map_cons, List.perm_middle.nodup_iff, List.nodup_cons,
    ← List.map_append] at hn
  exact hn.1 (List.mem_map.mpr ⟨b, hb, rfl⟩)

/-- A key that is put last is delayed. -/
theorem delayed_erase_append {v : ν} (hn : (t.map Prod.fst).Nodup) (hf : t.find? key = some v) :
    Delayed key t (t.erase key ++ [(key, v)]) := by
  obtain ⟨ahead, behind, rfl⟩ := List.append_of_mem (mem_of_find? hf)
  have hmoved : Delayed key _ _ := .moved ahead behind [] v
  rw [erase_middle hn]
  rwa [List.append_nil] at hmoved

/-- Putting a key last changes nothing if it was the last, and only then. -/
theorem erase_append_eq_iff {v : ν} (hn : (t.map Prod.fst).Nodup) :
    t.erase key ++ [(key, v)] = t ↔ t.getLast? = some (key, v) := by
  constructor
  · intro h
    rw [← h]
    simp
  · intro h
    obtain ⟨ahead, rfl⟩ := List.getLast?_eq_some_iff.mp h
    rw [erase_middle hn, List.append_nil]

end Table

namespace Engine

open Table (Delayed)

variable {e : Engine κ} {key : String} {u : Table String (Conversation κ)}

/-- The second result is the first one, notes included, except that the conversation of a key may
stand further behind. -/
def Shadows (key : String) (x y : Reported (α × Engine κ)) : Prop :=
  ∃ u, Delayed key x.value.2.conversations u ∧
    y = ⟨(x.value.1, { x.value.2 with conversations := u }), x.notes⟩

theorem shadows_pure (hd : Delayed key e.conversations u) (a : α) :
    Shadows key (pure (a, e) : Reported (α × Engine κ)) (pure (a, { e with conversations := u })) :=
  ⟨u, hd, rfl⟩

theorem Shadows.bind {γ δ : Type} {x : Reported γ} {y : Reported δ}
    {f : γ → Reported (α × Engine κ)} {g : δ → Reported (α × Engine κ)} (hn : y.notes = x.notes)
    (h : Shadows key (f x.value) (g y.value)) : Shadows key (x >>= f) (y >>= g) := by
  obtain ⟨v, hd, hv⟩ := h
  refine ⟨v, hd, ?_⟩
  change (⟨(g y.value).value, y.notes ++ (g y.value).notes⟩ : Reported (α × Engine κ)) = _
  rw [hv, hn]
  rfl

theorem Shadows.map {x y : Reported (α × Engine κ)} (h : Shadows key x y) (f : α → β) :
    Shadows key (do let r ← x; pure (f r.1, r.2)) (do let r ← y; pure (f r.1, r.2)) := by
  obtain ⟨v, hv, rfl⟩ := h
  exact Shadows.bind rfl (shadows_pure hv _)

theorem makeRoom_of_space (space : e.conversations.length < e.limit) : e.makeRoom = pure e := by
  have hnone : e.conversations.length + 1 - max 1 e.config.maxConversations = 0 := by
    simp only [limit] at space
    omega
  simp only [makeRoom, abandonOldest_eq, hnone]
  rfl

theorem makeRoom_of_full {first : String} {old : Conversation κ}
    {rest : Table String (Conversation κ)} (table : e.conversations = (first, old) :: rest)
    (full : e.conversations.length = e.limit) :
    e.makeRoom =
      ⟨{ e with conversations := rest, pool := e.pool.giveBack old.invocation.arguments },
        [.event (.conversationAbandoned first)]⟩ := by
  have hone : ((first, old) :: rest).length + 1 - max 1 e.config.maxConversations = 1 := by
    rw [table] at full
    simp only [limit] at full
    omega
  simp only [makeRoom, abandonOldest_eq, table, hone]
  rfl

theorem openConversation_delayed (hd : Delayed key e.conversations u)
    (hn : (e.conversations.map Prod.fst).Nodup) (within : e.conversations.length ≤ e.limit)
    (k : String) (c : Conversation κ) (stays : key ∉ e.gone k) :
    ∃ v, Delayed key (e.openConversation k c).value.conversations v ∧
      openConversation { e with conversations := u } k c =
        ⟨{ (e.openConversation k c).value with conversations := v },
          (e.openConversation k c).notes⟩ := by
  have hfind := hd.find? hn k
  have hlen := hd.perm.length_eq
  have hroom := e.room within k
  generalize e.gone k = gone at hroom stays
  generalize e.roomFor k = kept at hroom
  simp only [openConversation, hfind]
  cases hroom with
  | replaced waiting =>
    simp only [waiting]
    exact ⟨u.insert k c, hd.insert hn k c, rfl⟩
  | vacant free space =>
    have hspace : u.length < limit { e with conversations := u } := by
      rw [hlen]
      exact space
    simp only [free, makeRoom_of_space space,
      makeRoom_of_space (e := { e with conversations := u }) hspace]
    exact ⟨u.insert k c, hd.insert hn k c, rfl⟩
  | @crowded first old _ free table full =>
    have hfull : u.length = limit { e with conversations := u } := by
      rw [hlen]
      exact full
    rw [table] at hd hn
    obtain ⟨kept', hu, hkept⟩ := hd.tail (by simpa using stays)
    simp only [free, makeRoom_of_full table full,
      makeRoom_of_full (e := { e with conversations := u }) hu hfull]
    rw [List.map_cons, List.nodup_cons] at hn
    exact ⟨Table.insert kept' k c, hkept.insert hn.2 k c, rfl⟩

theorem conclude_shadows (hd : Delayed key e.conversations u)
    (hn : (e.conversations.map Prod.fst).Nodup) (within : e.conversations.length ≤ e.limit)
    (c : Context κ) (stays : key ∉ (e.conclude c).abandoned) :
    Shadows key (e.conclude c) (conclude { e with conversations := u } c) := by
  simp only [conclude] at stays ⊢
  split
  · rename_i callback hcont hcallback
    rw [hcont, hcallback] at stays
    simp only [Reported.abandoned_bind, Reported.abandoned_pure, List.append_nil,
      abandoned_openConversation] at stays
    obtain ⟨v, hv, hopen⟩ := openConversation_delayed hd hn within
      c.invocation.invoker.conversationKey ⟨c.invocation, callback⟩ stays
    rw [hopen]
    exact Shadows.bind rfl (shadows_pure hv _)
  · exact ⟨u, hd, rfl⟩

theorem conclude_dispatch_shadows (hd : Delayed key e.conversations u)
    (hn : (e.conversations.map Prod.fst).Nodup) (within : e.conversations.length ≤ e.limit)
    (c : Context κ) (stays : key ∉ (e.conclude c).abandoned) :
    Shadows key (do let (r, e) ← e.conclude c; pure (dispatchOf r, e))
      (do let (r, e) ← conclude { e with conversations := u } c; pure (dispatchOf r, e)) := by
  obtain ⟨v, hv, hconclude⟩ := conclude_shadows hd hn within c stays
  rw [hconclude]
  exact Shadows.bind rfl (shadows_pure hv _)

theorem recycle_with (e : Engine κ) (u : Table String (Conversation κ)) (origin : Command κ)
    (runner : Runner κ) :
    recycle { e with conversations := u } origin runner =
      ⟨{ (e.recycle origin runner).value with conversations := u },
        (e.recycle origin runner).notes⟩ := by
  have hcurrent : isCurrent { e with conversations := u } origin = e.isCurrent origin := rfl
  simp only [recycle, hcurrent]
  split
  · rfl
  · split
    · rfl
    · split <;> rfl

theorem rentRunner_with (e : Engine κ) (u : Table String (Conversation κ)) (command : Command κ) :
    rentRunner { e with conversations := u } command =
      ((e.rentRunner command).1, { (e.rentRunner command).2 with conversations := u }) := by
  simp only [rentRunner]
  split
  · rfl
  · split <;> rfl

theorem disturb_with (e : Engine κ) (u : Table String (Conversation κ))
    (changes : List (Catalogue.Change κ)) :
    disturb { e with conversations := u } changes =
      ⟨{ (e.disturb changes).value with conversations := u }, (e.disturb changes).notes⟩ := rfl

theorem prepare_with (e : Engine κ) (u : Table String (Conversation κ)) (command : Command κ)
    (line : String) (words : List Word) (invoker : Invoker) (trouble : Option ScanError) :
    prepare { e with conversations := u } command line words invoker trouble =
      ⟨((e.prepare command line words invoker trouble).value.1,
          { (e.prepare command line words invoker trouble).value.2 with conversations := u }),
        (e.prepare command line words invoker trouble).notes⟩ := by
  simp only [prepare]
  split <;> rfl

/-- Whether a line is admitted does not depend on the conversations. -/
theorem admission_with (e : Engine κ) (u : Table String (Conversation κ)) (line : String)
    (invoker : Invoker) :
    admission { e with conversations := u } line invoker =
      ⟨((e.admission line invoker).value.1,
          { (e.admission line invoker).value.2 with conversations := u }),
        (e.admission line invoker).notes⟩ := by
  simp only [admission, prepare_with]
  split
  · rfl
  · split
    · rfl
    · split
      · split <;> rfl
      · split <;> rfl

/-- Settling finished runs does not depend on the place of a conversation. -/
theorem settleAll_shadows {meanwhile : RunId → List (Catalogue.Change κ)}
    {fs : List (Finished κ (Command κ))} (hb : Bounded e)
    (hf : ∀ f ∈ fs, ∀ c, f.context = some c →
      c.Coherent ∧ c.invocation.hasResponded = true)
    (hd : Delayed key e.conversations u) (stays : key ∉ (e.settleAll meanwhile fs).abandoned) :
    Shadows key (e.settleAll meanwhile fs)
      (settleAll { e with conversations := u } meanwhile fs) := by
  induction fs generalizing e u with
  | nil => exact shadows_pure hd []
  | cons f rest ih =>
    have hrest := fun g hg => hf g (List.mem_cons_of_mem f hg)
    cases hcontext : f.context with
    | none =>
      rw [settleAll_cons_of_none hcontext] at stays ⊢
      rw [settleAll_cons_of_none hcontext]
      exact ih hb hrest hd stays
    | some c =>
      obtain ⟨hc, responded⟩ := hf f List.mem_cons_self c hcontext
      have hwith := disturb_with e u (meanwhile f.id)
      have hchange := disturb_frame e (meanwhile f.id)
      generalize (e.commands.changeAll (meanwhile f.id)).value = commands at hchange
      obtain ⟨runners, hrecycle, -⟩ :=
        recycle_spec (e := { e with commands }) hb.rested f.origin f.runner
      have hsettled : (e.settled (meanwhile f.id) f c).2 =
          (conclude { e with commands, runners } c).value.2 := by
        simp only [settled, hchange, hrecycle]
      have hnext := (settled_bounded hb (meanwhile f.id) f hc responded).1
      rw [hsettled] at hnext
      simp only [settleAll, hcontext, Reported.abandoned_bind, abandoned_disturb, hchange,
        abandoned_recycle, List.nil_append, List.mem_append, not_or, hrecycle,
        Reported.abandoned_event] at stays
      obtain ⟨hstays, -, hlater, -⟩ := stays
      simp only [settleAll, hcontext, hwith]
      refine Shadows.bind rfl ?_
      simp only [hchange, recycle_with { e with commands } u]
      refine Shadows.bind rfl ?_
      simp only [hrecycle]
      obtain ⟨v, hv, hconclude⟩ := conclude_shadows (e := { e with commands, runners }) hd
        hb.tended.distinct hb.within c hstays
      rw [hconclude]
      refine Shadows.bind rfl (Shadows.bind rfl ?_)
      obtain ⟨w, hw, hall⟩ := ih hnext hrest hv hlater
      rw [hall]
      exact Shadows.bind rfl (shadows_pure hw _)

theorem registerCommand_shadows (hd : Delayed key e.conversations u) (d : CommandDeclaration κ) :
    Shadows key (e.registerCommand d) (registerCommand { e with conversations := u } d) := by
  simp only [registerCommand]
  refine Shadows.bind rfl ?_
  split <;> exact ⟨u, hd, rfl⟩

theorem register_shadows (hd : Delayed key e.conversations u) (d : CommandDeclaration κ) :
    Shadows key (e.register d) (register { e with conversations := u } d) := by
  obtain ⟨v, hv, hregister⟩ := registerCommand_shadows hd d
  simp only [register, hregister]
  refine Shadows.bind rfl ?_
  generalize (e.registerCommand d).value = x at hv ⊢
  obtain ⟨err | command, e'⟩ := x
  · exact ⟨v, hv, rfl⟩
  · exact ⟨v, hv, rfl⟩

theorem endConversation_shadows (hb : Bounded e) (hd : Delayed key e.conversations u)
    (other : String) :
    Shadows key (e.endConversation other) (endConversation { e with conversations := u } other) := by
  have hfind := hd.find? hb.tended.distinct other
  simp only [endConversation, hfind]
  cases e.conversations.find? other with
  | none => exact shadows_pure hd _
  | some old => exact ⟨_, hd.erase hb.tended.distinct other, rfl⟩

section Code

variable [Code κ] {invoker : Invoker}

theorem start_shadows (hr : Rested e.runners) (hd : Delayed key e.conversations u)
    (hn : (e.conversations.map Prod.fst).Nodup) (within : e.conversations.length ≤ e.limit)
    (command : Command κ) (c : Context κ) (meanwhile : List (Catalogue.Change κ))
    (stays : key ∉ (e.start command c meanwhile).abandoned) :
    Shadows key (e.start command c meanwhile)
      (start { e with conversations := u } command c meanwhile) := by
  have hrent := (rentRunner_spec (e := { e with lastRun := e.lastRun + 1 }) hr command).2
  have hwith := rentRunner_with { e with lastRun := e.lastRun + 1 } u command
  simp only [start] at stays ⊢
  rw [hwith]
  generalize rentRunner { e with lastRun := e.lastRun + 1 } command = rent at hrent stays ⊢
  obtain ⟨runner, e'⟩ := rent
  obtain ⟨runners, rfl, hrested⟩ := hrent
  have hdisturb := disturb_with { e with runners, lastRun := e.lastRun + 1 } u meanwhile
  have hchange := disturb_frame { e with runners, lastRun := e.lastRun + 1 } meanwhile
  generalize (e.commands.changeAll meanwhile).value = commands at hchange
  simp only [help] at stays ⊢
  refine Shadows.bind rfl ?_
  rw [hdisturb]
  simp only [Reported.abandoned_bind, Runner.abandoned_run, abandoned_disturb, List.nil_append,
    hchange] at stays
  refine Shadows.bind rfl ?_
  simp only [hchange]
  generalize (runner.run e.commands.describe c ⟨e.lastRun + 1⟩).value = out at stays ⊢
  obtain ⟨ran, _ | posted⟩ := out
  · exact Shadows.bind rfl ⟨u, hd, rfl⟩
  · obtain ⟨kept, hkept, -⟩ :=
      recycle_spec (e := { e with runners, commands, lastRun := e.lastRun + 1 }) hrested command ran
    have hrecycle := recycle_with { e with runners, commands, lastRun := e.lastRun + 1 } u command ran
    simp only [hrecycle]
    refine Shadows.bind rfl ?_
    simp only [Reported.abandoned_bind, abandoned_recycle, hkept, List.nil_append,
      Reported.abandoned_pure, List.append_nil] at stays ⊢
    exact conclude_dispatch_shadows
      (e := { e with runners := kept, commands, lastRun := e.lastRun + 1 }) hd hn within
      posted.context stays

theorem dispatch_shadows (hr : Rested e.runners) (hd : Delayed key e.conversations u)
    (hn : (e.conversations.map Prod.fst).Nodup) (within : e.conversations.length ≤ e.limit)
    (line : String) (meanwhile : List (Catalogue.Change κ))
    (stays : key ∉ (e.dispatch line invoker meanwhile).abandoned) :
    Shadows key (e.dispatch line invoker meanwhile)
      (dispatch { e with conversations := u } line invoker meanwhile) := by
  have hadmitted := e.admission_admitted line invoker
  simp only [dispatch, Reported.abandoned_bind, abandoned_admission, List.nil_append] at stays ⊢
  rw [admission_with e u]
  refine Shadows.bind rfl ?_
  generalize (e.admission line invoker).value = x at hadmitted stays ⊢
  cases hadmitted with
  | refused pool failed returned => exact shadows_pure (e := { e with pool }) hd _
  | @taken command words bindings pool addressed rented =>
    exact start_shadows (e := { e with pool }) hr hd hn within command _ meanwhile stays

theorem execute_shadows (hb : Bounded e) (hd : Delayed key e.conversations u) (line : String)
    (meanwhile : List (Catalogue.Change κ))
    (stays : key ∉ (e.execute line invoker meanwhile).abandoned) :
    Shadows key (e.execute line invoker meanwhile)
      (execute { e with conversations := u } line invoker meanwhile) := by
  have hn := hb.tended.distinct
  have hfind := hd.find? hn invoker.conversationKey
  simp only [execute, hfind] at stays ⊢
  cases hf : e.conversations.find? invoker.conversationKey with
  | none =>
    simp only [hf] at stays
    exact dispatch_shadows hb.rested hd hn hb.within line meanwhile stays
  | some c =>
    have herase := hd.erase hn invoker.conversationKey
    have hrest := hb.erase invoker.conversationKey
    simp only [hf, continueConversation] at stays ⊢
    cases hw : Line.words line with
    | error trouble => exact ⟨_, herase.insert hrest.tended.distinct invoker.conversationKey c, rfl⟩
    | ok words =>
      simp only [hw, Reported.abandoned_bind, List.mem_append, not_or] at stays
      obtain ⟨-, -, hstays, -⟩ := stays
      exact Shadows.bind rfl (Shadows.bind rfl (conclude_dispatch_shadows
        (e := { e with conversations := e.conversations.erase invoker.conversationKey }) herase
        hrest.tended.distinct hrest.within _ (by simpa using hstays)))

theorem tick_shadows (hb : Bounded e) (hd : Delayed key e.conversations u)
    (meanwhile : RunId → List (Catalogue.Change κ)) (stays : key ∉ (e.tick meanwhile).abandoned) :
    Shadows key (e.tick meanwhile) (tick { e with conversations := u } meanwhile) := by
  rw [abandoned_tick] at stays
  refine Shadows.bind rfl ?_
  simp only [Schedule.tick, Reported.value_bind, Reported.value_pure, Schedule.value_pollAll]
  exact settleAll_shadows (e := e.polled) hb.polled (handed_coherent hb.toAttentive) hd stays

theorem perform_shadows (hb : Bounded e) (hd : Delayed key e.conversations u) (o : Operation κ)
    (stays : key ∉ (e.perform o).abandoned) :
    Shadows key (e.perform o) (perform { e with conversations := u } o) := by
  cases o with
  | execute line invoker meanwhile =>
    simp only [perform, Reported.abandoned_bind, Reported.abandoned_pure, List.append_nil] at stays
    exact (execute_shadows hb hd line meanwhile stays).map Answer.dispatch
  | tick meanwhile =>
    simp only [perform, Reported.abandoned_bind, Reported.abandoned_pure, List.append_nil] at stays
    exact (tick_shadows hb hd meanwhile stays).map Answer.completions
  | register d => exact (register_shadows hd d).map fun x => Answer.registered (problemOf x)
  | registerCommand d =>
    exact (registerCommand_shadows hd d).map fun x => Answer.registered (problemOf x)
  | endConversation other => exact (endConversation_shadows hb hd other).map Answer.found
  | unregisterCommand name => exact ⟨u, hd, rfl⟩
  | disturb changes => exact ⟨u, hd, rfl⟩
  | registerParser other p => exact ⟨u, hd, rfl⟩
  | elapse d => exact ⟨u, hd, rfl⟩
  | work opened => exact ⟨u, hd, rfl⟩
  | workerEnds id result => exact ⟨u, hd, rfl⟩

end Code

/-- What an engine answers in the course of some uses. -/
def answers (e : Engine κ) (us : List (Use κ)) : List Answer := (e.moments us).map (·.answer)

/-- As long as a conversation does not have to make room, its place shows in no answer and in no
report. -/
theorem after_delayed (hb : Bounded e) (hd : Delayed key e.conversations u) (us : List (Use κ))
    (stays : key ∉ (e.notes us).filterMap Note.abandoned?) :
    answers { e with conversations := u } us = e.answers us ∧
      notes { e with conversations := u } us = e.notes us ∧
      ∃ v, Delayed key (e.after us).conversations v ∧
        after { e with conversations := u } us = { e.after us with conversations := v } := by
  induction us generalizing e u with
  | nil => exact ⟨rfl, rfl, u, hd, rfl⟩
  | cons x us ih =>
    let := x.code
    simp only [notes, List.filterMap_append, List.mem_append, not_or] at stays
    obtain ⟨v, hv, hperform⟩ := perform_shadows hb hd x.operation stays.1
    obtain ⟨hanswers, hnotes, w, hw, hafter⟩ :=
      ih (e := (e.use x).after) (bounded_perform hb x.operation) hv stays.2
    have hvalue : use { e with conversations := u } x = ⟨{ e with conversations := u }, x.operation,
        (e.use x).answer, { (e.use x).after with conversations := v }⟩ := by
      simp only [use, hperform]
    refine ⟨?_, ?_, w, hw, ?_⟩
    · simp only [answers, moments, List.map_cons, hvalue] at hanswers ⊢
      rw [hanswers]
    · simp only [notes, hvalue, hnotes, hperform]
    · simp only [after, hvalue, hafter]

/-- A reply with trouble in its delimiters is answered with its failure and runs nothing. The
conversation stays open but is put behind all others, which changes the engine unless it stood there
already. No later answer or report shows the difference, as long as the conversation would not have
had to make room. -/
theorem refused_reply_costs_place (config : Config) (us : List (Use κ)) :
    let e := (ofConfig config : Engine κ).after us
    ∀ [Code κ] (line : String) (invoker : Invoker) (meanwhile : List (Catalogue.Change κ))
        (c : Conversation κ) (trouble : ScanError),
      let key := invoker.conversationKey
      let delayed := { e with conversations := e.conversations.erase key ++ [(key, c)] }
      e.conversations.find? key = some c → Line.words line = .error trouble →
        e.execute line invoker meanwhile =
          ⟨(.continued (.fail (ErrorKind.scan trouble).message), delayed), []⟩ ∧
        (delayed = e ↔ e.conversations.getLast? = some (key, c)) ∧
        ∀ later : List (Use κ), key ∉ (e.notes later).filterMap Note.abandoned? →
          delayed.answers later = e.answers later ∧ delayed.notes later = e.notes later ∧
          ∃ v, Delayed key (e.after later).conversations v ∧
            delayed.after later = { e.after later with conversations := v } := by
  intro e _ line invoker meanwhile c trouble key delayed waiting malformed
  have hb : Bounded e := bounded_after config us
  have hn := hb.tended.distinct
  refine ⟨?_, ?_, ?_⟩
  · have hlast := Table.insert_erase hn key c
    simp only [execute, waiting, continueConversation, malformed, hlast, key, delayed]
    rfl
  · rw [← Table.erase_append_eq_iff hn]
    exact ⟨fun h => congrArg conversations h, fun h => by simp only [delayed, h]⟩
  · intro later stays
    exact after_delayed hb (Table.delayed_erase_append hn waiting) later stays

/-- With the refused reply or without it, both conversations are answered alike. -/
theorem refused_reply_unnoticed :
    let register : Use Bool :=
      ⟨.registerCommand { name := "ask", execution := .sync true }, prompting⟩
    let types := fun name line => (⟨.execute line (.named name), prompting⟩ : Use Bool)
    let before := [register, types "ada" "ask", types "bob" "ask"]
    let e := (ofConfig { maxConversations := 2 } : Engine Bool).after before
    let next := [types "bob" "tea", types "ada" "milk"];
    (∃ c, e.conversations.find? "ada" = some c) ∧
      Line.words "[x" = .error ⟨.unterminated "[", "[x", 0⟩ ∧
      (e.after [types "ada" "[x"]).answers next = e.answers next := by
  intro register types before e next
  have hopen : (e.conversations.find? "ada").isSome = true := by decide +kernel
  obtain ⟨c, hc⟩ := Option.isSome_iff_exists.mp hopen
  have hwords : Line.words "[x" = .error ⟨.unterminated "[", "[x", 0⟩ := rfl
  let := prompting
  obtain ⟨hx, -, hlater⟩ := refused_reply_costs_place { maxConversations := 2 } before "[x"
    (.named "ada") [] c _ hc hwords
  refine ⟨⟨c, hc⟩, hwords, ?_⟩
  have hstays : "ada" ∉ (e.notes next).filterMap Note.abandoned? := by decide +kernel
  have hafter : e.after [types "ada" "[x"] = (e.execute "[x" (.named "ada")).value.2 := rfl
  rw [hafter, hx]
  exact (hlater next hstays).1

/-- A refused reply can decide who makes room: here it costs the conversation of another invoker its
life, and spares the one that had come first. -/
theorem refused_reply_spares_first :
    let register : Use Bool :=
      ⟨.registerCommand { name := "ask", execution := .sync true }, prompting⟩
    let types := fun name line => (⟨.execute line (.named name), prompting⟩ : Use Bool)
    let e := (ofConfig { maxConversations := 2 } : Engine Bool).after
      [register, types "ada" "ask", types "bob" "ask"]
    let refused := e.after [types "ada" "[x"]
    let next := [types "cyn" "ask"];
    e.conversations.map Prod.fst = ["ada", "bob"] ∧
      refused.conversations.map Prod.fst = ["bob", "ada"] ∧
      (e.notes next).filterMap Note.abandoned? = ["ada"] ∧
      (refused.notes next).filterMap Note.abandoned? = ["bob"] := by
  decide +kernel

end Engine
end CommandConsole
