import CommandConsole.Proofs.Engine.Conversation
import CommandConsole.Proofs.Engine.Pools

/-! There are never more conversations than the limit allows, and what happens under one key leaves
the conversations of all others alone, save for the one that has to make room. -/
namespace CommandConsole

variable {κ : Type}

namespace Table

variable {ν : Type} {key : String} {t u v : Table String ν}

/-- Every other key stands for what it stood for. -/
def Spares (key : String) (t u : Table String ν) : Prop :=
  ∀ other, other ≠ key → u.find? other = t.find? other

/-- One other key is gone, and all the rest stand for what they stood for. -/
def DropsOne (key : String) (t u : Table String ν) : Prop :=
  ∃ dropped, dropped ≠ key ∧ t.contains dropped = true ∧ u.contains dropped = false ∧
    ∀ other, other ≠ key → other ≠ dropped → u.find? other = t.find? other

theorem Spares.refl (key : String) (t : Table String ν) : Spares key t t := fun _ _ => rfl

theorem Spares.trans (h : Spares key t u) (h' : Spares key u v) : Spares key t v :=
  fun other hne => (h' other hne).trans (h other hne)

theorem spares_insert (key : String) (t : Table String ν) (w : ν) :
    Spares key t (t.insert key w) := by
  intro other hne
  simp [find?_insert, hne]

theorem spares_erase (h : (t.map Prod.fst).Nodup) (key : String) : Spares key t (t.erase key) := by
  intro other hne
  simp [find?_erase h, hne]

/-- The oldest entry makes room for a new key. -/
theorem dropsOne_tail {first : String} {w : ν} (h : (((first, w) :: t).map Prod.fst).Nodup)
    (free : find? ((first, w) :: t) key = none) (new : ν) :
    DropsOne key ((first, w) :: t) (t.insert key new) := by
  have hkey : key ≠ first := by
    rintro rfl
    simp [find?] at free
  rw [List.map_cons, List.nodup_cons] at h
  have hgone := (find?_eq_none_iff t first).mpr h.1
  refine ⟨first, hkey.symm, by simp [contains, find?], ?_, ?_⟩
  · simp [contains, find?_insert, hkey.symm, hgone]
  · intro other hne hfirst
    simp [find?_insert, find?, hne, hfirst]

/-- What may become of a table of at most `limit` entries on behalf of one key. The rest of it is
spared, unless the key is a new one for which there is no room: then exactly one other key goes. -/
structure Isolated (limit : Nat) (key : String) (opens : Prop) (t u : Table String ν) : Prop where
  bounded : u.length ≤ limit
  spares : ¬(t.contains key = false ∧ t.length = limit ∧ opens) → Spares key t u
  drops : t.contains key = false ∧ t.length = limit ∧ opens → DropsOne key t u

theorem Isolated.of_spares {limit : Nat} {opens : Prop} (bounded : u.length ≤ limit)
    (spares : Spares key t u)
    (room : t.contains key = true ∨ t.length < limit ∨ ¬opens) : Isolated limit key opens t u := by
  refine ⟨bounded, fun _ => spares, ?_⟩
  rintro ⟨hfree, hfull, hopens⟩
  rcases room with h | h | h
  · simp [hfree] at h
  · omega
  · exact absurd hopens h

end Table

namespace Engine

open Table (Spares DropsOne Isolated)

variable {e : Engine κ} {c : Context κ} {key : String} {line : String} {invoker : Invoker}

theorem limit_pos (e : Engine κ) : 0 < e.limit := by
  simp only [limit]
  omega

/-- Its conversations are in order, and no more than are allowed. -/
structure Bounded (e : Engine κ) : Prop extends Attentive e where
  within : e.conversations.length ≤ e.limit

theorem Bounded.erase (h : Bounded e) (key : String) :
    Bounded { e with conversations := e.conversations.erase key } :=
  ⟨⟨h.rested, h.tended.erase key, h.coherent⟩,
    Nat.le_trans (Table.erase_sublist e.conversations key).length_le h.within⟩

/-- The conversations that have to go before one of the given key is opened. -/
def gone (e : Engine κ) (key : String) : List String :=
  if e.hasConversation key = true then [] else (e.conversations.take e.surplus).map Prod.fst

/-- How there comes to be room for a conversation: it replaces the one under its key, or takes a
free place, or has the oldest one go. -/
inductive Room (e : Engine κ) (key : String) : List String → Table String (Conversation κ) → Prop where
  | replaced {old : Conversation κ} (waiting : e.conversations.find? key = some old) :
      Room e key [] e.conversations
  | vacant (free : e.conversations.find? key = none)
      (space : e.conversations.length < e.limit) : Room e key [] e.conversations
  | crowded {first : String} {old : Conversation κ} {rest : Table String (Conversation κ)}
      (free : e.conversations.find? key = none) (table : e.conversations = (first, old) :: rest)
      (full : e.conversations.length = e.limit) : Room e key [first] rest

theorem room (within : e.conversations.length ≤ e.limit) (key : String) :
    Room e key (e.gone key) (e.roomFor key) := by
  have hpos := e.limit_pos
  cases hf : e.conversations.find? key with
  | some old =>
    have hopen := hasConversation_of_find? hf
    rw [gone, roomFor, if_pos hopen, if_pos hopen]
    exact .replaced hf
  | none =>
    have hfree := not_hasConversation_of_find? hf
    rw [gone, roomFor, if_neg hfree, if_neg hfree]
    by_cases hfull : e.conversations.length = e.limit
    · have hone : e.surplus = 1 := by
        simp only [surplus]
        omega
      obtain ⟨⟨first, old⟩, rest, htable⟩ : ∃ b rest, e.conversations = b :: rest :=
        List.exists_cons_of_length_pos (by omega)
      rw [hone, htable]
      exact .crowded hf htable hfull
    · have hnone : e.surplus = 0 := by
        simp only [surplus]
        omega
      rw [hnone]
      exact .vacant hf (by omega)

/-- Opening a conversation touches no other, except for the one that has to make room. -/
theorem opened_isolated (h : (e.conversations.map Prod.fst).Nodup)
    (within : e.conversations.length ≤ e.limit) (key : String) (new : Conversation κ)
    {opens : Prop} (hopens : opens) :
    Isolated e.limit key opens e.conversations ((e.roomFor key).insert key new) := by
  have hroom := e.room within key
  generalize e.gone key = gone at hroom
  generalize e.roomFor key = kept at hroom ⊢
  cases hroom with
  | replaced waiting =>
    refine .of_spares ?_ (Table.spares_insert key _ new) (.inl (hasConversation_of_find? waiting))
    rw [Table.length_insert_of_find? waiting]
    exact within
  | vacant free space =>
    refine .of_spares ?_ (Table.spares_insert key _ new) (.inr (.inl space))
    rw [Table.find?_eq_none_iff] at free
    rw [Table.insert_of_notMem free, List.length_append, List.length_singleton]
    exact space
  | @crowded first old _ free table full =>
    rw [table] at h free
    have hnew : key ∉ kept.map Prod.fst := by
      have hnone := (Table.find?_eq_none_iff _ _).mp free
      exact fun hin => hnone (List.mem_cons_of_mem _ hin)
    refine ⟨?_, ?_, ?_⟩
    · rw [table, List.length_cons] at full
      rw [Table.insert_of_notMem hnew, List.length_append, List.length_singleton]
      omega
    · intro hroom
      exact absurd ⟨by simp [table, Table.contains, free], full, hopens⟩ hroom
    · intro _
      rw [table]
      exact Table.dropsOne_tail h free new

/-- Taking an answer touches no conversation but that of the invoker, and the one that has to make
room for it. -/
theorem Concluded.isolated {x : Response × Engine κ} (hx : Concluded e c x)
    (h : (e.conversations.map Prod.fst).Nodup) (within : e.conversations.length ≤ e.limit) :
    Isolated e.limit c.invocation.invoker.conversationKey (x.1.isContinued = true)
      e.conversations x.2.conversations := by
  cases hx with
  | opened answer asks callback => exact opened_isolated h within _ _ asks
  | final answer asks =>
    exact .of_spares within (Spares.refl _ _) (.inr (.inr (by simp [asks])))

theorem concluded_isolated (h : (e.conversations.map Prod.fst).Nodup)
    (within : e.conversations.length ≤ e.limit) (hc : c.Coherent)
    (responded : c.invocation.hasResponded = true) :
    Isolated e.limit c.invocation.invoker.conversationKey (∃ r, (e.concluded c).1 = .continued r)
      e.conversations (e.concluded c).2.conversations := by
  have hx := (e.conclude_concluded hc responded).isolated h within
  simp only [concluded, dispatchOf_eq_continued_iff]
  exact hx

theorem Executed.isolated {x : Dispatch × Engine κ} (hx : Executed e line invoker x)
    (h : Bounded e) :
    Isolated e.limit invoker.conversationKey (∃ r, x.1 = .continued r) e.conversations
      x.2.conversations := by
  have hdistinct := h.tended.distinct
  cases hx with
  | refused pool free failed returned =>
    exact .of_spares h.within (Spares.refl _ _) (.inr (.inr (by simp)))
  | @misread conversation trouble waiting malformed =>
    refine .of_spares ?_ ?_ (.inl (hasConversation_of_find? waiting))
    · rw [Table.insert_erase hdistinct, List.length_append, List.length_singleton,
        Table.length_erase_of_find? waiting]
      exact h.within
    · exact (Table.spares_erase hdistinct _).trans (Table.spares_insert _ _ _)
  | @replied conversation words context waiting read handled responded =>
    have hc := handled.coherent (Context.coherent_ofInvocation rfl)
    have hown := handled.conversationKey.trans (h.tended.of_find? waiting).own
    have herase := h.erase invoker.conversationKey
    have hx := concluded_isolated herase.tended.distinct herase.within hc responded
    rw [hown] at hx
    refine .of_spares hx.bounded ?_ (.inl (hasConversation_of_find? waiting))
    refine (Table.spares_erase hdistinct _).trans (hx.spares ?_)
    -- the conversation has left the table, so that there is room for it to come back
    rintro ⟨-, hfull, -⟩
    have hlen := Table.length_erase_of_find? waiting
    have hwithin := h.within
    simp only [limit] at hwithin hfull
    omega
  | @answered command words bindings context pool runners commands free addressed handled responded
      rented rested =>
    have hc := handled.coherent (Context.coherent_ofInvocation rfl)
    have hx := concluded_isolated
      (e := { e with pool, runners, commands, lastRun := e.lastRun + 1 })
      hdistinct h.within hc responded
    rw [handled.conversationKey] at hx
    exact hx
  | suspended free addressed handled holds rented rested =>
    exact .of_spares h.within (Spares.refl _ _) (.inr (.inr (by simp)))

/-- What a completion does to the conversations: a final answer touches none, and one that asks for
another line opens a conversation that waits for it. -/
inductive Settlement (limit : Nat) (t : Table String (Conversation κ)) (completion : Completion) :
    Table String (Conversation κ) → Prop where
  | final (answer : completion.response.kind ≠ .continued) : Settlement limit t completion t
  | opened {u : Table String (Conversation κ)} {c : Conversation κ}
      (command : c.invocation.command = completion.command)
      (own : c.invocation.invoker.name = completion.invoker)
      (answer : c.invocation.response? = some completion.response)
      (asks : completion.response.kind = .continued)
      (isolated : Isolated limit c.invocation.invoker.conversationKey True t u)
      (waits : u.find? c.invocation.invoker.conversationKey = some c) :
      Settlement limit t completion u

/-- What completions do to the conversations, one after another. -/
inductive Settlements (limit : Nat) :
    Table String (Conversation κ) → List Completion → Table String (Conversation κ) → Prop where
  | nil (t : Table String (Conversation κ)) : Settlements limit t [] t
  | cons {t u v : Table String (Conversation κ)} {completion : Completion} {rest : List Completion}
      (first : Settlement limit t completion u) (later : Settlements limit u rest v) :
      Settlements limit t (completion :: rest) v

theorem settled_settlement (h : Bounded e) (changes : List (Catalogue.Change κ))
    (f : Finished κ (Command κ)) (hc : c.Coherent) (responded : c.invocation.hasResponded = true) :
    Settlement e.limit e.conversations (e.settled changes f c).1
      (e.settled changes f c).2.conversations := by
  obtain ⟨commands, runners, -, hs⟩ := settled_spec h.rested changes f c
  have hconcluded := conclude_concluded { e with commands, runners } hc responded
  have hisolated := hconcluded.isolated h.tended.distinct h.within
  rw [hs]
  generalize (conclude { e with commands, runners } c).value = x at hconcluded hisolated ⊢
  cases hconcluded with
  | final answer asks => exact .final (by simpa [Response.isContinued] using asks)
  | @opened r k pool answer asks callback =>
    refine .opened (c := ⟨c.invocation, k⟩) rfl rfl answer ?_ ?_ ?_
    · simpa [Response.isContinued] using asks
    · simpa only [asks, limit] using hisolated
    · simp [Table.find?_insert]

theorem Settlement.within {limit : Nat} {t u : Table String (Conversation κ)}
    {completion : Completion} (h : Settlement limit t completion u) (ht : t.length ≤ limit) :
    u.length ≤ limit := by
  cases h with
  | final answer => exact ht
  | opened command own answer asks isolated waits => exact isolated.bounded

theorem settled_bounded (h : Bounded e) (changes : List (Catalogue.Change κ))
    (f : Finished κ (Command κ)) (hc : c.Coherent) (responded : c.invocation.hasResponded = true) :
    Bounded (e.settled changes f c).2 ∧ (e.settled changes f c).2.limit = e.limit := by
  obtain ⟨b, r, hb, hconcluded, -⟩ := settled_concluded h.toAttentive changes f hc responded
  obtain ⟨commands, runners, conversations, pool, hs, -⟩ := settled_frame h.rested changes f c
  have hlimit : (e.settled changes f c).2.limit = e.limit := by rw [hs]; rfl
  refine ⟨⟨hconcluded.attentive hb, ?_⟩, hlimit⟩
  rw [hlimit]
  exact (settled_settlement h changes f hc responded).within h.within

theorem settleAll_settlements {meanwhile : RunId → List (Catalogue.Change κ)}
    {fs : List (Finished κ (Command κ))} (h : Bounded e)
    (hf : ∀ f ∈ fs, ∀ c, f.context = some c →
      c.Coherent ∧ c.invocation.hasResponded = true) :
    Settlements e.limit e.conversations (e.settleAll meanwhile fs).value.1
      (e.settleAll meanwhile fs).value.2.conversations := by
  induction fs generalizing e with
  | nil => exact .nil _
  | cons f rest ih =>
    have hrest := fun g hg => hf g (List.mem_cons_of_mem f hg)
    cases hcontext : f.context with
    | none =>
      rw [settleAll_cons_of_none hcontext]
      exact ih h hrest
    | some c =>
      obtain ⟨hc, responded⟩ := hf f List.mem_cons_self c hcontext
      obtain ⟨hbounded, hlimit⟩ := settled_bounded h (meanwhile f.id) f hc responded
      have hlater := ih hbounded hrest
      rw [hlimit] at hlater
      rw [value_settleAll_cons hcontext]
      exact .cons (settled_settlement h (meanwhile f.id) f hc responded) hlater

theorem settleAll_bounded (meanwhile : RunId → List (Catalogue.Change κ))
    {fs : List (Finished κ (Command κ))} (h : Bounded e)
    (hf : ∀ f ∈ fs, ∀ c, f.context = some c → c.Coherent ∧ c.invocation.hasResponded = true) :
    Bounded (e.settleAll meanwhile fs).value.2 := by
  refine settleAll_keeps (P := Bounded) ?_ hf h
  intro e f c h hc
  exact (settled_bounded h (meanwhile f.id) f hc.1 hc.2).1

theorem Bounded.polled [Code κ] (h : Bounded e) : Bounded e.polled :=
  ⟨attentive_polled h.toAttentive, h.within⟩

theorem bounded_perform [Code κ] (h : Bounded e) (o : Operation κ) :
    Bounded (e.perform o).value.2 := by
  refine ⟨attentive_perform h.toAttentive o, ?_⟩
  have hlimit : (e.perform o).value.2.limit = e.limit := by
    simp only [limit, config_perform h.rested o]
  rw [hlimit]
  cases o with
  | execute line invoker meanwhile =>
    exact ((execute_executed h.rested line invoker meanwhile).isolated h).bounded
  | tick meanwhile =>
    have hended :=
      (settleAll_bounded meanwhile h.polled (handed_coherent h.toAttentive)).within
    rw [← value_tick] at hended
    exact hlimit ▸ hended
  | register d =>
    obtain ⟨commands, runners, hr, -⟩ := e.register_frame d
    simp only [perform, Reported.value_bind, Reported.value_pure, hr]
    exact h.within
  | registerCommand d =>
    obtain ⟨commands, hr⟩ := e.registerCommand_frame d
    simp only [perform, Reported.value_bind, Reported.value_pure, hr]
    exact h.within
  | endConversation key =>
    obtain ⟨pool, hr⟩ := e.endConversation_frame key
    simp only [perform, Reported.value_bind, Reported.value_pure, hr]
    exact (h.erase key).within
  | unregisterCommand name => exact h.within
  | disturb changes => exact h.within
  | registerParser key p => exact h.within
  | elapse d => exact h.within
  | work opened => exact h.within
  | workerEnds id result => exact h.within

theorem bounded_after (config : Config) (us : List (Use κ)) :
    Bounded ((ofConfig config).after us) := by
  refine after_keeps (P := Bounded) (fun e _ o h => bounded_perform h o) ?_ us
  exact ⟨attentive_after config [], Nat.zero_le _⟩

/-- In an engine that any life has brought about, no more conversations are open than the limit
allows, which is one at least. A line of one invoker leaves the conversations of all others as they
are, except that exactly one goes when the line opens a conversation for which there is no room; so
does each completion of a tick. Ending a conversation removes it alone. None of this depends on what
happens to the catalogue in the meantime. -/
theorem conversations_isolated_and_bounded (config : Config) (us : List (Use κ)) :
    let e := (ofConfig config : Engine κ).after us
    let limit := max 1 config.maxConversations
    e.conversationCount ≤ limit ∧
    (∀ [Code κ] (line : String) (invoker : Invoker) (meanwhile : List (Catalogue.Change κ)),
      let x := (e.execute line invoker meanwhile).value
      Isolated limit invoker.conversationKey (∃ r, x.1 = .continued r) e.conversations
        x.2.conversations) ∧
    (∀ [Code κ] (meanwhile : RunId → List (Catalogue.Change κ)),
      let x := (e.tick meanwhile).value
      Settlements limit e.conversations x.1 x.2.conversations) ∧
    (∀ key,
      let x := (e.endConversation key).value
      x.1 = e.hasConversation key ∧ x.2.hasConversation key = false ∧
        Spares key e.conversations x.2.conversations) := by
  intro e limit
  have h : Bounded e := bounded_after config us
  have hlimit : e.limit = limit := congrArg (max 1 ·.maxConversations) (config_after config us)
  refine ⟨hlimit ▸ h.within, ?_, ?_, ?_⟩
  · intro _ line invoker meanwhile
    exact hlimit ▸ (execute_executed h.rested line invoker meanwhile).isolated h
  · intro _ meanwhile
    simp only [value_tick, ← hlimit]
    exact settleAll_settlements (e := e.polled) h.polled (handed_coherent h.toAttentive)
  · intro key
    have hdistinct := h.tended.distinct
    obtain ⟨pool, hr⟩ := e.endConversation_frame key
    refine ⟨?_, ?_, ?_⟩
    · cases hf : e.conversations.find? key <;>
        simp [endConversation, hasConversation, Table.contains, hf]
    · simp [hr, hasConversation, Table.contains, Table.find?_erase hdistinct]
    · simp only [hr]
      exact Table.spares_erase hdistinct key

end Engine
end CommandConsole
