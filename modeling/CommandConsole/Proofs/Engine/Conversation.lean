import CommandConsole.Proofs.Engine.Life
import CommandConsole.Proofs.Engine.Ticks

/-! A line is answered with `continued` exactly when a conversation waits for the next one. -/
namespace CommandConsole

variable {κ : Type}

/-- A conversation that has asked its own invoker for another line. -/
structure Conversation.WaitsUnder (c : Conversation κ) (key : String) : Prop where
  own : c.invocation.invoker.conversationKey = key
  asked : ∃ r, c.invocation.response? = some r ∧ r.isContinued = true

/-- Every conversation of a table waits where the next line of its invoker looks for it. -/
structure Tended (t : Table String (Conversation κ)) : Prop where
  distinct : (t.map Prod.fst).Nodup
  waiting : ∀ b ∈ t, b.2.WaitsUnder b.1

namespace Tended

variable {t u : Table String (Conversation κ)} {key : String} {c : Conversation κ}

theorem sublist (h : Tended t) (hs : u.Sublist t) : Tended u :=
  ⟨h.distinct.sublist (hs.map Prod.fst), fun b hb => h.waiting b (hs.subset hb)⟩

theorem insert (h : Tended t) (hc : c.WaitsUnder key) : Tended (Table.insert t key c) := by
  refine ⟨Table.nodup_insert h.distinct key c, ?_⟩
  intro b hb
  rcases Table.mem_insert hb with rfl | hb
  · exact hc
  · exact h.waiting b hb

theorem erase (h : Tended t) (key : String) : Tended (Table.erase t key) :=
  h.sublist (Table.erase_sublist t key)

theorem of_find? (h : Tended t) (hf : t.find? key = some c) : c.WaitsUnder key :=
  h.waiting (key, c) (Table.mem_of_find? hf)

end Tended

/-- Conversations wait for their own invokers, and whatever is suspended has a callback exactly if
it has asked for another line. -/
structure Attentive (e : Engine κ) : Prop where
  rested : Rested e.runners
  tended : Tended e.conversations
  coherent : ∀ x ∈ e.schedule.held, ∃ c, x.2 = some c ∧ c.Coherent

theorem Attentive.holds {e : Engine κ} (h : Attentive e) :
    ∀ p ∈ e.schedule.pending, ∃ c, p.runner.context? = some c := by
  intro p hp
  obtain ⟨c, hc, -⟩ := h.coherent _ (Schedule.mem_held hp)
  exact ⟨c, hc⟩

namespace Engine

variable {e : Engine κ} {c : Context κ} {r : Response} {line : String} {invoker : Invoker}

theorem tended_roomFor (h : Tended e.conversations) (key : String) : Tended (e.roomFor key) := by
  simp only [roomFor]
  split
  · exact h
  · exact h.sublist (List.drop_sublist _ _)

/-- What taking an answer does to the conversations: one is opened for the invoker if the answer
asks for another line, and none is touched otherwise. -/
inductive Concluded (e : Engine κ) (c : Context κ) : Response × Engine κ → Prop where
  | opened {r : Response} {k : κ} {pool : Pool} (answer : c.invocation.response? = some r)
      (asks : r.isContinued = true) (callback : c.callback = some k) :
      Concluded e c (r, { e with
        conversations := (e.roomFor c.invocation.invoker.conversationKey).insert
          c.invocation.invoker.conversationKey ⟨c.invocation, k⟩
        pool })
  | final {r : Response} {pool : Pool} (answer : c.invocation.response? = some r)
      (asks : r.isContinued = false) : Concluded e c (r, { e with pool })

theorem conclude_concluded (e : Engine κ) (hc : c.Coherent)
    (responded : c.invocation.hasResponded = true) : Concluded e c (e.conclude c).value := by
  obtain ⟨r, hr⟩ := Option.isSome_iff_exists.mp responded
  cases hcont : r.isContinued with
  | false =>
    rw [conclude_of_final hr hcont]
    exact .final hr hcont
  | true =>
    obtain ⟨k, hk⟩ := Option.isSome_iff_exists.mp (hc.mpr ⟨r, hr, hcont⟩)
    rw [conclude_of_continued hr hcont hk]
    obtain ⟨pool, hopen⟩ := e.value_openConversation c.invocation.invoker.conversationKey
      ⟨c.invocation, k⟩
    rw [hopen]
    exact .opened hr hcont hk

theorem Concluded.attentive {x : Response × Engine κ} (hx : Concluded e c x) (h : Attentive e) :
    Attentive x.2 := by
  cases hx with
  | opened answer asks callback =>
    exact ⟨h.rested, (tended_roomFor h.tended _).insert ⟨rfl, _, answer, asks⟩, h.coherent⟩
  | final answer asks => exact ⟨h.rested, h.tended, h.coherent⟩

/-- Once an answer is taken, a conversation waits for the invoker exactly if it asks for another
line, provided that none waited before. -/
theorem Concluded.hasConversation_iff {x : Response × Engine κ} (h : Concluded e c x)
    {key : String} (own : c.invocation.invoker.conversationKey = key)
    (free : e.conversations.find? key = none) :
    x.2.hasConversation key = true ↔ x.1.isContinued = true := by
  subst own
  cases h with
  | opened answer asks callback =>
    simp [hasConversation, Table.contains, Table.find?_insert, asks]
  | final answer asks => simp [hasConversation, Table.contains, free, asks]

/-- Once an answer that asks for another line is taken, the conversation of its own waits. -/
theorem Concluded.waits {x : Response × Engine κ} (h : Concluded e c x)
    (hasks : x.1.isContinued = true) :
    ∃ k, c.callback = some k ∧ c.invocation.response? = some x.1 ∧
      x.2.conversations.find? c.invocation.invoker.conversationKey = some ⟨c.invocation, k⟩ := by
  cases h with
  | @opened r k pool answer asks callback =>
    exact ⟨k, callback, answer, by simp [Table.find?_insert]⟩
  | final answer asks =>
    simp only at hasks
    simp [asks] at hasks

theorem dispatchOf_eq_continued_iff : (∃ s, dispatchOf r = .continued s) ↔ r.isContinued = true := by
  simp only [dispatchOf]
  cases r.isContinued <;> simp

theorem isContinued_of_dispatchOf {s : Response} (h : dispatchOf r = .completed s) :
    s.isContinued = false := by
  simp only [dispatchOf] at h
  cases hr : r.isContinued <;> simp only [hr, if_true] at h
  · injection h with h
    exact h ▸ hr
  · cases h

/-- What holds of an engine once it has answered a line of an invoker: a conversation waits for the
invoker exactly if the answer says so, and a final answer asks for nothing. -/
structure Agrees (invoker : Invoker) (x : Dispatch × Engine κ) : Prop where
  waits : x.2.hasConversation invoker.conversationKey = true ↔ ∃ s, x.1 = .continued s
  final : ∀ s, x.1 = .completed s → s.isContinued = false

theorem agrees_concluded (hc : c.Coherent) (responded : c.invocation.hasResponded = true)
    (own : c.invocation.invoker.conversationKey = invoker.conversationKey)
    (free : e.conversations.find? invoker.conversationKey = none) :
    Agrees invoker (e.concluded c) := by
  have h := e.conclude_concluded hc responded
  refine ⟨?_, fun s hs => isContinued_of_dispatchOf hs⟩
  exact (h.hasConversation_iff own free).trans dispatchOf_eq_continued_iff.symm

theorem Executed.agrees (h : Attentive e) {x : Dispatch × Engine κ}
    (hx : Executed e line invoker x) : Agrees invoker x := by
  cases hx with
  | refused pool free failed returned =>
    refine ⟨by simp [hasConversation, Table.contains, free], ?_⟩
    intro s hs
    injection hs with hs
    subst hs
    simp [Response.isContinued, failed]
  | misread waiting malformed =>
    refine ⟨?_, fun s hs => by cases hs⟩
    simp [hasConversation, Table.contains, Table.find?_insert]
  | @replied conversation words context waiting read handled responded =>
    have hown := (h.tended.of_find? waiting).own
    have hinvoker := Invocation.invoker_eq_of_asked handled.asked
    apply agrees_concluded (handled.coherent (Context.coherent_ofInvocation rfl)) responded
    · rw [hinvoker]
      exact hown
    · simp [Table.find?_erase h.tended.distinct]
  | answered free addressed handled responded rented rested =>
    have hinvoker := Invocation.invoker_eq_of_asked handled.asked
    apply agrees_concluded (handled.coherent (Context.coherent_ofInvocation rfl)) responded
    · rw [hinvoker]
      rfl
    · exact free
  | suspended free addressed handled holds rented rested =>
    exact ⟨by simp [hasConversation, Table.contains, free], fun s hs => by cases hs⟩

theorem Executed.attentive (h : Attentive e) {x : Dispatch × Engine κ}
    (hx : Executed e line invoker x) : Attentive x.2 := by
  cases hx with
  | refused pool free failed returned => exact ⟨h.rested, h.tended, h.coherent⟩
  | misread waiting malformed =>
    exact ⟨h.rested, (h.tended.erase _).insert (h.tended.of_find? waiting), h.coherent⟩
  | @replied conversation words context waiting read handled responded =>
    have hc := handled.coherent (Context.coherent_ofInvocation rfl)
    apply (conclude_concluded _ hc responded).attentive
    exact ⟨h.rested, h.tended.erase _, h.coherent⟩
  | answered free addressed handled responded rented rested =>
    have hc := handled.coherent (Context.coherent_ofInvocation rfl)
    apply (conclude_concluded _ hc responded).attentive
    exact ⟨rested, h.tended, h.coherent⟩
  | @suspended command words bindings context runner pool runners commands free addressed handled
      holds rented rested =>
    have hc := handled.coherent (Context.coherent_ofInvocation rfl)
    refine ⟨rested, h.tended, ?_⟩
    intro x hx
    rw [Schedule.held_submit] at hx
    rcases List.mem_append.mp hx with hx | hx
    · exact h.coherent x hx
    · rw [List.mem_singleton] at hx
      subst hx
      exact ⟨context, Runner.context?_of_current? holds, hc⟩

/-- What a tick finds finished has been answered, with a callback exactly if it asks for another
line. -/
theorem handed_coherent [Code κ] (h : Attentive e) :
    ∀ f ∈ e.ended, ∀ c, f.context = some c →
      c.Coherent ∧ c.invocation.hasResponded = true := by
  intro f hf c hc
  obtain ⟨p, hp, b, d, -, -, hb, hd, -, hbd, hresponded⟩ := Schedule.handed_of_ends? h.holds hf
  rw [hc] at hd
  injection hd with hd
  subst hd
  obtain ⟨b', hb', hcoherent⟩ := h.coherent _ (Schedule.mem_held hp)
  simp only [hb, Option.some.injEq] at hb'
  subst hb'
  exact ⟨hbd.coherent hcoherent, hresponded⟩

theorem attentive_polled [Code κ] (h : Attentive e) : Attentive e.polled := by
  refine ⟨h.rested, h.tended, ?_⟩
  intro x hx
  obtain ⟨q, hq, rfl⟩ := List.mem_map.mp hx
  obtain ⟨p, hp, b, d, -, -, hb, hd, hbd⟩ := Schedule.held_of_stays? h.holds hq
  obtain ⟨b', hb', hcoherent⟩ := h.coherent _ (Schedule.mem_held hp)
  simp only [hb, Option.some.injEq] at hb'
  subst hb'
  exact ⟨d, hd, hbd.coherent hcoherent⟩

theorem settled_concluded (h : Attentive e) (changes : List (Catalogue.Change κ))
    (f : Finished κ (Command κ)) (hc : c.Coherent) (responded : c.invocation.hasResponded = true) :
    ∃ b r, Attentive b ∧ Concluded b c (r, (e.settled changes f c).2) ∧
      (e.settled changes f c).1 = ⟨f.id, c.invocation.command, c.invocation.invoker.name, r⟩ := by
  obtain ⟨commands, runners, hrested, hs⟩ := settled_spec h.rested changes f c
  rw [hs]
  exact ⟨{ e with commands, runners }, _, ⟨hrested, h.tended, h.coherent⟩,
    conclude_concluded _ hc responded, rfl⟩

theorem settleAll_attentive (h : Attentive e) {meanwhile : RunId → List (Catalogue.Change κ)}
    {fs : List (Finished κ (Command κ))}
    (hf : ∀ f ∈ fs, ∀ c, f.context = some c →
      c.Coherent ∧ c.invocation.hasResponded = true) :
    Attentive (e.settleAll meanwhile fs).value.2 := by
  refine settleAll_keeps ?_ hf h
  intro e f c h hc
  obtain ⟨b, r, hb, hconcluded, -⟩ := settled_concluded h (meanwhile f.id) f hc.1 hc.2
  exact hconcluded.attentive hb

theorem attentive_perform [Code κ] (h : Attentive e) (o : Operation κ) :
    Attentive (e.perform o).value.2 := by
  cases o with
  | execute line invoker meanwhile =>
    exact (execute_executed h.rested line invoker meanwhile).attentive h
  | tick meanwhile =>
    simp only [perform, Reported.value_bind, Reported.value_pure, value_tick]
    exact settleAll_attentive (attentive_polled h) (handed_coherent h)
  | register d =>
    obtain ⟨commands, runners, hr, hsub⟩ := e.register_frame d
    simp only [perform, Reported.value_bind, Reported.value_pure, hr]
    exact ⟨fun b hb => h.rested b (hsub.subset hb), h.tended, h.coherent⟩
  | registerCommand d =>
    obtain ⟨commands, hr⟩ := e.registerCommand_frame d
    simp only [perform, Reported.value_bind, Reported.value_pure, hr]
    exact ⟨h.rested, h.tended, h.coherent⟩
  | unregisterCommand name => exact ⟨h.rested, h.tended, h.coherent⟩
  | disturb changes => exact ⟨h.rested, h.tended, h.coherent⟩
  | registerParser key p => exact ⟨h.rested, h.tended, h.coherent⟩
  | endConversation key =>
    obtain ⟨pool, hr⟩ := e.endConversation_frame key
    simp only [perform, Reported.value_bind, Reported.value_pure, hr]
    exact ⟨h.rested, h.tended.erase key, h.coherent⟩
  | elapse d =>
    refine ⟨h.rested, h.tended, ?_⟩
    have hheld := Schedule.held_mapRunners e.schedule (fun r => (r.elapse_aside d).context?_eq)
    exact hheld.symm ▸ h.coherent
  | work opened =>
    refine ⟨h.rested, h.tended, ?_⟩
    have hheld := Schedule.held_mapRunners e.schedule
      (fun r => (r.work_aside e.help opened).context?_eq)
    exact hheld.symm ▸ h.coherent
  | workerEnds id result =>
    refine ⟨h.rested, h.tended, ?_⟩
    have hheld := Schedule.held_workerEnds e.schedule id result
    exact hheld.symm ▸ h.coherent

theorem attentive_after (config : Config) (us : List (Use κ)) :
    Attentive ((ofConfig config).after us) := by
  refine after_keeps (P := Attentive) (fun e _ o h => attentive_perform h o) ?_ us
  constructor
  · exact fun b hb => nomatch hb
  · exact ⟨.nil, fun b hb => nomatch hb⟩
  · exact fun x hx => nomatch hx

/-- In an engine that any life has brought about, a line is answered with `continued` exactly when a
conversation waits for the next one of its invoker, and a final answer never asks for a line. Every
conversation waits under the key of its own invoker, having asked for a line. In the course of a
tick, a completion that asks for one has its own conversation waiting as soon as it is settled. None
of this depends on what happens to the catalogue in the meantime. -/
theorem dispatch_agrees_with_conversations (config : Config) (us : List (Use κ)) :
    let e := (ofConfig config : Engine κ).after us
    (∀ [Code κ] (line : String) (invoker : Invoker) (meanwhile : List (Catalogue.Change κ)),
      let x := (e.execute line invoker meanwhile).value
      (x.2.hasConversation invoker.conversationKey = true ↔ ∃ r, x.1 = .continued r) ∧
      ∀ r, x.1 = .completed r → r.kind ≠ .continued) ∧
    (∀ key c, (key, c) ∈ e.conversations →
      c.invocation.invoker.conversationKey = key ∧
      ∃ r, c.invocation.response? = some r ∧ r.kind = .continued) ∧
    (∀ [Code κ] (meanwhile : RunId → List (Catalogue.Change κ)) (earlier later : List Completion)
        (completion : Completion),
      (e.tick meanwhile).value.1 = earlier ++ completion :: later →
      completion.response.kind = .continued →
      ∃ ran f rest c k,
        (e.tick meanwhile).value = (e.polled.settleAll meanwhile (ran ++ f :: rest)).value ∧
        f.id = completion.id ∧ f.context = some c ∧
        c.invocation.invoker.name = completion.invoker ∧
        c.invocation.response? = some completion.response ∧ c.callback = some k ∧
        (e.polled.settleAll meanwhile (ran ++ [f])).value.1 = earlier ++ [completion] ∧
        (e.polled.settleAll meanwhile (ran ++ [f])).value.2.conversations.find?
          c.invocation.invoker.conversationKey = some ⟨c.invocation, k⟩) := by
  intro e
  have h : Attentive e := attentive_after config us
  refine ⟨?_, ?_, ?_⟩
  · intro _ line invoker meanwhile x
    have hx : Agrees invoker x := (execute_executed h.rested line invoker meanwhile).agrees h
    exact ⟨hx.waits, fun r hr => by simpa [Response.isContinued] using hx.final r hr⟩
  · intro key c hc
    obtain ⟨own, r, hr, hasks⟩ := h.tended.waiting (key, c) hc
    exact ⟨own, r, hr, by simpa [Response.isContinued] using hasks⟩
  · intro _ meanwhile earlier later completion htick hasks
    rw [value_tick] at htick
    obtain ⟨ran, f, rest, c, hended, hc, hearlier, hcompletion⟩ :=
      exists_settled_of_completions htick
    have hran : ∀ g ∈ ran, ∀ d, g.context = some d →
        d.Coherent ∧ d.invocation.hasResponded = true := by
      intro g hg
      exact handed_coherent h g (by simp [hended, hg])
    obtain ⟨hcoherent, hresponded⟩ := handed_coherent h f (by simp [hended]) c hc
    obtain ⟨b, r, -, hconcluded, heq⟩ := settled_concluded
      (settleAll_attentive (attentive_polled h) hran) (meanwhile f.id) f hcoherent hresponded
    rw [hcompletion] at heq
    subst heq
    have hcontinued : r.isContinued = true := by simpa [Response.isContinued] using hasks
    obtain ⟨k, hk, hr, hwaits⟩ := hconcluded.waits hcontinued
    refine ⟨ran, f, rest, c, k, ?_, rfl, hc, rfl, hr, hk, ?_, ?_⟩
    · rw [value_tick, hended]
    · rw [value_settleAll_append, value_settleAll_cons hc, hearlier, hcompletion]
      rfl
    · rw [value_settleAll_append, value_settleAll_cons hc]
      exact hwaits

end Engine
end CommandConsole
