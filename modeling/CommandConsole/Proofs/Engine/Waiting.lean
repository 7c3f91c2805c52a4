import CommandConsole.Proofs.Engine.Begun
import CommandConsole.Proofs.Engine.Seniority

/-! Why a conversation waits under a key after an operation: it has waited before, has been asked for
by a reply or by a first line, or belongs to a run that has been completed. -/
namespace CommandConsole

variable {κ : Type}

namespace Happening

/-- The key that a happening is about. -/
def key : Happening → String
  | .opened key | .replaced key | .misread key | .left key | .abandoned key => key

end Happening

/-- Nothing but refused replies befalls the conversation of a key. -/
def Undisturbed (key : String) (hs : List Happening) : Prop :=
  ∀ h ∈ hs, h.key = key → h = .misread key

/-- A conversation comes to wait under a key. -/
def ComesToWait (key : String) (hs : List Happening) : Prop := ∃ h ∈ hs, h.asks key = true

section Lists

variable {key : String} {hs gs : List Happening}

theorem undisturbed_nil : Undisturbed key [] := fun _ hh => nomatch hh

theorem undisturbed_append :
    Undisturbed key (hs ++ gs) ↔ Undisturbed key hs ∧ Undisturbed key gs := by
  simp only [Undisturbed, List.forall_mem_append]

theorem ComesToWait.append_left (h : ComesToWait key hs) : ComesToWait key (hs ++ gs) := by
  obtain ⟨x, hx, hasks⟩ := h
  exact ⟨x, List.mem_append_left gs hx, hasks⟩

theorem ComesToWait.append_right (h : ComesToWait key gs) : ComesToWait key (hs ++ gs) := by
  obtain ⟨x, hx, hasks⟩ := h
  exact ⟨x, List.mem_append_right hs hx, hasks⟩

end Lists

namespace Engine

variable {e : Engine κ} {c d : Context κ} {key : String} {v : Conversation κ} {u : Use κ}

/-- What happens to conversations in the course of a use. -/
def happened (e : Engine κ) (u : Use κ) : List Happening :=
  letI := u.code
  e.happenings u.operation

/-- A conversation comes to wait under the key for which it is opened. -/
theorem comesToWait_opening (e : Engine κ) (key : String) : ComesToWait key (e.opening key) := by
  unfold opening
  split
  · exact ⟨.replaced key, by simp, by simp [Happening.asks]⟩
  · exact ⟨.opened key, by simp, by simp [Happening.asks]⟩

/-- Once an answer is taken, what waits under a key is the invocation that has been answered, or
waited there before and has been left alone. -/
theorem Concluded.waits_or {x : Response × Engine κ} (hx : Concluded e c x)
    (distinct : (e.conversations.map Prod.fst).Nodup)
    (within : e.conversations.length ≤ e.limit) (hv : x.2.conversations.find? key = some v) :
    let hs := e.answering c.invocation.invoker.conversationKey (dispatchOf x.1)
    (c.invocation.invoker.conversationKey = key ∧ v.invocation = c.invocation ∧
      c.invocation.response? = some x.1 ∧ x.1.isContinued = true ∧ ComesToWait key hs) ∨
    (e.conversations.find? key = some v ∧ Undisturbed key hs) := by
  cases hx with
  | final answer asks =>
    simp only [dispatchOf, asks]
    exact .inr ⟨hv, undisturbed_nil⟩
  | @opened r k pool answer asks callback =>
    simp only [dispatchOf, asks, if_true, answering]
    by_cases hown : c.invocation.invoker.conversationKey = key
    · subst hown
      simp only [Table.find?_insert, beq_self_eq_true, if_true, Option.some.injEq] at hv
      exact .inl ⟨rfl, hv ▸ rfl, answer, trivial, comesToWait_opening _ _⟩
    · -- under another key, only the one that makes room can be gone, and then nothing waits there
      right
      generalize c.invocation.invoker.conversationKey = own at hv hown ⊢
      have hroom := e.room within own
      rw [Table.find?_insert, if_neg (by simpa using Ne.symm hown)] at hv
      unfold opening
      generalize e.gone own = gone at hroom ⊢
      generalize e.roomFor own = kept at hroom hv
      cases hroom with
      | replaced waiting =>
        rw [if_pos (hasConversation_of_find? waiting)]
        exact ⟨hv, by simp [Undisturbed, Happening.key, hown]⟩
      | vacant free space =>
        rw [if_neg (not_hasConversation_of_find? free)]
        exact ⟨hv, by simp [Undisturbed, Happening.key, hown]⟩
      | @crowded first old _ free table full =>
        have hne : key ≠ first := by
          rintro rfl
          rw [table, List.map_cons, List.nodup_cons] at distinct
          exact distinct.1 (List.mem_map.mpr ⟨_, Table.mem_of_find? hv, rfl⟩)
        rw [if_neg (not_hasConversation_of_find? free)]
        refine ⟨?_, by simp [Undisturbed, Happening.key, hown, Ne.symm hne]⟩
        rw [table, Table.find?]
        simp [hne, hv]

theorem settled_waits_or (h : Bounded e) (changes : List (Catalogue.Change κ))
    (f : Finished κ (Command κ)) (hc : c.Coherent) (responded : c.invocation.hasResponded = true)
    (hv : (e.settled changes f c).2.conversations.find? key = some v) :
    let hs := e.answering c.invocation.invoker.conversationKey
      (dispatchOf (e.settled changes f c).1.response)
    (c.invocation.invoker.conversationKey = key ∧ v.invocation = c.invocation ∧
      (∃ r, c.invocation.response? = some r ∧ r.isContinued = true) ∧ ComesToWait key hs) ∨
    (e.conversations.find? key = some v ∧ Undisturbed key hs) := by
  obtain ⟨commands, runners, -, hs⟩ := settled_spec h.rested changes f c
  have hconcluded := conclude_concluded { e with commands, runners } hc responded
  simp only [hs] at hv ⊢
  rcases hconcluded.waits_or h.tended.distinct h.within hv with
    ⟨hown, hinvocation, hr, hasks, hcomes⟩ | hkept
  · exact .inl ⟨hown, hinvocation, ⟨_, hr, hasks⟩, hcomes⟩
  · exact .inr hkept

/-- What waits under a key after a tick belongs to a run that it has completed, or has been left
alone. -/
theorem settleAll_waits_or {meanwhile : RunId → List (Catalogue.Change κ)}
    {fs : List (Finished κ (Command κ))} (h : Bounded e)
    (hf : ∀ f ∈ fs, ∀ c, f.context = some c → c.Coherent ∧ c.invocation.hasResponded = true)
    (hv : (e.settleAll meanwhile fs).value.2.conversations.find? key = some v) :
    (∃ f ∈ fs, ∃ c, f.context = some c ∧ c.invocation.invoker.conversationKey = key ∧
      v.invocation = c.invocation ∧
      (∃ r, c.invocation.response? = some r ∧ r.isContinued = true) ∧
      ComesToWait key (e.settling meanwhile fs)) ∨
    (e.conversations.find? key = some v ∧ Undisturbed key (e.settling meanwhile fs)) := by
  induction fs generalizing e with
  | nil => exact .inr ⟨hv, undisturbed_nil⟩
  | cons f rest ih =>
    have hrest := fun g hg => hf g (List.mem_cons_of_mem f hg)
    cases hcontext : f.context with
    | none =>
      rw [settleAll_cons_of_none hcontext] at hv
      simp only [settling, hcontext]
      rcases ih h hrest hv with ⟨g, hg, hcompleted⟩ | hkept
      · exact .inl ⟨g, List.mem_cons_of_mem f hg, hcompleted⟩
      · exact .inr hkept
    | some c =>
      obtain ⟨hc, responded⟩ := hf f List.mem_cons_self c hcontext
      rw [value_settleAll_cons hcontext] at hv
      simp only [settling, hcontext]
      rcases ih (settled_bounded h (meanwhile f.id) f hc responded).1 hrest hv with
        ⟨g, hg, d, hd, hown, hinvocation, hasks, hcomes⟩ | ⟨hv, hquiet⟩
      · exact .inl ⟨g, List.mem_cons_of_mem f hg, d, hd, hown, hinvocation, hasks,
          hcomes.append_right⟩
      · rcases settled_waits_or h (meanwhile f.id) f hc responded hv with
          ⟨hown, hinvocation, hasks, hcomes⟩ | ⟨hwaiting, hquiet'⟩
        · exact .inl ⟨f, List.mem_cons_self, c, hcontext, hown, hinvocation, hasks,
            hcomes.append_left⟩
        · exact .inr ⟨hwaiting, undisturbed_append.mpr ⟨hquiet', hquiet⟩⟩

/-- Why a conversation waits under a key after a use. -/
inductive Waits (e : Engine κ) (u : Use κ) (key : String) (v : Conversation κ) : Prop where
  /-- It has waited before, and has been left alone. -/
  | kept (waiting : e.conversations.find? key = some v) (quiet : Undisturbed key (e.happened u))
  /-- The callback of the conversation has taken a reply, and asked for another. -/
  | replied {line : String} {invoker : Invoker} {meanwhile : List (Catalogue.Change κ)}
      {words : List Word} {old : Conversation κ} {d : Context κ} {r : Response}
      (operation : u.operation = .execute line invoker meanwhile)
      (own : invoker.conversationKey = key) (waiting : e.conversations.find? key = some old)
      (read : Line.words line = .ok words) (handled : (old.next line words).Handled d)
      (invocation : v.invocation = d.invocation) (response : d.invocation.response? = some r)
      (asks : r.isContinued = true) (answer : (e.use u).answer = .dispatch (.continued r))
      (happened : e.happened u = [.left key, .opened key])
  /-- A line has begun a run that is over and asks for a reply. -/
  | answered {line : String} {invoker : Invoker} {meanwhile : List (Catalogue.Change κ)}
      {command : Command κ} {c d : Context κ} {r : Response}
      (operation : u.operation = .execute line invoker meanwhile)
      (own : invoker.conversationKey = key) (begun : e.begun? line invoker = some (command, c))
      (handled : c.Handled d) (invocation : v.invocation = d.invocation)
      (response : d.invocation.response? = some r) (asks : r.isContinued = true)
      (answer : (e.use u).answer = .dispatch (.continued r))
      (comes : ComesToWait key (e.happened u))
  /-- A tick has completed a run that asks for a reply. -/
  | completed {meanwhile : RunId → List (Catalogue.Change κ)} {s : Suspended κ (Command κ)}
      {c d : Context κ} {r : Response} (operation : u.operation = .tick meanwhile) (suspended : s ∈ e.schedule.pending)
      (holds : s.runner.context? = some c) (handled : c.Handled d)
      (own : d.invocation.invoker.conversationKey = key) (invocation : v.invocation = d.invocation)
      (response : d.invocation.response? = some r) (asks : r.isContinued = true)
      (completed : completionOf s.id d ∈ (e.use u).completions)
      (comes : ComesToWait key (e.happened u))

theorem concluded_waits_or (hc : d.Coherent) (responded : d.invocation.hasResponded = true)
    (distinct : (e.conversations.map Prod.fst).Nodup)
    (within : e.conversations.length ≤ e.limit)
    (hv : (e.concluded d).2.conversations.find? key = some v) :
    let hs := e.answering d.invocation.invoker.conversationKey (e.concluded d).1
    (d.invocation.invoker.conversationKey = key ∧ v.invocation = d.invocation ∧
      ComesToWait key hs ∧ ∃ r, d.invocation.response? = some r ∧ r.isContinued = true ∧
        (e.concluded d).1 = .continued r) ∨
    (e.conversations.find? key = some v ∧ Undisturbed key hs) := by
  rcases (e.conclude_concluded hc responded).waits_or distinct within hv with
    ⟨hown, hinvocation, hr, hasks, hcomes⟩ | hkept
  · refine .inl ⟨hown, hinvocation, hcomes, _, hr, hasks, ?_⟩
    simp only [concluded, dispatchOf, hasks, if_true]
  · exact .inr hkept

/-- A reply that asks for another line has its conversation leave the table and come back. -/
theorem answering_erase (h : Bounded e) {old : Conversation κ} {r : Response}
    (waiting : e.conversations.find? key = some old) :
    answering { e with conversations := e.conversations.erase key } key (.continued r) =
      [.opened key] := by
  have hfree : (e.conversations.erase key).find? key = none := by
    simp [Table.find?_erase h.tended.distinct]
  have hlength := Table.length_erase_of_find? waiting
  have hwithin := h.within
  have hroom : surplus { e with conversations := e.conversations.erase key } = 0 := by
    simp only [surplus, limit] at hwithin ⊢
    omega
  have hclosed := not_hasConversation_of_find?
    (e := { e with conversations := e.conversations.erase key }) hfree
  simp only [answering, opening, gone, hroom, List.take_zero, List.map_nil]
  rw [if_neg hclosed, if_neg hclosed]
  rfl

/-- A line that no conversation takes. -/
theorem waits_of_first_line (h : Bounded e) {line : String} {invoker : Invoker}
    {meanwhile : List (Catalogue.Change κ)} {code : Code κ}
    (free : e.conversations.find? invoker.conversationKey = none)
    (hv : (e.use ⟨.execute line invoker meanwhile, code⟩).after.conversations.find? key = some v) :
    Waits e ⟨.execute line invoker meanwhile, code⟩ key v := by
  let := code
  have hclosed := not_hasConversation_of_find? free
  have hafter : (e.use ⟨.execute line invoker meanwhile, code⟩).after =
      (e.execute line invoker meanwhile).value.2 := rfl
  have hanswer : (e.use ⟨.execute line invoker meanwhile, code⟩).answer =
      .dispatch (e.execute line invoker meanwhile).value.1 := rfl
  have hhappened : e.happened ⟨.execute line invoker meanwhile, code⟩ =
      e.answering invoker.conversationKey (e.execute line invoker meanwhile).value.1 := by
    simp only [happened, happenings, entering, if_neg hclosed]
  rw [hafter] at hv
  cases hbegun : e.begun? line invoker with
  | none =>
    obtain ⟨response, pool, hvalue, -⟩ := value_execute_of_not_begun free hbegun meanwhile
    rw [hvalue] at hv hhappened
    exact .kept hv (hhappened ▸ undisturbed_nil)
  | some x =>
    obtain ⟨command, c⟩ := x
    obtain ⟨pool, hx⟩ := started_of_begun h.rested hbegun meanwhile
    obtain ⟨-, q, b, -, -, hc⟩ := begun?_spec hbegun
    generalize (e.execute line invoker meanwhile).value = x at hv hanswer hhappened hx
    cases hx with
    | suspended handled holds rested => exact .kept hv (hhappened ▸ undisturbed_nil)
    | @answered d runners commands handled responded rested =>
      have hown : d.invocation.invoker.conversationKey = invoker.conversationKey := by
        rw [handled.conversationKey, hc]
        rfl
      have hcoherent := handled.coherent (hc ▸ Context.coherent_ofInvocation rfl)
      rw [← hown] at hhappened
      rcases concluded_waits_or
          (e := { e with pool, runners, commands, lastRun := e.lastRun + 1 }) hcoherent responded
          h.tended.distinct h.within hv with
        ⟨hkey, hinvocation, hcomes, r, hr, hasks, hdispatch⟩ | ⟨hwaiting, hquiet⟩
      · rw [hdispatch] at hanswer
        exact .answered rfl (hown ▸ hkey) hbegun handled hinvocation hr hasks hanswer
          (hhappened ▸ hcomes)
      · exact .kept hwaiting (hhappened ▸ hquiet)

theorem conversations_erase_find? (h : Bounded e) {own : String}
    (hv : (e.conversations.erase own).find? key = some v) :
    own ≠ key ∧ e.conversations.find? key = some v := by
  rw [Table.find?_erase h.tended.distinct] at hv
  split at hv
  · cases hv
  · rename_i hne
    exact ⟨fun hkey => hne (beq_iff_eq.mpr hkey.symm), hv⟩

/-- A line for an open conversation. -/
theorem waits_of_reply (h : Bounded e) {line : String} {invoker : Invoker}
    {meanwhile : List (Catalogue.Change κ)} {code : Code κ}
    {old : Conversation κ}
    (waiting : e.conversations.find? invoker.conversationKey = some old)
    (hv : (e.use ⟨.execute line invoker meanwhile, code⟩).after.conversations.find? key = some v) :
    Waits e ⟨.execute line invoker meanwhile, code⟩ key v := by
  let := code
  let erased : Engine κ :=
    { e with conversations := e.conversations.erase invoker.conversationKey }
  have hopen := hasConversation_of_find? waiting
  have hafter : (e.use ⟨.execute line invoker meanwhile, code⟩).after =
      (e.execute line invoker meanwhile).value.2 := rfl
  have hanswer : (e.use ⟨.execute line invoker meanwhile, code⟩).answer =
      .dispatch (e.execute line invoker meanwhile).value.1 := rfl
  rw [hafter] at hv
  cases hwords : Line.words line with
  | error trouble =>
    have hhappened : e.happened ⟨.execute line invoker meanwhile, code⟩ =
        [.misread invoker.conversationKey] := by
      simp only [happened, happenings, entering, if_pos hopen, hwords]
    have hquiet : Undisturbed key (e.happened ⟨.execute line invoker meanwhile, code⟩) := by
      simp [hhappened, Undisturbed, Happening.key]
    simp only [execute, waiting, continueConversation, hwords, Reported.value_pure,
      Table.find?_insert] at hv
    split at hv
    · rename_i hkey
      rw [beq_iff_eq.mp hkey] at hquiet ⊢
      injection hv with hv
      exact .kept (hv ▸ waiting) hquiet
    · exact .kept (conversations_erase_find? h hv).2 hquiet
  | ok words =>
    let d := ((old.next line words).carryOut e.help (Code.body old.callback)).value.1.ensureResponse
    have handled : (old.next line words).Handled d :=
      ((old.next line words).carryOut_handled e.help (Code.body old.callback)).trans
        (Context.ensureResponse_handled _)
    have hvalue : (e.execute line invoker meanwhile).value = erased.concluded d := by
      simp only [execute, waiting]
      exact value_continueConversation hwords erased invoker.conversationKey
    have hown : d.invocation.invoker.conversationKey = invoker.conversationKey :=
      handled.conversationKey.trans (h.tended.of_find? waiting).own
    have hhappened : e.happened ⟨.execute line invoker meanwhile, code⟩ =
        .left invoker.conversationKey ::
          erased.answering invoker.conversationKey (erased.concluded d).1 := by
      simp only [happened, happenings, entering, if_pos hopen, hwords, hvalue]
      rfl
    rw [hvalue] at hv hanswer
    have herased := h.erase invoker.conversationKey
    rcases concluded_waits_or (e := erased) (handled.coherent (Context.coherent_ofInvocation rfl))
        (Context.ensureResponse_hasResponded _) herased.tended.distinct herased.within hv with
      ⟨hkey, hinvocation, -, r, hr, hasks, hdispatch⟩ | ⟨hwaiting, hquiet⟩
    · rw [hdispatch] at hanswer
      rw [hdispatch, answering_erase h waiting] at hhappened
      obtain rfl := hkey
      rw [hown]
      exact .replied rfl rfl waiting hwords handled hinvocation hr hasks hanswer hhappened
    · obtain ⟨hne, hkept⟩ := conversations_erase_find? h hwaiting
      rw [hown] at hquiet
      have hleft : Undisturbed key [.left invoker.conversationKey] := by
        simp [Undisturbed, Happening.key, hne]
      exact .kept hkept (hhappened ▸ undisturbed_append.mpr ⟨hleft, hquiet⟩)

theorem waits_of_tick (h : Bounded e) {meanwhile : RunId → List (Catalogue.Change κ)}
    {code : Code κ} (hv : (e.use ⟨.tick meanwhile, code⟩).after.conversations.find? key = some v) :
    Waits e ⟨.tick meanwhile, code⟩ key v := by
  let := code
  have hafter : (e.use ⟨.tick meanwhile, code⟩).after = (e.tick meanwhile).value.2 := rfl
  rw [hafter, value_tick] at hv
  rcases settleAll_waits_or h.polled (handed_coherent h.toAttentive) hv with
    ⟨f, hf, d, hd, hown, hinvocation, ⟨r, hr, hasks⟩, hcomes⟩ | ⟨hwaiting, hquiet⟩
  · obtain ⟨s, hs, c, d', hid, -, holds, hd', -, handled, -⟩ := Schedule.handed_of_ends? h.holds hf
    rw [hd] at hd'
    injection hd' with hd'
    subst hd'
    have hcompleted : completionOf f.id d ∈ (e.use ⟨.tick meanwhile, code⟩).completions := by
      have hmem := completion_mem_settleAll hf hd e.polled meanwhile
      rw [← value_tick] at hmem
      exact hmem
    rw [hid] at hcompleted
    exact .completed rfl hs holds handled hown hinvocation hr hasks hcompleted hcomes
  · exact .kept hwaiting hquiet

/-- What waits under a key after a use has come there in one of these ways. -/
theorem waits_of_use (h : Bounded e) (u : Use κ)
    (hv : (e.use u).after.conversations.find? key = some v) : Waits e u key v := by
  obtain ⟨operation, code⟩ := u
  cases operation with
  | execute line invoker meanwhile =>
    cases hwaiting : e.conversations.find? invoker.conversationKey with
    | none => exact waits_of_first_line h hwaiting hv
    | some old => exact waits_of_reply h hwaiting hv
  | tick meanwhile => exact waits_of_tick h hv
  | endConversation own =>
    obtain ⟨pool, hr⟩ := e.endConversation_frame own
    simp only [use, perform, Reported.value_bind, Reported.value_pure, hr] at hv
    obtain ⟨hne, hkept⟩ := conversations_erase_find? h hv
    refine .kept hkept ?_
    simp only [happened, happenings]
    split <;> simp [Undisturbed, Happening.key, hne]
  | register d =>
    obtain ⟨commands, runners, hr, -⟩ := e.register_frame d
    simp only [use, perform, Reported.value_bind, Reported.value_pure, hr] at hv
    exact .kept hv undisturbed_nil
  | registerCommand d =>
    obtain ⟨commands, hr⟩ := e.registerCommand_frame d
    simp only [use, perform, Reported.value_bind, Reported.value_pure, hr] at hv
    exact .kept hv undisturbed_nil
  | unregisterCommand name => exact .kept hv undisturbed_nil
  | disturb changes => exact .kept hv undisturbed_nil
  | registerParser own p => exact .kept hv undisturbed_nil
  | elapse t => exact .kept hv undisturbed_nil
  | work opened => exact .kept hv undisturbed_nil
  | workerEnds id result => exact .kept hv undisturbed_nil

end Engine
end CommandConsole
