import CommandConsole.Proofs.Bindings.Holdings
import CommandConsole.Proofs.Engine.Conversation
import CommandConsole.Proofs.Engine.Pools

/-! The storage that is out of an engine's pool: a piece for each run in flight, and one for each
open conversation. -/
namespace CommandConsole

variable {κ : Type}

/-- Every run that is polled either goes on or is found finished. -/
theorem Schedule.length_stays?_add_ends? {τ : Type} [Code κ] (help : String)
    (ps : List (Suspended κ τ)) :
    (ps.filterMap (stays? help)).length + (ps.filterMap (ends? help)).length = ps.length := by
  induction ps with
  | nil => rfl
  | cons p rest ih =>
    cases hf : (p.runner.poll help).value.1.isFinished with
    | false =>
      have hs : stays? help p = some { p with runner := (p.runner.poll help).value.1 } := by
        simp [stays?, hf]
      have he : ends? help p = none := by simp [ends?, hf]
      rw [List.filterMap_cons_some hs, List.filterMap_cons_none he, List.length_cons,
        List.length_cons]
      omega
    | true =>
      have hs : stays? help p = none := by simp [stays?, hf]
      have he : ends? help p = some ⟨p.id, p.origin, (p.runner.poll help).value.1,
          (p.runner.poll help).value.2.map (·.context)⟩ := by simp [ends?, hf]
      rw [List.filterMap_cons_none hs, List.filterMap_cons_some he, List.length_cons,
        List.length_cons]
      omega

namespace Engine

variable {e : Engine κ} {n : Nat}

/-- The turns of an invocation hold its storage together. An engine that ends a conversation, or takes
a final answer, gives the storage back at once, which comes to what their letting go one after another
comes to, whatever the order. -/
theorem pool_of_last_turn {h : Holdings} {x : Holding} {turns : List String}
    (shared : h.HeldBy x turns) (own : h.pool = e.pool) :
    (∀ key v, e.conversations.find? key = some v → v.invocation.arguments = x.bindings →
      (e.endConversation key).value.2.pool = (turns.foldl Holdings.release h).pool) ∧
    ∀ c r, c.invocation.response? = some r → r.isContinued = false →
      c.invocation.arguments = x.bindings →
      (e.conclude c).value.2.pool = (turns.foldl Holdings.release h).pool := by
  rw [shared.pool_releaseAll, own]
  refine ⟨?_, ?_⟩
  · intro key v hv hbindings
    simp only [endConversation, hv, Reported.value_bind, Reported.value_pure, hbindings]
  · intro c r hr hfinal hbindings
    rw [conclude_of_final hr hfinal, hbindings]

/-- The storage of an engine is out for its runs in flight, for its open conversations, and for `n`
invocations in the hands of the engine itself. -/
def Lends (e : Engine κ) (n : Nat) : Prop :=
  e.pool.Lending e.config.argumentPoolCapacity (e.inFlight + e.conversationCount + n)

theorem Lends.reschedule (h : e.Lends n) {s : Schedule κ (Command κ)}
    (hs : s.size = e.schedule.size) : ({ e with schedule := s } : Engine κ).Lends n := by
  simp only [Lends, inFlight, hs]
  exact h

/-- An invocation that becomes a conversation keeps its storage. What it replaces, or what has to
make room for it, gives storage back. -/
theorem openConversation_lends (h : e.Lends (n + 1)) (key : String) (c : Conversation κ) :
    (e.openConversation key c).value.Lends n := by
  unfold openConversation
  cases hf : e.conversations.find? key with
  | some old =>
    have hlen := Table.length_insert_of_find? hf c
    simp only [Reported.value_bind, Reported.value_pure, Lends, conversationCount, hlen]
    exact Pool.Lending.giveBack (n := e.inFlight + e.conversationCount + n) h _
  | none =>
    simp only [Reported.value_bind, Reported.value_pure, makeRoom, abandonOldest_eq]
    apply Pool.Lending.foldl_giveBack
    generalize e.conversations.length + 1 - max 1 e.config.maxConversations = k
    have hnew : key ∉ (e.conversations.drop k).map Prod.fst := by
      rw [Table.find?_eq_none_iff] at hf
      rw [List.map_drop]
      exact fun hin => hf (List.mem_of_mem_drop hin)
    have hlen : (Table.insert (e.conversations.drop k) key c).length + (e.conversations.take k).length
        = e.conversationCount + 1 := by
      rw [Table.insert_of_notMem hnew, List.length_append, List.length_singleton, Nat.add_right_comm,
        Nat.add_comm (List.length _), ← List.length_append, List.take_append_drop]
      rfl
    have hcount : e.inFlight + (Table.insert (e.conversations.drop k) key c).length + n +
        (e.conversations.take k).length = e.inFlight + e.conversationCount + (n + 1) := by
      omega
    simp only [inFlight, conversationCount] at hcount ⊢
    rw [hcount]
    exact h

/-- An invocation that is settled becomes a conversation or gives its storage back. -/
theorem conclude_lends (h : e.Lends (n + 1)) (c : Context κ) :
    (e.conclude c).value.2.Lends n := by
  simp only [conclude]
  split
  · exact openConversation_lends h _ _
  · exact Pool.Lending.giveBack (n := e.inFlight + e.conversationCount + n) h
      c.invocation.arguments

theorem settled_lends (hr : Rested e.runners) (h : e.Lends (n + 1))
    (changes : List (Catalogue.Change κ)) (f : Finished κ (Command κ)) (c : Context κ) :
    (e.settled changes f c).2.Lends n := by
  obtain ⟨commands, runners, -, hs⟩ := settled_spec hr changes f c
  rw [hs]
  exact conclude_lends (e := { e with commands, runners }) h c

theorem settleAll_lends {meanwhile : RunId → List (Catalogue.Change κ)}
    {fs : List (Finished κ (Command κ))} (hr : Rested e.runners)
    (h : e.Lends (n + fs.length)) (hf : ∀ f ∈ fs, ∃ c, f.context = some c) :
    (e.settleAll meanwhile fs).value.2.Lends n := by
  induction fs generalizing e with
  | nil => exact h
  | cons f rest ih =>
    obtain ⟨c, hc⟩ := hf f List.mem_cons_self
    obtain ⟨commands, runners, conversations, pool, hs, hrested⟩ :=
      settled_frame hr (meanwhile f.id) f c
    have hnext := settled_lends (n := n + rest.length) hr h (meanwhile f.id) f c
    rw [value_settleAll_cons hc]
    apply ih
    · rw [hs]
      exact hrested
    · exact hnext
    · exact fun g hg => hf g (List.mem_cons_of_mem _ hg)

/-- A line holds on to storage for the run that it begins, while that is in flight or once it has
become a conversation. -/
theorem Executed.lends {line : String} {invoker : Invoker} {x : Dispatch × Engine κ}
    (hx : Executed e line invoker x) (ha : Attentive e) (h : e.Lends 0) : x.2.Lends 0 := by
  cases hx with
  | refused pool free failed returned => exact returned h
  | @misread c trouble waiting malformed =>
    have herase := Table.length_erase_of_find? waiting
    have hlen : ((e.conversations.erase invoker.conversationKey).insert
        invoker.conversationKey c).length = e.conversations.length := by
      rw [Table.insert_erase ha.tended.distinct, List.length_append, List.length_singleton, herase]
    simp only [Lends, conversationCount, hlen]
    exact h
  | replied waiting read handled responded =>
    have herase := Table.length_erase_of_find? waiting
    apply conclude_lends
    simp only [Lends, inFlight, conversationCount] at h ⊢
    rw [← herase] at h
    exact h
  | answered free addressed handled responded rented rested =>
    apply conclude_lends
    exact rented h
  | suspended free addressed handled holds rented rested =>
    have hlent := rented h
    simp only [Lends, inFlight, conversationCount, Schedule.size, Schedule.submit,
      List.length_append, List.length_singleton] at hlent ⊢
    rw [Nat.add_right_comm _ 1]
    exact hlent

theorem tick_lends [Code κ] (ha : Attentive e) (h : e.Lends 0)
    (meanwhile : RunId → List (Catalogue.Change κ)) : (e.tick meanwhile).value.2.Lends 0 := by
  rw [value_tick]
  apply settleAll_lends (e := e.polled) ha.rested
  · have hcount := Schedule.length_stays?_add_ends? e.help e.schedule.pending
    simp only [Lends, inFlight, conversationCount, Schedule.size, polled, ended] at h ⊢
    rw [← hcount, Nat.add_zero] at h
    rw [Nat.zero_add, Nat.add_right_comm]
    exact h
  · intro f hf
    obtain ⟨p, -, c, d, -, -, -, hd, -⟩ := Schedule.handed_of_ends? ha.holds hf
    exact ⟨d, hd⟩

theorem perform_lends [Code κ] (ha : Attentive e) (h : e.Lends 0) (o : Operation κ) :
    (e.perform o).value.2.Lends 0 := by
  cases o with
  | execute line invoker meanwhile =>
    exact (execute_executed ha.rested line invoker meanwhile).lends ha h
  | tick meanwhile => exact tick_lends ha h meanwhile
  | register d =>
    obtain ⟨commands, runners, hr, -⟩ := e.register_frame d
    simp only [perform, Reported.value_bind, Reported.value_pure, hr]
    exact h
  | registerCommand d =>
    obtain ⟨commands, hr⟩ := e.registerCommand_frame d
    simp only [perform, Reported.value_bind, Reported.value_pure, hr]
    exact h
  | unregisterCommand name => exact h
  | disturb changes => exact h
  | registerParser key p => exact h
  | endConversation key =>
    cases hf : e.conversations.find? key with
    | none => simpa only [perform, Reported.value_bind, Reported.value_pure, endConversation, hf]
    | some old =>
      have herase := Table.length_erase_of_find? hf
      simp only [perform, Reported.value_bind, Reported.value_pure, endConversation, hf]
      simp only [Lends, inFlight, conversationCount] at h ⊢
      rw [← herase] at h
      exact Pool.Lending.giveBack h _
  | elapse d => exact h.reschedule (List.length_map _)
  | work opened => exact h.reschedule (List.length_map _)
  | workerEnds id result => exact h.reschedule (List.length_map _)

theorem lends_after (config : Config) (us : List (Use κ)) : Lends ((ofConfig config).after us) 0 := by
  refine (after_keeps (P := fun x => Attentive x ∧ x.Lends 0) ?_ ?_ us).2
  · rintro x _ o ⟨ha, hl⟩
    exact ⟨attentive_perform ha o, perform_lends ha hl o⟩
  · exact ⟨attentive_after config [], .fresh config.argumentPoolCapacity⟩

/-- Over any life of an engine one piece of storage is out for each run in flight and one for each
open conversation, whatever has become of all other lines, runs and conversations. The pool keeps no
more than it has room for. -/
theorem storage_out_for_live_invocations (config : Config) (us : List (Use κ)) :
    let e := (ofConfig config).after us
    e.pool.outstanding = e.inFlight + e.conversationCount ∧
      e.pool.available ≤ config.argumentPoolCapacity := by
  intro e
  have h : e.Lends 0 := lends_after config us
  have hconfig : e.config = config := config_after config us
  refine ⟨h.out, ?_⟩
  rw [← hconfig]
  exact h.kept

end Engine
end CommandConsole
