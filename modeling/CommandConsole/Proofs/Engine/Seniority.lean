import CommandConsole.Proofs.Engine.Happenings
import CommandConsole.Proofs.Engine.Isolation
import CommandConsole.Proofs.Reports

/-! Which conversation makes room for another: the one that has kept its place the longest. It need
not be the one that has waited the longest, since a conversation that replaces another inherits its
place, and a refused reply costs a conversation its own. -/
namespace CommandConsole.Engine

open Happening (openKeys sincePlaced sinceAsked Lawful)

variable {κ : Type} {e e' : Engine κ} {c : Context κ} {key : String} {line : String}
  {invoker : Invoker} {past : List Happening}

/-- What happens when a conversation of a key is opened. -/
def opening (e : Engine κ) (key : String) : List Happening :=
  if e.hasConversation key = true then [.replaced key]
  else (e.gone key).map .abandoned ++ [.opened key]

/-- What happens when an answer is taken. -/
def answering (e : Engine κ) (key : String) : Dispatch → List Happening
  | .continued _ => e.opening key
  | _ => []

/-- What happens when a line is taken, which meets the given fate. -/
def entering (e : Engine κ) (line : String) (invoker : Invoker) (d : Dispatch) : List Happening :=
  let key := invoker.conversationKey
  if e.hasConversation key = true then
    match Line.words line with
    | .error _ => [.misread key]
    | .ok _ => .left key :: answering { e with conversations := e.conversations.erase key } key d
  else e.answering key d

/-- What happens when finished runs are settled. -/
def settling (e : Engine κ) (meanwhile : RunId → List (Catalogue.Change κ)) :
    List (Finished κ (Command κ)) → List Happening
  | [] => []
  | f :: rest =>
    match f.context with
    | none => e.settling meanwhile rest
    | some c =>
      let x := e.settled (meanwhile f.id) f c
      e.answering c.invocation.invoker.conversationKey (dispatchOf x.1.response) ++
        x.2.settling meanwhile rest

/-- What happens to conversations in the course of an operation, in order. -/
def happenings [Code κ] (e : Engine κ) : Operation κ → List Happening
  | .execute line invoker meanwhile =>
    e.entering line invoker (e.execute line invoker meanwhile).value.1
  | .tick meanwhile => e.polled.settling meanwhile e.ended
  | .endConversation key => if e.hasConversation key = true then [.left key] else []
  | _ => []

/-- What happens to conversations in the course of some uses, the latest first. -/
def history (e : Engine κ) : List (Use κ) → List Happening
  | [] => []
  | u :: us =>
    letI := u.code
    (e.use u).after.history us ++ (e.happenings u.operation).reverse

/-- What is reported in the course of some uses. -/
def notes (e : Engine κ) : List (Use κ) → List Note
  | [] => []
  | u :: us =>
    letI := u.code
    (e.perform u.operation).notes ++ (e.use u).after.notes us

/-- A history that accounts for the open conversations, in their order. -/
structure Tells (e : Engine κ) (past : List Happening) : Prop where
  lawful : Lawful past
  keys : openKeys past = e.conversations.map Prod.fst

theorem Tells.of_eq (h : Tells e past) (he : e'.conversations = e.conversations) : Tells e' past :=
  ⟨h.lawful, he ▸ h.keys⟩

theorem Tells.mem_openKeys (h : Tells e past) {v : Conversation κ}
    (hf : e.conversations.find? key = some v) : key ∈ openKeys past := by
  rw [h.keys]
  exact List.mem_map.mpr ⟨_, Table.mem_of_find? hf, rfl⟩

theorem Tells.notMem_openKeys (h : Tells e past) (hf : e.conversations.find? key = none) :
    key ∉ openKeys past := by
  rw [h.keys]
  exact (Table.find?_eq_none_iff _ _).mp hf

theorem Tells.left (h : Tells e past) {v : Conversation κ}
    (hf : e.conversations.find? key = some v)
    (he : e'.conversations = e.conversations.erase key) : Tells e' (.left key :: past) := by
  refine ⟨h.lawful.left (h.mem_openKeys hf), ?_⟩
  rw [he, Table.keys_erase, ← h.keys]
  rfl

theorem Tells.misread (h : Tells e past) {v : Conversation κ}
    (hf : e.conversations.find? key = some v)
    (he : e'.conversations = e.conversations.erase key ++ [(key, v)]) :
    Tells e' (.misread key :: past) := by
  refine ⟨h.lawful.misread (h.mem_openKeys hf), ?_⟩
  rw [he, List.map_append, Table.keys_erase, ← h.keys]
  rfl

/-- A conversation that is opened takes the place of the one under its key, or the last one. -/
theorem Tells.opening (h : Tells e past) (within : e.conversations.length ≤ e.limit)
    {new : Conversation κ} (he : e'.conversations = (e.roomFor key).insert key new) :
    Tells e' ((e.opening key).reverse ++ past) := by
  have hroom := e.room within key
  unfold Engine.opening
  generalize e.gone key = gone at hroom ⊢
  generalize e.roomFor key = kept at hroom he
  cases hroom with
  | replaced waiting =>
    have hmem := h.mem_openKeys waiting
    rw [if_pos (hasConversation_of_find? waiting)]
    refine ⟨h.lawful.replaced hmem, ?_⟩
    rw [h.keys] at hmem
    rw [he, Table.keys_insert, if_pos hmem]
    exact h.keys
  | vacant free space =>
    have hnew := h.notMem_openKeys free
    rw [if_neg (not_hasConversation_of_find? free)]
    refine ⟨h.lawful.opened hnew, ?_⟩
    rw [he, Table.keys_insert, ← h.keys, if_neg hnew]
    exact congrArg (· ++ [key]) (List.erase_of_not_mem hnew)
  | @crowded first old _ free table full =>
    have hnew := h.notMem_openKeys free
    have hkeys : openKeys past = first :: kept.map Prod.fst := by rw [h.keys, table, List.map_cons]
    have hrest : openKeys (.abandoned first :: past) = kept.map Prod.fst := by
      simp [openKeys, hkeys]
    rw [hkeys, List.mem_cons, not_or] at hnew
    rw [if_neg (not_hasConversation_of_find? free)]
    refine ⟨(h.lawful.abandoned (by rw [hkeys]; rfl)).opened (hrest ▸ hnew.2), ?_⟩
    rw [he, Table.keys_insert, if_neg hnew.2]
    change (openKeys (.abandoned first :: past)).erase key ++ [key] = _
    rw [hrest, List.erase_of_not_mem hnew.2]

theorem Concluded.tells {x : Response × Engine κ} (hx : Concluded e c x) (h : Tells e past)
    (within : e.conversations.length ≤ e.limit) :
    Tells x.2 ((e.answering c.invocation.invoker.conversationKey (dispatchOf x.1)).reverse ++
      past) := by
  cases hx with
  | opened answer asks callback =>
    simp only [dispatchOf, asks, if_true, answering]
    exact h.opening within rfl
  | final answer asks =>
    simp only [dispatchOf, asks, answering]
    exact h.of_eq rfl

theorem Executed.tells {x : Dispatch × Engine κ} (hx : Executed e line invoker x) (hb : Bounded e)
    (h : Tells e past) : Tells x.2 ((e.entering line invoker x.1).reverse ++ past) := by
  simp only [entering]
  cases hx with
  | refused pool free failed returned =>
    rw [if_neg (not_hasConversation_of_find? free)]
    exact h.of_eq rfl
  | @misread conversation trouble waiting malformed =>
    rw [if_pos (hasConversation_of_find? waiting), malformed]
    exact h.misread waiting (Table.insert_erase hb.tended.distinct _ _)
  | @replied conversation words context waiting read handled responded =>
    have hc := handled.coherent (Context.coherent_ofInvocation rfl)
    have hown := handled.conversationKey.trans (hb.tended.of_find? waiting).own
    rw [if_pos (hasConversation_of_find? waiting), read]
    have hleft : Tells { e with conversations := e.conversations.erase invoker.conversationKey }
        (.left invoker.conversationKey :: past) := h.left waiting rfl
    have hx := (conclude_concluded _ hc responded).tells hleft
      (hb.erase invoker.conversationKey).within
    rw [hown] at hx
    rw [List.reverse_cons, List.append_assoc]
    exact hx
  | @answered command words bindings context pool runners commands free addressed handled responded
      rented rested =>
    have hc := handled.coherent (Context.coherent_ofInvocation rfl)
    rw [if_neg (not_hasConversation_of_find? free)]
    have hx := (conclude_concluded { e with pool, runners, commands, lastRun := e.lastRun + 1 } hc
      responded).tells (h.of_eq rfl) hb.within
    rw [handled.conversationKey] at hx
    exact hx
  | suspended free addressed handled holds rented rested =>
    rw [if_neg (not_hasConversation_of_find? free)]
    exact h.of_eq rfl

theorem settled_tells (hb : Bounded e) (h : Tells e past) (changes : List (Catalogue.Change κ))
    (f : Finished κ (Command κ)) (hc : c.Coherent) (responded : c.invocation.hasResponded = true) :
    Tells (e.settled changes f c).2 ((e.answering c.invocation.invoker.conversationKey
      (dispatchOf (e.settled changes f c).1.response)).reverse ++ past) := by
  obtain ⟨commands, runners, -, hs⟩ := settled_spec hb.rested changes f c
  rw [hs]
  exact (conclude_concluded { e with commands, runners } hc responded).tells (h.of_eq rfl)
    hb.within

theorem settleAll_tells (meanwhile : RunId → List (Catalogue.Change κ))
    {fs : List (Finished κ (Command κ))} (hb : Bounded e) (h : Tells e past)
    (hf : ∀ f ∈ fs, ∀ c, f.context = some c →
      c.Coherent ∧ c.invocation.hasResponded = true) :
    Tells (e.settleAll meanwhile fs).value.2 ((e.settling meanwhile fs).reverse ++ past) := by
  induction fs generalizing e past with
  | nil => exact h
  | cons f rest ih =>
    have hrest := fun g hg => hf g (List.mem_cons_of_mem f hg)
    cases hcontext : f.context with
    | none =>
      rw [settleAll_cons_of_none hcontext]
      simp only [settling, hcontext]
      exact ih hb h hrest
    | some c =>
      obtain ⟨hc, responded⟩ := hf f List.mem_cons_self c hcontext
      have hnext := ih (settled_bounded hb (meanwhile f.id) f hc responded).1
        (settled_tells hb h (meanwhile f.id) f hc responded) hrest
      rw [value_settleAll_cons hcontext]
      simp only [settling, hcontext, List.reverse_append, List.append_assoc]
      exact hnext

theorem perform_tells [Code κ] (hb : Bounded e) (h : Tells e past) (o : Operation κ) :
    Tells (e.perform o).value.2 ((e.happenings o).reverse ++ past) := by
  cases o with
  | execute line invoker meanwhile =>
    exact (execute_executed hb.rested line invoker meanwhile).tells hb h
  | tick meanwhile =>
    have hended := settleAll_tells (e := e.polled) meanwhile hb.polled (h.of_eq rfl)
      (handed_coherent hb.toAttentive)
    rw [← value_tick] at hended
    exact hended
  | endConversation key =>
    obtain ⟨pool, hr⟩ := e.endConversation_frame key
    simp only [perform, Reported.value_bind, Reported.value_pure, hr, happenings]
    cases hf : e.conversations.find? key with
    | none =>
      rw [if_neg (not_hasConversation_of_find? hf)]
      exact h.of_eq (Table.erase_of_find?_eq_none hf)
    | some old =>
      rw [if_pos (hasConversation_of_find? hf)]
      exact h.left hf rfl
  | register d =>
    obtain ⟨commands, runners, hr, -⟩ := e.register_frame d
    simp only [perform, Reported.value_bind, Reported.value_pure, hr]
    exact h.of_eq rfl
  | registerCommand d =>
    obtain ⟨commands, hr⟩ := e.registerCommand_frame d
    simp only [perform, Reported.value_bind, Reported.value_pure, hr]
    exact h.of_eq rfl
  | unregisterCommand name => exact h.of_eq rfl
  | disturb changes => exact h.of_eq rfl
  | registerParser key p => exact h.of_eq rfl
  | elapse d => exact h.of_eq rfl
  | work opened => exact h.of_eq rfl
  | workerEnds id result => exact h.of_eq rfl

theorem tells_after (hb : Bounded e) (h : Tells e past) (us : List (Use κ)) :
    Tells (e.after us) (e.history us ++ past) := by
  induction us generalizing e past with
  | nil => exact h
  | cons u us ih =>
    let := u.code
    rw [history, List.append_assoc]
    exact ih (bounded_perform hb u.operation) (perform_tells hb h u.operation)

theorem abandoned_opening (e : Engine κ) (key : String) :
    (e.opening key).filterMap Happening.abandoned? = e.gone key := by
  unfold opening gone
  split
  · rfl
  · rw [List.filterMap_append, List.filterMap_map]
    simp [Function.comp_def, Happening.abandoned?]

theorem abandoned_abandonOldest (limit : Nat) (t : Table String (Conversation κ)) (pool : Pool) :
    (abandonOldest limit t pool).abandoned = (t.take (t.length + 1 - limit)).map Prod.fst := by
  rw [abandonOldest_eq, Reported.abandoned, List.filterMap_map]
  exact congrFun (List.filterMap_eq_map (f := Prod.fst)) _

theorem abandoned_openConversation (e : Engine κ) (key : String) (c : Conversation κ) :
    (e.openConversation key c).abandoned = e.gone key := by
  unfold openConversation gone hasConversation Table.contains
  cases hf : e.conversations.find? key with
  | some old => simp [Note.abandoned?]
  | none =>
    simp only [Reported.abandoned_bind, Reported.abandoned_pure, List.append_nil, makeRoom,
      abandoned_abandonOldest]
    rfl

theorem abandoned_conclude (e : Engine κ) (hc : c.Coherent)
    (responded : c.invocation.hasResponded = true) :
    (e.conclude c).abandoned = (e.answering c.invocation.invoker.conversationKey
      (dispatchOf (e.conclude c).value.1)).filterMap Happening.abandoned? := by
  obtain ⟨r, hr⟩ := Option.isSome_iff_exists.mp responded
  cases hcont : r.isContinued with
  | false => simp [conclude, hr, hcont, dispatchOf, answering]
  | true =>
    obtain ⟨k, hk⟩ := Option.isSome_iff_exists.mp (hc.mpr ⟨r, hr, hcont⟩)
    simp [conclude, hr, hcont, hk, dispatchOf, answering, abandoned_opening,
      abandoned_openConversation]

/-- Settling finished runs abandons the conversations that its history says. -/
theorem abandoned_settleAll (meanwhile : RunId → List (Catalogue.Change κ))
    {fs : List (Finished κ (Command κ))} (hr : Rested e.runners)
    (hf : ∀ f ∈ fs, ∀ c, f.context = some c →
      c.Coherent ∧ c.invocation.hasResponded = true) :
    (e.settleAll meanwhile fs).abandoned =
      (e.settling meanwhile fs).filterMap Happening.abandoned? := by
  induction fs generalizing e with
  | nil => rfl
  | cons f rest ih =>
    have hrest := fun g hg => hf g (List.mem_cons_of_mem f hg)
    cases hcontext : f.context with
    | none =>
      rw [settleAll_cons_of_none hcontext]
      simp only [settling, hcontext]
      exact ih hr hrest
    | some c =>
      obtain ⟨hc, responded⟩ := hf f List.mem_cons_self c hcontext
      generalize hchanged : (e.commands.changeAll (meanwhile f.id)).value = commands
      obtain ⟨runners, hrecycle, hrested⟩ :=
        recycle_spec (e := { e with commands }) hr f.origin f.runner
      obtain ⟨_, _, _, _, hs, hrested'⟩ := settled_frame hr (meanwhile f.id) f c
      have hconclude := abandoned_conclude { e with commands, runners } hc responded
      have hlater := ih (e := (e.settled (meanwhile f.id) f c).2) (by rw [hs]; exact hrested') hrest
      simp only [settleAll, settling, hcontext, Reported.abandoned_bind, abandoned_disturb,
        abandoned_recycle, List.filterMap_append, ← hlater]
      simp only [settled, disturb_frame, hchanged, hrecycle, hconclude]
      simp [Note.abandoned?, answering, opening, gone, hasConversation, surplus, limit]

section Code

variable [Code κ]

theorem abandoned_start (hr : Rested e.runners) (command : Command κ) (hc : c.Coherent)
    (meanwhile : List (Catalogue.Change κ)) :
    let x := e.start command c meanwhile
    x.abandoned = (e.answering c.invocation.invoker.conversationKey x.value.1).filterMap
      Happening.abandoned? := by
  intro x
  have hrent := rentRunner_spec (e := { e with lastRun := e.lastRun + 1 }) hr command
  simp only [x, start]
  generalize rentRunner { e with lastRun := e.lastRun + 1 } command = rent at hrent ⊢
  obtain ⟨runner, e'⟩ := rent
  obtain ⟨hresting, runners, rfl, hrested⟩ := hrent
  have hout := Runner.run_outcome hresting.not_isInProgress
    (help { e with runners, lastRun := e.lastRun + 1 }) c ⟨e.lastRun + 1⟩
  simp only [Reported.abandoned_bind, Reported.value_bind, Runner.abandoned_run, abandoned_disturb,
    disturb_frame, List.nil_append]
  generalize (runner.run _ _ _).value = out at hout ⊢
  generalize (e.commands.changeAll meanwhile).value = commands
  cases hout with
  | held holds leads => simp [Note.abandoned?, answering]
  | @ended ran q finished bare leads responded =>
    have handled := leads.handled
    obtain ⟨kept, hkept, -⟩ :=
      recycle_spec (e := { e with runners, commands, lastRun := e.lastRun + 1 }) hrested command ran
    have hconclude := abandoned_conclude
      { e with runners := kept, commands, lastRun := e.lastRun + 1 } (handled.coherent hc) responded
    rw [handled.conversationKey] at hconclude
    simp only [Reported.abandoned_bind, Reported.value_bind, abandoned_recycle, hkept, hconclude]
    simp
    rfl

theorem abandoned_dispatch (hr : Rested e.runners) (line : String) (invoker : Invoker)
    (meanwhile : List (Catalogue.Change κ)) :
    (e.dispatch line invoker meanwhile).abandoned =
      (e.answering invoker.conversationKey (e.dispatch line invoker meanwhile).value.1).filterMap
        Happening.abandoned? := by
  have hadmitted := e.admission_admitted line invoker
  simp only [dispatch, Reported.abandoned_bind, Reported.value_bind, abandoned_admission,
    List.nil_append]
  generalize (e.admission line invoker).value = x at hadmitted
  cases hadmitted with
  | refused pool failed returned => rfl
  | @taken command words bindings pool addressed rented =>
    exact abandoned_start (e := { e with pool }) hr command
      (c := .ofInvocation (.start command.name line words bindings invoker))
      (Context.coherent_ofInvocation rfl) meanwhile

/-- A line abandons the conversations that its history says. -/
theorem abandoned_execute (h : Attentive e) (line : String) (invoker : Invoker)
    (meanwhile : List (Catalogue.Change κ)) :
    (e.execute line invoker meanwhile).abandoned =
      (e.entering line invoker (e.execute line invoker meanwhile).value.1).filterMap
        Happening.abandoned? := by
  simp only [execute, entering]
  cases hf : e.conversations.find? invoker.conversationKey with
  | none =>
    rw [if_neg (not_hasConversation_of_find? hf)]
    exact abandoned_dispatch h.rested line invoker meanwhile
  | some conversation =>
    rw [if_pos (hasConversation_of_find? hf)]
    simp only [continueConversation]
    cases hw : Line.words line with
    | error trouble => rfl
    | ok words =>
      have handled := ((conversation.next line words).carryOut_handled e.help
        (Code.body conversation.callback)).trans (Context.ensureResponse_handled _)
      have hc := handled.coherent (Context.coherent_ofInvocation rfl)
      have hown := handled.conversationKey.trans (h.tended.of_find? hf).own
      have hconclude := abandoned_conclude
        { e with conversations := e.conversations.erase invoker.conversationKey } hc
        (Context.ensureResponse_hasResponded _)
      rw [hown] at hconclude
      simp only [Reported.abandoned_bind, Context.abandoned_carryOut, Reported.abandoned_event,
        Reported.abandoned_pure, Note.abandoned?, Option.toList_none, List.nil_append,
        List.append_nil]
      exact hconclude

theorem abandoned_tick (e : Engine κ) (meanwhile : RunId → List (Catalogue.Change κ)) :
    (e.tick meanwhile).abandoned = (e.polled.settleAll meanwhile e.ended).abandoned := by
  simp only [tick, Reported.abandoned_bind, Schedule.abandoned_tick, List.nil_append]
  simp only [Schedule.tick, Reported.value_bind, Reported.value_pure, Schedule.value_pollAll]
  rfl

theorem abandoned_perform (h : Attentive e) (o : Operation κ) :
    (e.perform o).abandoned = (e.happenings o).filterMap Happening.abandoned? := by
  cases o with
  | execute line invoker meanwhile =>
    simp only [perform, happenings, Reported.abandoned_bind, Reported.abandoned_pure,
      List.append_nil]
    exact abandoned_execute h line invoker meanwhile
  | tick meanwhile =>
    have hended := abandoned_settleAll meanwhile (attentive_polled h).rested
      (handed_coherent h)
    simp only [perform, happenings, Reported.abandoned_bind, Reported.abandoned_pure,
      List.append_nil]
    exact (abandoned_tick e meanwhile).trans hended
  | endConversation key =>
    cases hf : e.conversations.find? key <;>
      simp [perform, happenings, endConversation, hasConversation, Table.contains, hf,
        Note.abandoned?, Happening.abandoned?]
  | register d => simp [perform, happenings]
  | registerCommand d => simp [perform, happenings]
  | unregisterCommand name => rfl
  | disturb changes => simp [perform, happenings]
  | registerParser key p => simp [perform, happenings, registerParser, Note.abandoned?]
  | elapse d => rfl
  | work opened => rfl
  | workerEnds id result => rfl

end Code

/-- The conversations that are reported as abandoned are those of the history. -/
theorem abandoned_notes (h : Attentive e) (us : List (Use κ)) :
    (e.notes us).filterMap Note.abandoned? =
      (e.history us).reverse.filterMap Happening.abandoned? := by
  induction us generalizing e with
  | nil => rfl
  | cons u us ih =>
    let := u.code
    have hnow := abandoned_perform h u.operation
    have hlater := ih (e := (e.use u).after) (attentive_perform h u.operation)
    simp only [notes, history, List.filterMap_append, List.reverse_append, List.reverse_reverse]
    rw [← hnow, ← hlater]
    rfl

/-- A history accounts for the open conversations of an engine, and abandons what is reported as
abandoned. Whatever makes room has kept its place the longest. It has also waited the longest on its
answer, compared with any other open conversation, unless it has taken the place of an earlier one or
the other has lost its own to a refused reply. -/
theorem first_in_place_makes_room (config : Config) (us : List (Use κ)) :
    let e : Engine κ := ofConfig config
    (e.after us).conversations.map Prod.fst = openKeys (e.history us) ∧
    (e.notes us).filterMap Note.abandoned? =
      (e.history us).reverse.filterMap Happening.abandoned? ∧
    ∀ later before key, e.history us = later ++ .abandoned key :: before →
      (openKeys before).head? = some key ∧
      ∀ other ∈ openKeys before, other ≠ key →
        sinceAsked before other < before.length ∧ sinceAsked before key < before.length ∧
        sincePlaced before other < sincePlaced before key ∧
        (.replaced key ∉ before.take (sincePlaced before key) →
          .misread other ∉ before.take (sinceAsked before other) →
            sinceAsked before other < sinceAsked before key) := by
  intro e
  have hb : Bounded e := bounded_after config []
  have h := tells_after hb ⟨.nil, rfl⟩ us
  rw [List.append_nil] at h
  refine ⟨h.keys.symm, abandoned_notes hb.toAttentive us, ?_⟩
  intro later before key hsplit
  have hlawful : Lawful (.abandoned key :: before) := by
    have hall := h.lawful
    rw [hsplit] at hall
    exact hall.of_append
  have hfirst : (openKeys before).head? = some key := by
    cases hlawful
    assumption
  refine ⟨hfirst, ?_⟩
  intro other hother hne
  have hplaced : sincePlaced before other < sincePlaced before key :=
    Happening.placed_before_of_head hfirst hother hne
  refine ⟨hlawful.tail.asked hother, hlawful.tail.asked (List.mem_of_head? hfirst), hplaced, ?_⟩
  intro hreplaced hmisread
  calc sinceAsked before other ≤ sincePlaced before other :=
        Happening.sinceAsked_le_sincePlaced hmisread
    _ < sincePlaced before key := hplaced
    _ ≤ sinceAsked before key := Happening.sincePlaced_le_sinceAsked hreplaced

/-- A handler that asks for a line, at once or in the step after its first. -/
@[reducible]
def prompting : Code Bool where
  body _ := .prompt "more?" true
  resume now := if now then do { Script.prompt "more?" true; pure none } else pure (some true)
  launch _ _ := ⟨[], .ok true⟩
  work _ _ _ := none

/-- Without a replacement and without a refused reply, the conversation that came first goes first. -/
theorem first_asked_makes_room :
    let e : Engine Bool := ofConfig { maxConversations := 2 }
    let uses := List.map fun o : Operation Bool => (⟨o, prompting⟩ : Use Bool)
    let ask := .registerCommand { name := "ask", execution := .sync true }
    let line := fun text name => Operation.execute text (.named name)
    let before : List Happening := [.opened "bob", .opened "ada"];
    e.history (uses [ask, line "ask" "ada", line "ask" "bob", line "ask" "cyn"]) =
        [.opened "cyn"] ++ .abandoned "ada" :: before ∧
      sinceAsked before "bob" < sinceAsked before "ada" := by
  intro e uses ask line before
  have hhistory : e.history (uses [ask, line "ask" "ada", line "ask" "bob", line "ask" "cyn"]) =
      [.opened "cyn"] ++ .abandoned "ada" :: before := by decide +kernel
  obtain ⟨-, -, hroom⟩ := first_in_place_makes_room (κ := Bool) { maxConversations := 2 }
    (uses [ask, line "ask" "ada", line "ask" "bob", line "ask" "cyn"])
  obtain ⟨-, hothers⟩ := hroom _ _ _ hhistory
  obtain ⟨-, -, -, hasked⟩ := hothers "bob" (by decide) (by decide)
  exact ⟨hhistory, hasked (by decide) (by decide)⟩

/-- Both exceptions occur. A conversation that has just replaced another makes room before one that
has waited for longer, and so does one that has waited for less long than another to which a reply
has been refused. -/
theorem later_asked_makes_room :
    let e : Engine Bool := ofConfig { maxConversations := 2 }
    let uses := List.map fun o : Operation Bool => (⟨o, prompting⟩ : Use Bool)
    let ask := .registerCommand { name := "ask", execution := .sync true }
    let later := .registerCommand { name := "later", execution := .stepped false }
    let line := fun text name => Operation.execute text (.named name)
    let replacing : List Happening := [.replaced "ada", .opened "bob", .opened "ada"]
    let refusing : List Happening := [.misread "ada", .opened "bob", .opened "ada"];
    e.history (uses [ask, later, line "later" "ada", line "ask" "ada", line "ask" "bob", .tick,
        line "ask" "cyn"]) = [.opened "cyn", .abandoned "ada"] ++ replacing ∧
      sinceAsked replacing "ada" < sinceAsked replacing "bob" ∧
    e.history (uses [ask, line "ask" "ada", line "ask" "bob", line "[x" "ada",
        line "ask" "cyn"]) = [.opened "cyn", .abandoned "bob"] ++ refusing ∧
      sinceAsked refusing "bob" < sinceAsked refusing "ada" := by
  decide +kernel

end CommandConsole.Engine
