import CommandConsole.Engine
import CommandConsole.Proofs.Bindings.Storage
import CommandConsole.Proofs.Running

/-! What can become of a line, and of a run that a tick finds finished. -/
namespace CommandConsole

variable {κ : Type}

/-- The idle runners of a table are idle indeed. -/
def Rested (runners : Table String (List (PooledRunner κ))) : Prop :=
  ∀ b ∈ runners, ∀ p ∈ b.2, p.runner.Resting

theorem Rested.insert {runners : Table String (List (PooledRunner κ))} (h : Rested runners)
    {idle : List (PooledRunner κ)} (hi : ∀ p ∈ idle, p.runner.Resting) (name : String) :
    Rested (Table.insert runners name idle) := by
  intro b hb
  rcases Table.mem_insert hb with rfl | hb
  · exact hi
  · exact h b hb

theorem Rested.of_find? {runners : Table String (List (PooledRunner κ))} (h : Rested runners)
    {name : String} {idle : List (PooledRunner κ)} (hf : runners.find? name = some idle) :
    ∀ p ∈ idle, p.runner.Resting :=
  h _ (Table.mem_of_find? hf)

/-- The context in which a conversation takes its next line. -/
def Conversation.next (c : Conversation κ) (line : String) (words : List Word) :
    Context κ :=
  .ofInvocation (c.invocation.reply line (words.map (·.text)))

namespace Engine

variable {e : Engine κ} {c : Context κ} {r : Response} {k : κ} {key : String}

/-- The command that the first word of a line names. -/
def addressed? (e : Engine κ) (line : String) : Option (Command κ) :=
  (Line.cut line).words.head?.bind fun name => e.commands.find? name.text

/-- How many conversations may be open at once. -/
def limit (e : Engine κ) : Nat := max 1 e.config.maxConversations

/-- How many conversations have to go before one more can be opened. -/
def surplus (e : Engine κ) : Nat := e.conversations.length + 1 - e.limit

/-- The conversations beside which one of the given key is opened: all of them if it is open already,
otherwise the latest, as many as leave room. -/
def roomFor (e : Engine κ) (key : String) : Table String (Conversation κ) :=
  if e.hasConversation key = true then e.conversations else e.conversations.drop e.surplus

theorem hasConversation_of_find? {v : Conversation κ} (h : e.conversations.find? key = some v) :
    e.hasConversation key = true := by
  simp [hasConversation, Table.contains, h]

theorem not_hasConversation_of_find? (h : e.conversations.find? key = none) :
    ¬e.hasConversation key = true := by
  simp [hasConversation, Table.contains, h]

theorem rentRunner_spec (h : Rested e.runners) (command : Command κ) :
    (e.rentRunner command).1.Resting ∧
      ∃ runners, (e.rentRunner command).2 = { e with runners } ∧ Rested runners := by
  unfold rentRunner
  split
  · exact ⟨⟨⟨rfl, rfl⟩, rfl⟩, e.runners, rfl, h⟩
  · rename_i idle hidle
    have hown : ∀ p ∈ idle.filter (·.origin.registration == command.registration),
        p.runner.Resting :=
      fun p hp => h.of_find? hidle p (List.mem_filter.mp hp).1
    simp only
    split
    · exact ⟨⟨⟨rfl, rfl⟩, rfl⟩, _, rfl, h.insert (by simp) _⟩
    · rename_i p rest hrest
      rw [hrest] at hown
      obtain ⟨⟨hstill, hunheard⟩, hidle⟩ := hown p List.mem_cons_self
      exact ⟨⟨⟨hstill, hunheard⟩, hidle⟩, _, rfl,
        h.insert (fun q hq => hown q (List.mem_cons_of_mem _ hq)) _⟩

theorem recycle_spec (h : Rested e.runners) (origin : Command κ) (runner : Runner κ) :
    ∃ runners, (e.recycle origin runner).value = { e with runners } ∧ Rested runners := by
  simp only [recycle]
  split
  · exact ⟨e.runners, rfl, h⟩
  · split
    · exact ⟨e.runners, rfl, h⟩
    · split
      · exact ⟨e.runners, rfl, h⟩
      · rename_i reset hreset
        have hresting : reset.Resting := by
          cases hf : runner.isFinished with
          | true =>
            have hrest := Runner.resting_reset hf
            rwa [hreset] at hrest
          | false => simp [Runner.reset, hf] at hreset
        have hidle : ∀ p ∈ (e.runners.find? origin.name).getD [], p.runner.Resting := by
          cases hf : e.runners.find? origin.name with
          | none => simp
          | some idle => exact h.of_find? hf
        refine ⟨_, rfl, h.insert ?_ _⟩
        intro p hp
        split at hp
        · rcases List.mem_cons.mp hp with rfl | hp
          · exact hresting
          · exact hidle p hp
        · exact hidle p hp

/-- The oldest conversations go, each with a warning and with the storage that is out for it. -/
theorem abandonOldest_eq (limit : Nat) (t : Table String (Conversation κ)) (pool : Pool) :
    abandonOldest limit t pool =
      ⟨(t.drop (t.length + 1 - limit),
        (t.take (t.length + 1 - limit)).foldl
          (fun p b => p.giveBack b.2.invocation.arguments) pool),
        (t.take (t.length + 1 - limit)).map fun b => .event (.conversationAbandoned b.1)⟩ := by
  induction t generalizing pool with
  | nil =>
    simp only [abandonOldest, List.drop_nil, List.take_nil]
    rfl
  | cons b rest ih =>
    obtain ⟨key, old⟩ := b
    simp only [abandonOldest, List.length_cons]
    by_cases hroom : rest.length + 1 < limit
    · have hnone : rest.length + 1 + 1 - limit = 0 := by omega
      simp only [hroom, hnone, if_true]
      rfl
    · have hmore : rest.length + 1 + 1 - limit = rest.length + 1 - limit + 1 := by omega
      simp only [hroom, hmore, if_false, ih]
      rfl

theorem value_openConversation (e : Engine κ) (key : String) (c : Conversation κ) :
    ∃ pool, (e.openConversation key c).value =
      { e with conversations := (e.roomFor key).insert key c, pool } := by
  unfold openConversation roomFor hasConversation Table.contains
  cases hf : e.conversations.find? key with
  | some old => exact ⟨e.pool.giveBack old.invocation.arguments, by simp⟩
  | none => exact ⟨_, by simp [makeRoom, abandonOldest_eq, surplus, limit]; rfl⟩

/-- An answer that asks for another line opens a conversation. -/
theorem conclude_of_continued (hr : c.invocation.response? = some r) (hc : r.isContinued = true)
    (hk : c.callback = some k) :
    (e.conclude c).value =
      (r, (e.openConversation c.invocation.invoker.conversationKey ⟨c.invocation, k⟩).value) := by
  simp only [Invocation.response?] at hr
  simp [conclude, hr, hc, hk]

/-- Any other answer is final. -/
theorem conclude_of_final (hr : c.invocation.response? = some r) (hc : r.isContinued = false) :
    (e.conclude c).value = (r, { e with pool := e.pool.giveBack c.invocation.arguments }) := by
  simp only [Invocation.response?] at hr
  simp [conclude, hr, hc]

/-- Taking an answer changes conversations and storage, and nothing else. -/
theorem conclude_frame (e : Engine κ) (c : Context κ) :
    ∃ conversations pool, (e.conclude c).value.2 = { e with conversations, pool } := by
  simp only [conclude]
  split
  · rename_i callback _ _
    obtain ⟨pool, hopen⟩ := e.value_openConversation c.invocation.invoker.conversationKey
      ⟨c.invocation, callback⟩
    exact ⟨_, pool, hopen⟩
  · exact ⟨e.conversations, _, rfl⟩

theorem response?_dispatchOf (r : Response) : (dispatchOf r).response? = some r := by
  simp only [dispatchOf]
  split <;> rfl

/-- The fate of a line whose invocation is over, and the engine after it. -/
def concluded (e : Engine κ) (c : Context κ) : Dispatch × Engine κ :=
  let x := (e.conclude c).value
  (dispatchOf x.1, x.2)

theorem concluded_frame (e : Engine κ) (c : Context κ) :
    ∃ response conversations pool,
      e.concluded c = (dispatchOf response, { e with conversations, pool }) := by
  obtain ⟨conversations, pool, h⟩ := e.conclude_frame c
  exact ⟨(e.conclude c).value.1, conversations, pool, by rw [concluded, h]⟩

/-- What a first line is admitted to. As much storage of the pool is out after a line that is refused
as was before, and one piece more for a run. -/
inductive Admitted (e : Engine κ) (line : String) (invoker : Invoker) :
    Except Response (Command κ × Context κ) × Engine κ → Prop where
  /-- The line is not taken, or not understood. -/
  | refused {response : Response} (pool : Pool) (failed : response.kind = .fail)
      (returned : e.pool.Lends 0 pool) :
      Admitted e line invoker (.error response, { e with pool })
  /-- A first line for a command. -/
  | taken {command : Command κ} {words : List String} {bindings : Bindings} (pool : Pool)
      (addressed : e.addressed? line = some command) (rented : e.pool.Lends 1 pool) :
      Admitted e line invoker
        (.ok (command, .ofInvocation (.start command.name line words bindings invoker)),
          { e with pool })

/-- How a line enters an engine. A free key has no conversation. -/
inductive Entered [Code κ] (e : Engine κ) (line : String) (invoker : Invoker)
    (meanwhile : List (Catalogue.Change κ)) : Dispatch × Engine κ → Prop where
  | refused {response : Response} (pool : Pool)
      (free : e.conversations.find? invoker.conversationKey = none)
      (failed : response.kind = .fail) (returned : e.pool.Lends 0 pool) :
      Entered e line invoker meanwhile (.completed response, { e with pool })
  /-- A reply with trouble in its delimiters; the conversation goes on waiting. -/
  | misread {c : Conversation κ} {trouble : ScanError}
      (waiting : e.conversations.find? invoker.conversationKey = some c)
      (malformed : Line.words line = .error trouble) :
      Entered e line invoker meanwhile (.continued (.fail (ErrorKind.scan trouble).message),
        { e with
          conversations :=
            (e.conversations.erase invoker.conversationKey).insert invoker.conversationKey c })
  /-- A reply that the callback of the conversation takes. -/
  | replied {c : Conversation κ} {words : List Word}
      (waiting : e.conversations.find? invoker.conversationKey = some c)
      (read : Line.words line = .ok words) :
      Entered e line invoker meanwhile
        ({ e with conversations := e.conversations.erase invoker.conversationKey }.concluded
          ((c.next line words).carryOut e.help (Code.body c.callback)).value.1.ensureResponse)
  | started {command : Command κ} {words : List String} {bindings : Bindings} {pool : Pool}
      (free : e.conversations.find? invoker.conversationKey = none)
      (addressed : e.addressed? line = some command) (rented : e.pool.Lends 1 pool) :
      Entered e line invoker meanwhile
        (({ e with pool }.start command
          (.ofInvocation (.start command.name line words bindings invoker)) meanwhile).value)

/-- What can become of a run that is begun in a context: it is over at once, or suspended. -/
inductive Started (e : Engine κ) (command : Command κ) (c : Context κ) :
    Dispatch × Engine κ → Prop where
  | answered {d : Context κ} {runners : Table String (List (PooledRunner κ))}
      {commands : Catalogue κ} (handled : c.Handled d)
      (responded : d.invocation.hasResponded = true) (rested : Rested runners) :
      Started e command c ({ e with runners, commands, lastRun := e.lastRun + 1 }.concluded d)
  | suspended {d : Context κ} {runner : Runner κ} {commands : Catalogue κ}
      {runners : Table String (List (PooledRunner κ))} (handled : c.Handled d)
      (holds : runner.current? = some ⟨⟨e.lastRun + 1⟩, d⟩) (rested : Rested runners) :
      Started e command c (.pending ⟨e.lastRun + 1⟩,
        { e with
          runners, commands, lastRun := e.lastRun + 1
          schedule := e.schedule.submit ⟨e.lastRun + 1⟩ command runner })

/-- What can become of a line. A free key has no conversation; as much storage of the pool is out
after a line that is refused as was before, and one piece more for a run. -/
inductive Executed (e : Engine κ) (line : String) (invoker : Invoker) :
    Dispatch × Engine κ → Prop where
  /-- The line is not taken, or not understood. -/
  | refused {response : Response} (pool : Pool)
      (free : e.conversations.find? invoker.conversationKey = none)
      (failed : response.kind = .fail)
      (returned : e.pool.Lends 0 pool) :
      Executed e line invoker (.completed response, { e with pool })
  /-- A reply with trouble in its delimiters; the conversation goes on waiting. -/
  | misread {c : Conversation κ} {trouble : ScanError}
      (waiting : e.conversations.find? invoker.conversationKey = some c)
      (malformed : Line.words line = .error trouble) :
      Executed e line invoker (.continued (.fail (ErrorKind.scan trouble).message),
        { e with
          conversations :=
            (e.conversations.erase invoker.conversationKey).insert invoker.conversationKey c })
  /-- A reply that the callback of the conversation has taken. -/
  | replied {c : Conversation κ} {words : List Word} {context : Context κ}
      (waiting : e.conversations.find? invoker.conversationKey = some c)
      (read : Line.words line = .ok words)
      (handled : (Context.ofInvocation
        (c.invocation.reply line (words.map (·.text)))).Handled context)
      (responded : context.invocation.hasResponded = true) :
      Executed e line invoker
        ({ e with
          conversations := e.conversations.erase invoker.conversationKey }.concluded context)
  /-- A first line whose run is over at once. -/
  | answered {command : Command κ} {words : List String} {bindings : Bindings}
      {context : Context κ} {pool : Pool} {runners : Table String (List (PooledRunner κ))}
      {commands : Catalogue κ}
      (free : e.conversations.find? invoker.conversationKey = none)
      (addressed : e.addressed? line = some command)
      (handled : (Context.ofInvocation
        (.start command.name line words bindings invoker)).Handled context)
      (responded : context.invocation.hasResponded = true)
      (rented : e.pool.Lends 1 pool) (rested : Rested runners) :
      Executed e line invoker
        ({ e with pool, runners, commands, lastRun := e.lastRun + 1 }.concluded context)
  /-- A first line whose run is suspended. -/
  | suspended {command : Command κ} {words : List String} {bindings : Bindings}
      {context : Context κ} {runner : Runner κ} {pool : Pool}
      {runners : Table String (List (PooledRunner κ))} {commands : Catalogue κ}
      (free : e.conversations.find? invoker.conversationKey = none)
      (addressed : e.addressed? line = some command)
      (handled : (Context.ofInvocation
        (.start command.name line words bindings invoker)).Handled context)
      (holds : runner.current? = some ⟨⟨e.lastRun + 1⟩, context⟩)
      (rented : e.pool.Lends 1 pool) (rested : Rested runners) :
      Executed e line invoker (.pending ⟨e.lastRun + 1⟩,
        { e with
          pool, runners, commands, lastRun := e.lastRun + 1
          schedule := e.schedule.submit ⟨e.lastRun + 1⟩ command runner })

variable {line : String} {invoker : Invoker}

theorem disturb_frame (e : Engine κ) (changes : List (Catalogue.Change κ)) :
    (e.disturb changes).value = { e with commands := (e.commands.changeAll changes).value } := rfl

theorem prepare_admitted {command : Command κ} {words : List Word} {trouble : Option ScanError}
    (addressed : e.addressed? line = some command) :
    Admitted e line invoker ((e.prepare command line words invoker trouble).value) := by
  simp only [prepare]
  have hb := BindRequest.bind_lends ⟨command.name, line, words, invoker, trouble⟩
    command.overloads e.pool
  generalize BindRequest.bind ⟨command.name, line, words, invoker, trouble⟩
    command.overloads e.pool = bound at hb ⊢
  obtain ⟨err | b, pool⟩ := bound
  · exact .refused pool rfl hb
  · exact .taken pool addressed hb

/-- Every first line is admitted in one of these ways. -/
theorem admission_admitted (e : Engine κ) (line : String) (invoker : Invoker) :
    Admitted e line invoker (e.admission line invoker).value := by
  simp only [admission]
  split
  · exact .refused e.pool rfl e.pool.lends_zero
  · rename_i name words hwords
    split
    · exact .refused e.pool rfl e.pool.lends_zero
    · split
      · split
        · exact .refused e.pool rfl e.pool.lends_zero
        · exact .refused e.pool rfl e.pool.lends_zero
      · rename_i command hcommand
        split
        · exact .refused e.pool rfl e.pool.lends_zero
        · exact prepare_admitted (by simp [addressed?, hwords, hcommand])

variable [Code κ] {meanwhile : List (Catalogue.Change κ)}

/-- A reply that can be split goes to the callback of the conversation. -/
theorem value_continueConversation {c : Conversation κ} {words : List Word}
    (read : Line.words line = .ok words) (e : Engine κ) (key : String) :
    (e.continueConversation key c line).value =
      e.concluded
        ((c.next line words).carryOut e.help (Code.body c.callback)).value.1.ensureResponse := by
  simp only [continueConversation, read]
  rfl

theorem continueConversation_entered {c : Conversation κ}
    (h : e.conversations.find? invoker.conversationKey = some c) :
    Entered e line invoker meanwhile
      (({ e with
        conversations := e.conversations.erase invoker.conversationKey }.continueConversation
          invoker.conversationKey c line).value) := by
  cases hw : Line.words line with
  | error trouble =>
    simp only [continueConversation, hw]
    exact .misread h hw
  | ok words =>
    rw [value_continueConversation hw]
    exact .replied h hw

theorem dispatch_entered (free : e.conversations.find? invoker.conversationKey = none) :
    Entered e line invoker meanwhile ((e.dispatch line invoker meanwhile).value) := by
  have ha := e.admission_admitted line invoker
  simp only [dispatch, Reported.value_bind]
  generalize (e.admission line invoker).value = x at ha
  cases ha with
  | refused pool failed returned => exact .refused pool free failed returned
  | taken pool addressed rented => exact .started free addressed rented

/-- Every line enters in one of these ways. -/
theorem execute_entered (e : Engine κ) (line : String) (invoker : Invoker)
    (meanwhile : List (Catalogue.Change κ)) :
    Entered e line invoker meanwhile (e.execute line invoker meanwhile).value := by
  simp only [execute]
  split
  · rename_i c hc
    exact continueConversation_entered hc
  · rename_i hc
    exact dispatch_entered hc

/-- A run is begun with an idle runner. -/
theorem start_started (h : Rested e.runners) (command : Command κ) (c : Context κ)
    (meanwhile : List (Catalogue.Change κ)) :
    Started e command c (e.start command c meanwhile).value := by
  have hr := rentRunner_spec (e := { e with lastRun := e.lastRun + 1 }) h command
  simp only [start]
  generalize rentRunner { e with lastRun := e.lastRun + 1 } command = rent at hr ⊢
  obtain ⟨runner, e'⟩ := rent
  obtain ⟨hresting, runners, rfl, hrested⟩ := hr
  have hout := Runner.run_outcome hresting.not_isInProgress
    (help { e with runners, lastRun := e.lastRun + 1 }) c ⟨e.lastRun + 1⟩
  simp only [Reported.value_bind, disturb_frame]
  generalize (runner.run _ _ _).value = out at hout ⊢
  generalize (e.commands.changeAll meanwhile).value = commands
  cases hout with
  | @held r q holds leads =>
    obtain ⟨id, d⟩ := q
    obtain rfl : id = ⟨e.lastRun + 1⟩ := leads.same
    exact .suspended leads.handled holds hrested
  | @ended ran q finished bare leads responded =>
    obtain ⟨kept, hkept, hkr⟩ :=
      recycle_spec (e := { e with runners, commands, lastRun := e.lastRun + 1 }) hrested command ran
    simp only [Reported.value_bind, hkept]
    exact .answered leads.handled responded hkr

theorem start_executed {command : Command κ} {words : List String} {bindings : Bindings}
    {pool : Pool} (h : Rested e.runners)
    (free : e.conversations.find? invoker.conversationKey = none)
    (addressed : e.addressed? line = some command)
    (rented : e.pool.Lends 1 pool) :
    Executed e line invoker
      (({ e with pool }.start command
        (.ofInvocation (.start command.name line words bindings invoker)) meanwhile).value) := by
  have hs := start_started (e := { e with pool }) h command
    (.ofInvocation (.start command.name line words bindings invoker)) meanwhile
  generalize ({ e with pool }.start command _ meanwhile).value = x at hs
  cases hs with
  | answered handled responded rested =>
    exact .answered free addressed handled responded rented rested
  | suspended handled holds rested => exact .suspended free addressed handled holds rented rested

/-- Every line meets one of these fates. -/
theorem execute_executed (h : Rested e.runners) (line : String) (invoker : Invoker)
    (meanwhile : List (Catalogue.Change κ)) :
    Executed e line invoker (e.execute line invoker meanwhile).value := by
  have hx := e.execute_entered line invoker meanwhile
  generalize (e.execute line invoker meanwhile).value = x at hx
  cases hx with
  | refused pool free failed returned => exact .refused pool free failed returned
  | misread waiting malformed => exact .misread waiting malformed
  | @replied c words waiting read =>
    have hc := (c.next line words).carryOut_handled e.help (Code.body c.callback)
    exact .replied waiting read (hc.trans (Context.ensureResponse_handled _))
      (Context.ensureResponse_hasResponded _)
  | started free addressed rented => exact start_executed h free addressed rented

/-- A line changes no settings and no parsers. -/
theorem execute_frame (h : Rested e.runners) (line : String) (invoker : Invoker)
    (meanwhile : List (Catalogue.Change κ)) :
    ∃ pool commands runners schedule conversations lastRun,
      (e.execute line invoker meanwhile).value.2 =
        { e with pool, commands, runners, schedule, conversations, lastRun } := by
  have hx := execute_executed h line invoker meanwhile
  generalize (e.execute line invoker meanwhile).value = x at hx
  cases hx with
  | refused pool free failed returned => exact ⟨pool, _, _, _, _, _, rfl⟩
  | misread waiting malformed => exact ⟨_, _, _, _, _, _, rfl⟩
  | suspended free addressed handled holds rented rested => exact ⟨_, _, _, _, _, _, rfl⟩
  | replied waiting read handled responded =>
    obtain ⟨response, conversations, pool, hc⟩ := concluded_frame _ _
    exact ⟨_, _, _, _, _, _, congrArg Prod.snd hc⟩
  | answered free addressed handled responded rented rested =>
    obtain ⟨response, conversations, pool, hc⟩ := concluded_frame _ _
    exact ⟨_, _, _, _, _, _, congrArg Prod.snd hc⟩

end Engine
end CommandConsole
