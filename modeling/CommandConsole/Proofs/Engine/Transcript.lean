import CommandConsole.Proofs.Engine.Origin
import CommandConsole.Proofs.Engine.Verdict
import CommandConsole.Proofs.Engine.Waiting

/-! The chain of turns behind a reply is the transcript of its conversation. -/
namespace CommandConsole

variable {κ : Type}

/-- Once it is answered, an invocation is as its handler found it, but for the answer. -/
theorem Context.Handled.invocation_eq {c d : Context κ} {r : Response} (h : c.Handled d)
    (hr : d.invocation.response? = some r) :
    d.invocation =
      { c.invocation with turn := { c.invocation.turn with response := some r } } := by
  have hasked := h.asked
  obtain ⟨⟨command, invoker, arguments, ⟨line, words, response⟩, earlier⟩, callback⟩ := c
  obtain ⟨⟨command', invoker', arguments', ⟨line', words', response'⟩, earlier'⟩, callback'⟩ := d
  simp only [Invocation.asked, Invocation.mk.injEq, Turn.mk.injEq] at hasked
  obtain ⟨rfl, rfl, rfl, ⟨rfl, rfl, -⟩, rfl⟩ := hasked
  simp only [Invocation.response?] at hr
  subst hr
  rfl

namespace Moment

/-- The well-formed line of a key that is answered, with its answer. -/
def reply? (key : String) (m : Moment κ) : Option Turn :=
  match m.operation, m.answer with
  | .execute line invoker _, .dispatch d =>
    match Line.words line, d.response? with
    | .ok words, some r =>
      if invoker.conversationKey = key then some ⟨line, words.map (·.text), some r⟩ else none
    | _, _ => none
  | _, _ => none

theorem reply?_eq_some_iff {key : String} {m : Moment κ} {t : Turn} :
    m.reply? key = some t ↔ ∃ line invoker meanwhile words d r,
      m.operation = .execute line invoker meanwhile ∧ invoker.conversationKey = key ∧
      Line.words line = .ok words ∧ m.answer = .dispatch d ∧ d.response? = some r ∧
      t = ⟨line, words.map (·.text), some r⟩ := by
  constructor
  · intro h
    simp only [reply?] at h
    split at h
    · rename_i line invoker meanwhile d hoperation hanswer
      split at h
      · rename_i words r hwords hr
        split at h
        · rename_i hown
          injection h with h
          exact ⟨line, invoker, meanwhile, words, d, r, hoperation, hown, hwords, hanswer, hr,
            h.symm⟩
        · cases h
      · cases h
    · cases h
  · rintro ⟨line, invoker, meanwhile, words, d, r, hoperation, rfl, hwords, hanswer, hr, rfl⟩
    simp only [reply?, hoperation, hanswer, hwords, hr, if_true]

end Moment

/-- The replies of a key, in order. -/
def replies (key : String) (h : List (Moment κ)) : List Turn := h.filterMap (·.reply? key)

/-- The first line of a conversation has been answered, at once or by the completion of its run. -/
inductive Starts (past : List (Moment κ)) (m : Moment κ) (first : Context κ) (r : Response) : Prop
    where
  | atOnce (runs : m.Runs first) (answer : m.answer = .dispatch (.continued r))
  | later {n : Moment κ} {x : Completion} (mem : n ∈ past) (runs : n.Runs first)
      (pending : n.answer = .dispatch (.pending x.id)) (completed : x ∈ m.completions)
      (response : x.response = r)

namespace Engine

variable {e : Engine κ} {c d : Context κ} {key : String} {v : Conversation κ} {u : Use κ}
  {r : Response}

/-- A well-formed reply is taken by the callback of its conversation. -/
theorem happened_of_reply {line : String} {invoker : Invoker}
    {meanwhile : List (Catalogue.Change κ)} {code : Code κ} {words : List Word}
    (waiting : e.conversations.find? invoker.conversationKey = some v)
    (read : Line.words line = .ok words) :
    (e.happened ⟨.execute line invoker meanwhile, code⟩).head? =
      some (.left invoker.conversationKey) := by
  simp only [happened, happenings, entering, if_pos (hasConversation_of_find? waiting), read,
    List.head?_cons]

/-- What is left alone is not replied to. -/
theorem reply?_of_undisturbed (waiting : e.conversations.find? key = some v)
    (quiet : Undisturbed key (e.happened u)) : (e.use u).reply? key = none := by
  cases ht : (e.use u).reply? key with
  | none => rfl
  | some t =>
    obtain ⟨line, invoker, meanwhile, words, d, r, hoperation, rfl, read, -⟩ :=
      Moment.reply?_eq_some_iff.mp ht
    obtain ⟨operation, code⟩ := u
    obtain rfl : operation = .execute line invoker meanwhile := hoperation
    have hleft := quiet _ (List.mem_of_head? (happened_of_reply waiting read)) rfl
    cases hleft

/-- What is left alone is not ended. -/
theorem not_ended_of_undisturbed (waiting : e.conversations.find? key = some v)
    (quiet : Undisturbed key (e.happened u)) : u.operation ≠ .endConversation key := by
  obtain ⟨operation, code⟩ := u
  rintro rfl
  have hleft := quiet (.left key)
  simp [happened, happenings, hasConversation_of_find? waiting, Happening.key] at hleft

theorem history_append_singleton (e : Engine κ) (us : List (Use κ)) (u : Use κ) :
    e.history (us ++ [u]) = ((e.after us).happened u).reverse ++ e.history us := by
  induction us generalizing e with
  | nil => simp [history, after, happened]
  | cons w us ih =>
    simp only [List.cons_append, history, ih, after, List.append_assoc]

theorem replies_append_singleton (key : String) (e : Engine κ) (us : List (Use κ)) (u : Use κ) :
    replies key (e.moments (us ++ [u])) =
      replies key (e.moments us) ++ (((e.after us).use u).reply? key).toList := by
  simp only [replies, moments_append, moments, List.filterMap_append]
  cases h : ((e.after us).use u).reply? key <;> simp [h]

/-- The conversation of a key is neither replaced, abandoned nor ended in the course of some uses. -/
structure Lasts (key : String) (e : Engine κ) (us : List (Use κ)) : Prop where
  notReplaced : .replaced key ∉ e.history us
  notAbandoned : .abandoned key ∉ e.history us
  notEnded : ∀ u ∈ us, u.operation ≠ .endConversation key

theorem lasts_nil : Lasts key e [] :=
  ⟨List.not_mem_nil, List.not_mem_nil, fun _ hu => nomatch hu⟩

theorem Lasts.append_singleton {us : List (Use κ)} (h : Lasts key e us)
    (notReplaced : .replaced key ∉ (e.after us).happened u)
    (notAbandoned : .abandoned key ∉ (e.after us).happened u)
    (notEnded : u.operation ≠ .endConversation key) : Lasts key e (us ++ [u]) := by
  have hmem : ∀ x, x ∈ e.history (us ++ [u]) ↔
      x ∈ (e.after us).happened u ∨ x ∈ e.history us := by
    intro x
    rw [history_append_singleton, List.mem_append, List.mem_reverse]
  refine ⟨?_, ?_, ?_⟩
  · rw [hmem, not_or]
    exact ⟨notReplaced, h.notReplaced⟩
  · rw [hmem, not_or]
    exact ⟨notAbandoned, h.notAbandoned⟩
  · rw [List.forall_mem_append, List.forall_mem_singleton]
    exact ⟨h.notEnded, notEnded⟩

/-- What lies behind a line that continues an invocation of a key: a moment `m`, after some past, has
started the conversation, and it has lasted since then. -/
structure Transcript (past : List (Moment κ)) (m : Moment κ) (since : List (Use κ))
    (first : Context κ) (r : Response) (key : String) (i : Invocation) : Prop where
  starts : Starts past m first r
  own : first.invocation.invoker.conversationKey = key
  lasts : Lasts key m.after since
  same : i.command = first.invocation.command ∧ i.invoker = first.invocation.invoker ∧
    i.arguments = first.invocation.arguments
  /-- The earlier turns are all replies since then and the first line, the latest first. -/
  earlier : i.earlier = (replies key (m.after.moments since)).reverse ++
    [{ first.invocation.turn with response := some r }]
  asking : ∀ t ∈ i.earlier, ∃ r, t.response = some r ∧ r.isContinued = true

namespace Transcript

variable {past : List (Moment κ)} {m : Moment κ} {since : List (Use κ)} {first : Context κ}
  {i : Invocation} {nextLine : String} {nextWords : List String}

/-- The first line is the first turn. -/
theorem start (starts : Starts past m c r) (handled : c.Handled d)
    (own : d.invocation.invoker.conversationKey = key) (hc : c.invocation.earlier = [])
    (response : d.invocation.response? = some r) (asks : r.isContinued = true) :
    Transcript past m [] c r key (d.invocation.reply nextLine nextWords) := by
  have hinvocation := handled.invocation_eq response
  have hearlier : (d.invocation.reply nextLine nextWords).earlier =
      [{ c.invocation.turn with response := some r }] := by
    rw [hinvocation, Invocation.reply, hc]
  refine ⟨starts, handled.conversationKey ▸ own, lasts_nil, ?_, hearlier, ?_⟩
  · rw [hinvocation]
    exact ⟨rfl, rfl, rfl⟩
  · rw [hearlier, List.forall_mem_singleton]
    exact ⟨r, rfl, asks⟩

/-- Whatever leaves the conversation alone adds nothing to its transcript. -/
theorem kept (h : Transcript past m since first r key i)
    (waiting : (m.after.after since).conversations.find? key = some v)
    (quiet : Undisturbed key ((m.after.after since).happened u)) :
    Transcript past m (since ++ [u]) first r key i := by
  have hlasts : Lasts key m.after (since ++ [u]) := by
    apply h.lasts.append_singleton
    · exact fun hin => nomatch quiet _ hin rfl
    · exact fun hin => nomatch quiet _ hin rfl
    · exact not_ended_of_undisturbed waiting quiet
  refine ⟨h.starts, h.own, hlasts, h.same, ?_, h.asking⟩
  rw [replies_append_singleton, reply?_of_undisturbed waiting quiet, Option.toList_none,
    List.append_nil]
  exact h.earlier

/-- A reply that is answered with a prompt is the next turn. -/
theorem replied {line : String} {invoker : Invoker} {meanwhile : List (Catalogue.Change κ)}
    {words : List Word} {old : Conversation κ} {prompt : Response}
    (h : Transcript past m since first r key (old.next line words).invocation)
    (operation : u.operation = .execute line invoker meanwhile) (own : invoker.conversationKey = key)
    (read : Line.words line = .ok words) (handled : (old.next line words).Handled d)
    (response : d.invocation.response? = some prompt) (asks : prompt.isContinued = true)
    (answer : ((m.after.after since).use u).answer = .dispatch (.continued prompt))
    (happened : (m.after.after since).happened u = [.left key, .opened key]) :
    Transcript past m (since ++ [u]) first r key (d.invocation.reply nextLine nextWords) := by
  have hreply : ((m.after.after since).use u).reply? key =
      some ⟨line, words.map (·.text), some prompt⟩ :=
    Moment.reply?_eq_some_iff.mpr
      ⟨line, invoker, meanwhile, words, _, prompt, operation, own, read, answer, rfl, rfl⟩
  have hinvocation := handled.invocation_eq response
  have hearlier : (d.invocation.reply nextLine nextWords).earlier =
      ⟨line, words.map (·.text), some prompt⟩ :: (old.next line words).invocation.earlier := by
    rw [hinvocation]
    rfl
  have hlasts : Lasts key m.after (since ++ [u]) := by
    apply h.lasts.append_singleton
    · simp [happened]
    · simp [happened]
    · simp [operation]
  refine ⟨h.starts, h.own, hlasts, ?_, ?_, ?_⟩
  · rw [hinvocation]
    exact h.same
  · rw [hearlier, h.earlier, replies_append_singleton, hreply, Option.toList_some,
      List.reverse_append, List.reverse_singleton]
    rfl
  · rw [hearlier, List.forall_mem_cons]
    exact ⟨⟨prompt, rfl, asks⟩, h.asking⟩

end Transcript

/-- Behind every line for an open conversation there is its transcript. -/
theorem transcript_of_waiting (config : Config) (us : List (Use κ))
    (hv : ((ofConfig config).after us).conversations.find? key = some v) (line : String)
    (words : List String) :
    ∃ past u since first r, us = past ++ u :: since ∧
      Transcript ((ofConfig config).moments past) (((ofConfig config).after past).use u) since first r
        key (v.invocation.reply line words) := by
  -- the latest use says what waits; what it has found waiting is the business of those before it
  induction us using List.reverseRecOn generalizing v line words with
  | nil => cases hv
  | append_singleton us u ih =>
    rw [after_append] at hv
    cases waits_of_use (bounded_after config us) u hv with
    | kept waiting quiet =>
      obtain ⟨past, w, since, first, r, rfl, htranscript⟩ := ih waiting line words
      rw [after_append] at waiting quiet
      exact ⟨past, w, since ++ [u], first, r, by simp, htranscript.kept waiting quiet⟩
    | replied operation own waiting read handled invocation response asks answer happened =>
      obtain ⟨past, w, since, first, r, rfl, htranscript⟩ := ih waiting _ _
      rw [after_append] at answer happened
      rw [invocation]
      exact ⟨past, w, since ++ [u], first, r, by simp,
        htranscript.replied operation own read handled response asks answer happened⟩
    | @answered first invoker meanwhile command c d r operation own begun handled invocation
        response asks answer comes =>
      have hruns : (((ofConfig config).after us).use u).Runs c :=
        ⟨first, invoker, meanwhile, command, operation, begun⟩
      obtain ⟨-, q, b, -, -, hc⟩ := begun?_spec begun
      have hown : d.invocation.invoker.conversationKey = key := by
        rw [handled.conversationKey, hc]
        exact own
      rw [invocation]
      exact ⟨us, u, [], c, r, rfl,
        .start (.atOnce hruns answer) handled hown (earlier_of_runs hruns) response asks⟩
    | @completed meanwhile s c d r operation suspended holds handled own invocation response asks
        completed comes =>
      have hheld := holds ▸ Schedule.mem_held suspended
      obtain ⟨n, hn, first, hruns, hpending, hfirst⟩ := runs_of_held config us hheld
      have hresponse : (completionOf s.id d).response = r := by simp [completionOf, response]
      rw [invocation]
      exact ⟨us, u, [], first, r, rfl,
        .start (.later hn hruns hpending completed hresponse) (hfirst.trans handled) own
          (earlier_of_runs hruns) response asks⟩

/-- In the course of some uses a conversation has come to wait under a key. It has stood there, left
alone, all the time since then, and no reply has been taken under its key. -/
def HasWaited (config : Config) (us : List (Use κ)) (key : String) (v : Conversation κ) : Prop :=
  ∃ past u since, us = past ++ u :: since ∧
    let m := ((ofConfig config).after past).use u
    m.after.conversations.find? key = some v ∧
      ComesToWait key (((ofConfig config).after past).happened u) ∧
      Undisturbed key (m.after.history since) ∧
      ∀ before w later, since = before ++ w :: later →
        (m.after.after before).conversations.find? key = some v ∧
          ((m.after.after before).use w).reply? key = none

theorem HasWaited.kept {config : Config} {us : List (Use κ)} (h : HasWaited config us key v)
    (waiting : ((ofConfig config).after us).conversations.find? key = some v)
    (quiet : Undisturbed key (((ofConfig config).after us).happened u)) :
    HasWaited config (us ++ [u]) key v := by
  obtain ⟨past, w, since, rfl, stored, comes, alone, stands⟩ := h
  rw [after_append] at quiet waiting
  refine ⟨past, w, since ++ [u], by simp, stored, comes, ?_, ?_⟩
  · rw [history_append_singleton, undisturbed_append]
    exact ⟨fun x hx => quiet x (List.mem_reverse.mp hx), alone⟩
  · intro before x later hsplit
    rcases List.eq_nil_or_concat later with rfl | ⟨later, last, rfl⟩
    · obtain ⟨rfl, hlast⟩ := List.append_inj' hsplit rfl
      obtain rfl : u = x := by simpa using hlast
      exact ⟨waiting, reply?_of_undisturbed waiting quiet⟩
    · rw [List.concat_eq_append, ← List.cons_append, ← List.append_assoc] at hsplit
      obtain ⟨hsince, -⟩ := List.append_inj' hsplit rfl
      exact stands before x later hsince

/-- Whatever waits has come to wait at some time, and has been left alone since then. -/
theorem hasWaited_of_waiting (config : Config) (us : List (Use κ))
    (hv : ((ofConfig config).after us).conversations.find? key = some v) :
    HasWaited config us key v := by
  induction us using List.reverseRecOn with
  | nil => cases hv
  | append_singleton us u ih =>
    rw [after_append] at hv
    have comes : ComesToWait key (((ofConfig config).after us).happened u) →
        HasWaited config (us ++ [u]) key v :=
      fun h => ⟨us, u, [], rfl, hv, h, undisturbed_nil, by simp⟩
    cases waits_of_use (bounded_after config us) u hv with
    | kept waiting quiet => exact (ih waiting).kept waiting quiet
    | replied operation own waiting read handled invocation response asks answer happened =>
      exact comes ⟨.opened key, by simp [happened], by simp [Happening.asks]⟩
    | answered operation own begun handled invocation response asks answer came => exact comes came
    | completed operation suspended holds handled own invocation response asks completed came =>
      exact comes came

/-- The chain of turns behind a reply is the transcript of its conversation. In an engine that any
life has brought about, a well-formed line for an open conversation leaves and reports just what one
run of the callback that waits leaves and says, with its fault if it has one, and what taking the
answer does to conversations of which this one is gone; it is answered as the callback decides. The
callback is shown the line and its words, and the command, the invoker and the arguments of the line
that has started the conversation. The earlier turns are all replies since then, the latest first, and
that line, each with the prompt that it was answered with; refused replies and lines of other keys are
none of them. The callback has come to wait in some earlier use and has stood there since then, so that
it has not run before and its conversation has been neither replaced, abandoned nor ended. -/
theorem context_chain_is_transcript (config : Config) (us : List (Use κ)) (line : String)
    (invoker : Invoker) (meanwhile : List (Catalogue.Change κ)) (code : Code κ)
    (conversation : Conversation κ) (words : List Word)
    (waiting : ((ofConfig config).after us).conversations.find? invoker.conversationKey =
      some conversation)
    (read : Line.words line = .ok words) :
    let e := (ofConfig config).after us
    let key := invoker.conversationKey
    let c := conversation.next line words
    let once := (code.body conversation.callback).run e.help c
    let d := once.context.close (faultOf once.result)
    let rest : Engine κ := { e with conversations := e.conversations.erase key }
    let x := @execute κ code e line invoker meanwhile
    (x.value = rest.concluded d ∧
      x.notes = once.said.map .said ++ faultNotes c.invocation.command once.result ++
        .event (.continued c.invocation.command c.invocation.depth) :: (rest.conclude d).notes ∧
      Delivers (e.use ⟨.execute line invoker meanwhile, code⟩) key c
        ((code.body conversation.callback).stretch e.help c) d) ∧
    c.invocation.turn = ⟨line, words.map (·.text), none⟩ ∧
    (∃ past u since first r, us = past ++ u :: since ∧
      let m := ((ofConfig config).after past).use u
      Transcript ((ofConfig config).moments past) m since first r key c.invocation ∧
        c.invocation.depth = (replies key (m.after.moments since)).length + 1) ∧
    HasWaited config us key conversation ∧
    (e.happened ⟨.execute line invoker meanwhile, code⟩).head? = some (.left key) := by
  intro e key c once d rest x
  refine ⟨⟨value_execute_of_reply waiting read meanwhile,
      notes_execute_of_reply waiting read meanwhile,
      reply_delivers waiting read meanwhile (attentive_after config us) code⟩, rfl, ?_,
    hasWaited_of_waiting config us waiting, happened_of_reply waiting read⟩
  obtain ⟨past, u, since, first, r, hsplit, htranscript⟩ :=
    transcript_of_waiting config us waiting line (words.map (·.text))
  refine ⟨past, u, since, first, r, hsplit, htranscript, ?_⟩
  have hdepth := congrArg List.length htranscript.earlier
  rw [List.length_append, List.length_reverse, List.length_singleton] at hdepth
  exact hdepth

/-- A handler that says that it runs, and asks for a line. -/
@[reducible]
def echoing : Code Bool where
  body _ := do
    Script.print "running"
    Script.prompt "more?" true
  resume _ := .done none
  launch _ _ := ⟨[], .ok true⟩
  work _ _ _ := none

/-- Behind a second reply there are the first one and the line that started the conversation, but not
the line that was refused in between nor that of someone else. The callback speaks once. -/
theorem transcript_of_second_reply :
    let uses := List.map fun o : Operation Bool => (⟨o, echoing⟩ : Use Bool)
    let ask := .registerCommand { name := "ask", execution := .sync true }
    let line := fun text name => Operation.execute text (.named name)
    let us := uses [ask, line "ask" "ada", line "[x" "ada", line "one two" "ada", line "ask" "bob"]
    let e : Engine Bool := (ofConfig {}).after us
    ∃ conversation words,
      e.conversations.find? (Invoker.named "ada").conversationKey = some conversation ∧
      Line.words "three" = .ok words ∧
      (conversation.next "three" words).invocation.earlier.map (·.line) = ["one two", "ask"] ∧
      (@execute Bool echoing e "three" (.named "ada")).notes =
        [.said "running", .event (.continued "ask" 2)] ∧
      ∃ past u since first r, us = past ++ u :: since ∧
        let m := ((ofConfig {}).after past).use u
        Transcript ((ofConfig {}).moments past) m since first r (Invoker.named "ada").conversationKey
          (conversation.next "three" words).invocation ∧
        (conversation.next "three" words).invocation.depth =
          (replies (Invoker.named "ada").conversationKey (m.after.moments since)).length + 1 := by
  intro uses ask line us e
  have hlines : (e.conversations.find? (Invoker.named "ada").conversationKey).map
        (fun c => (c.invocation.reply "three" ["three"]).earlier.map (·.line)) =
      some ["one two", "ask"] := by decide +kernel
  have hnotes : (@execute Bool echoing e "three" (.named "ada")).notes =
      [.said "running", .event (.continued "ask" 2)] := by decide +kernel
  obtain ⟨conversation, waiting, hlines⟩ := Option.map_eq_some_iff.mp hlines
  have read : Line.words "three" = .ok [⟨"three", 0⟩] := by decide +kernel
  obtain ⟨-, -, htranscript, -⟩ := context_chain_is_transcript {} us "three" (.named "ada") []
    echoing conversation _ waiting read
  exact ⟨conversation, _, waiting, read, hlines, hnotes, htranscript⟩

end Engine
end CommandConsole
