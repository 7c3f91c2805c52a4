import CommandConsole.Proofs.Answering

/-! The attempts of handler code to answer, one by one, and which of them counts. -/
namespace CommandConsole

variable {κ α : Type} {c d e : Context κ}

/-- What handler code answers with: a response, or a prompt and the code for the next line. -/
inductive Reply (κ : Type) where
  | answer (r : Response)
  | ask (prompt : String) (callback : κ)

namespace Reply

def response : Reply κ → Response
  | .answer r => r
  | .ask prompt _ => .continued prompt

def callback? : Reply κ → Option κ
  | .answer _ => none
  | .ask _ callback => some callback

end Reply

/-- One attempt to answer, in the context as it is before. -/
structure Attempt (κ : Type) where
  before : Context κ
  reply : Reply κ

namespace Attempt

/-- What comes of an attempt: a rule that it breaks, or the context with the answer. -/
def outcome (x : Attempt κ) : Except Breach (Context κ) :=
  match x.reply with
  | .answer r => x.before.respond r
  | .ask prompt callback => x.before.ask prompt callback

def accepted (x : Attempt κ) : Bool :=
  match x.outcome with
  | .ok _ => true
  | .error _ => false

/-- The context that an attempt leaves. -/
def after (x : Attempt κ) : Context κ :=
  match x.outcome with
  | .ok c => c
  | .error _ => x.before

/-- An answer that asks for a line without code for it is never accepted. -/
theorem outcome_of_continued {x : Attempt κ} {r : Response} (hx : x.reply = .answer r)
    (hr : r.isContinued = true) :
    x.outcome = .error (.continuedWithoutCallback x.before.invocation.command) := by
  simp [outcome, hx, Context.respond, hr]

/-- Once there is an answer, an attempt breaks a rule and changes nothing. -/
theorem outcome_of_responded {x : Attempt κ} (h : x.before.invocation.hasResponded = true) :
    (∃ b, x.outcome = .error b) ∧ x.after = x.before := by
  obtain ⟨first, hf⟩ := Option.isSome_iff_exists.mp h
  have herr : ∃ b, x.outcome = .error b := by
    simp only [outcome, Context.respond, Context.ask, Context.settle, hf]
    split
    · split
      · exact ⟨_, rfl⟩
      · exact ⟨_, rfl⟩
    · exact ⟨_, rfl⟩
  obtain ⟨b, hb⟩ := herr
  exact ⟨⟨b, hb⟩, by simp [after, hb]⟩

/-- An attempt with code for each line that it asks for. -/
def Proper (x : Attempt κ) : Prop := ∀ r, x.reply = .answer r → r.isContinued = false

theorem outcome_of_proper {x : Attempt κ} (h : x.Proper) :
    x.outcome = x.before.settle x.reply.response x.reply.callback? := by
  cases hx : x.reply with
  | answer r => simp [outcome, hx, Context.respond, h r hx, Reply.response, Reply.callback?]
  | ask prompt callback => simp [outcome, hx, Context.ask, Reply.response, Reply.callback?]

theorem exists_of_accepted {x : Attempt κ} (h : x.accepted = true) :
    x.outcome = .ok x.after ∧ x.Proper := by
  have hok : x.outcome = .ok x.after := by
    simp only [accepted] at h
    simp only [after]
    split at h
    · rename_i c hc
      simp [hc]
    · cases h
  refine ⟨hok, ?_⟩
  intro r hr
  cases hcontinued : r.isContinued with
  | false => rfl
  | true =>
    rw [outcome_of_continued hr hcontinued] at hok
    cases hok

/-- An attempt is accepted if there is no answer yet and it does not ask for a line that no code is
to take. -/
theorem accepted_iff (x : Attempt κ) :
    x.accepted = true ↔ x.before.invocation.response? = none ∧ x.Proper := by
  constructor
  · intro h
    obtain ⟨hok, hproper⟩ := exists_of_accepted h
    rw [outcome_of_proper hproper] at hok
    exact ⟨(Context.settle_eq_ok hok).1, hproper⟩
  · rintro ⟨hnone, hproper⟩
    simp only [Invocation.response?] at hnone
    simp [accepted, outcome_of_proper hproper, Context.settle, hnone]

theorem after_of_accepted {x : Attempt κ} (h : x.accepted = true) :
    x.after.invocation.response? = some x.reply.response ∧
      x.after.callback = x.reply.callback? := by
  obtain ⟨hok, hproper⟩ := exists_of_accepted h
  rw [outcome_of_proper hproper] at hok
  obtain ⟨-, hr, hk, -⟩ := Context.settle_eq_ok hok
  exact ⟨hr, hk⟩

theorem after_of_refused {x : Attempt κ} (h : x.accepted = false) : x.after = x.before := by
  simp only [accepted] at h
  simp only [after]
  split at h
  · cases h
  · simp_all

theorem after_asked (x : Attempt κ) :
    x.after.invocation.asked = x.before.invocation.asked := by
  cases hx : x.accepted with
  | true =>
    obtain ⟨hok, hproper⟩ := exists_of_accepted hx
    rw [outcome_of_proper hproper] at hok
    exact (Context.settle_eq_ok hok).2.2.2
  | false => rw [after_of_refused hx]

end Attempt

/-- Attempts made one after another, from one context to another. -/
inductive Tries : Context κ → List (Attempt κ) → Context κ → Prop where
  | nil (c : Context κ) : Tries c [] c
  | cons (x : Attempt κ) {xs : List (Attempt κ)} {d : Context κ} (rest : Tries x.after xs d) :
      Tries x.before (x :: xs) d

namespace Tries

variable {xs ys : List (Attempt κ)}

theorem append (h : Tries c xs d) (hd : Tries d ys e) : Tries c (xs ++ ys) e := by
  induction h with
  | nil c => exact hd
  | cons x rest ih => exact .cons x (ih hd)

/-- Where attempts can be cut in two. -/
theorem of_append (h : Tries c (xs ++ ys) e) : ∃ d, Tries c xs d ∧ Tries d ys e := by
  induction xs generalizing c with
  | nil => exact ⟨c, .nil c, h⟩
  | cons x xs ih =>
    cases h with
    | cons _ rest =>
      obtain ⟨d, hx, hy⟩ := ih rest
      exact ⟨d, .cons x hx, hy⟩

/-- All attempts are those of one invocation. -/
theorem asked (h : Tries c xs d) : d.invocation.asked = c.invocation.asked ∧
    ∀ x ∈ xs, x.before.invocation.asked = c.invocation.asked := by
  induction h with
  | nil c => exact ⟨rfl, by simp⟩
  | cons x rest ih =>
    have hx := x.after_asked
    refine ⟨ih.1.trans hx, ?_⟩
    intro y hy
    rcases List.mem_cons.mp hy with rfl | hy
    · rfl
    · exact (ih.2 y hy).trans hx

/-- After an answer, attempts break rules and change nothing. -/
theorem of_responded (h : Tries c xs d) (hc : c.invocation.hasResponded = true) :
    d = c ∧ ∀ x ∈ xs, (∃ b, x.outcome = .error b) ∧ x.before = c ∧ x.after = c := by
  induction h with
  | nil c => exact ⟨rfl, by simp⟩
  | cons x rest ih =>
    obtain ⟨hb, hsame⟩ := Attempt.outcome_of_responded hc
    rw [hsame] at ih
    obtain ⟨hd, hrest⟩ := ih hc
    refine ⟨hd, ?_⟩
    intro y hy
    rcases List.mem_cons.mp hy with rfl | hy
    · exact ⟨hb, rfl, hsame⟩
    · exact hrest y hy

/-- The first attempt that is accepted counts. -/
theorem counts (h : Tries c xs d) :
    match xs.find? (·.accepted) with
    | none => d = c
    | some x => d.invocation.response? = some x.reply.response ∧ d.callback = x.reply.callback? := by
  induction h with
  | nil c => rfl
  | cons x rest ih =>
    cases hx : x.accepted with
    | true =>
      rw [List.find?_cons_of_pos hx]
      obtain ⟨hr, hk⟩ := Attempt.after_of_accepted hx
      obtain ⟨rfl, -⟩ := rest.of_responded (Option.isSome_iff_exists.mpr ⟨_, hr⟩)
      exact ⟨hr, hk⟩
    | false =>
      rw [List.find?_cons_of_neg (by simp [hx])]
      rw [Attempt.after_of_refused hx] at ih
      exact ih

end Tries

/-- A stretch of an invocation: the attempts of its code to answer, and the fault that ends it. -/
structure Stretch (κ : Type) where
  attempts : List (Attempt κ)
  fault : Option Fault

/-- The fault that ends a piece of work, if one does. -/
def faultOf : Except Fault α → Option Fault
  | .ok _ => none
  | .error f => some f

namespace Stretch

def nothing : Stretch κ := ⟨[], none⟩

/-- One stretch after another. -/
def andThen (w v : Stretch κ) : Stretch κ := ⟨w.attempts ++ v.attempts, w.fault.or v.fault⟩

@[simp] theorem andThen_nothing (w : Stretch κ) : w.andThen nothing = w := by
  simp [andThen, nothing]

@[simp] theorem nothing_andThen (w : Stretch κ) : nothing.andThen w = w := by
  simp [andThen, nothing]

theorem andThen_assoc (u v w : Stretch κ) :
    (u.andThen v).andThen w = u.andThen (v.andThen w) := by
  simp [andThen, Option.or_assoc]

/-- The attempt that counts: the first that is accepted. -/
def counting? (w : Stretch κ) : Option (Attempt κ) := w.attempts.find? (·.accepted)

/-- The answer of an invocation of a command: the one that counts, else a failure that names the
fault and its causes, else the empty one. -/
def verdict (w : Stretch κ) (command : String) : Response :=
  match w.counting?, w.fault with
  | some x, _ => x.reply.response
  | none, some f => .fail (ErrorKind.runnerFault command f.chain).message
  | none, none => .empty

/-- The code for the next line, if the answer that counts asks for one. -/
def callback? (w : Stretch κ) : Option κ := w.counting?.bind (·.reply.callback?)

/-- No attempt asks for a line. -/
def Plain (w : Stretch κ) : Prop := ∀ x ∈ w.attempts, ∃ r, x.reply = .answer r

end Stretch

/-- A context at the end of its invocation, which a fault may have ended. -/
def Context.close (c : Context κ) : Option Fault → Context κ
  | none => c.ensureResponse
  | some f => (c.fault f).value.ensureResponse

namespace Context

theorem close_handled (c : Context κ) (fault : Option Fault) : c.Handled (c.close fault) := by
  cases fault with
  | none => exact c.ensureResponse_handled
  | some f => exact (c.fault_handled f).trans (ensureResponse_handled _)

/-- Without an answer, the end of an invocation is a failure or the empty answer. -/
theorem close_of_unanswered (h : c.invocation.response? = none) (fault : Option Fault) :
    (c.close fault).invocation.response? =
        some ((⟨[], fault⟩ : Stretch κ).verdict c.invocation.command) ∧
      (c.close fault).callback = none := by
  simp only [Invocation.response?] at h
  cases fault with
  | none => simp [close, ensureResponse, settle, h, Invocation.response?, Stretch.verdict,
      Stretch.counting?]
  | some f =>
    simp [close, fault, ensureResponse, respond, settle, h, Invocation.response?,
      Stretch.verdict, Stretch.counting?, Response.fail, Response.isContinued]

end Context

/-- How an invocation that begins without an answer ends, after the attempts of its code and
perhaps a fault. -/
structure Answered (c : Context κ) (w : Stretch κ) (d : Context κ) : Prop where
  /-- Each attempt finds what the one before it has left. -/
  traced : ∃ b, Tries c w.attempts b ∧ d = b.close w.fault
  /-- An attempt is accepted if there is no answer yet and code comes with each line asked for. -/
  accepted : ∀ x ∈ w.attempts,
    x.accepted = true ↔ x.before.invocation.response? = none ∧ x.Proper
  same : d.invocation.asked = c.invocation.asked
  /-- The first answer that is accepted stands. Without one a fault is answered for. -/
  response : d.invocation.response? = some (w.verdict c.invocation.command)
  callback : d.callback = w.callback?
  /-- Code for the next line is kept exactly if the answer that stands was given with it. -/
  stored : d.callback.isSome = true ↔
    ∃ x prompt k, w.counting? = some x ∧ x.reply = .ask prompt k ∧ d.callback = some k
  /-- An answer that asks for a line without code for it is refused. -/
  refused : ∀ x ∈ w.attempts, ∀ r, x.reply = .answer r → r.isContinued = true →
    x.outcome = .error (.continuedWithoutCallback c.invocation.command)
  /-- Every attempt after one that is accepted is refused, and leaves answer and code alone. -/
  violated : ∀ earlier x later, w.attempts = earlier ++ x :: later → x.accepted = true →
    ∀ y ∈ later, (∃ b, y.outcome = .error b) ∧ y.before = x.after ∧ y.after = x.after

theorem Stretch.verdict_of_none {w : Stretch κ} (h : w.counting? = none) (command : String) :
    w.verdict command = (⟨[], w.fault⟩ : Stretch κ).verdict command := by
  simp only [verdict, h]
  rfl

theorem Stretch.callback?_isSome (w : Stretch κ) :
    w.callback?.isSome = true ↔
      ∃ x prompt k, w.counting? = some x ∧ x.reply = .ask prompt k ∧ w.callback? = some k := by
  cases hw : w.counting? with
  | none => simp [callback?, hw]
  | some x => cases hx : x.reply <;> simp [callback?, hw, hx, Reply.callback?]

/-- The answer asks for a line exactly if there is code to take it. -/
theorem Stretch.verdict_isContinued (w : Stretch κ) (command : String) :
    (w.verdict command).isContinued = w.callback?.isSome := by
  cases hw : w.counting? with
  | none =>
    have hcallback : w.callback? = none := by simp [callback?, hw]
    rw [verdict_of_none hw, hcallback]
    cases w.fault <;>
      simp [verdict, counting?, Response.fail, Response.empty, Response.ok, Response.isContinued]
  | some x =>
    obtain ⟨-, hproper⟩ := Attempt.exists_of_accepted (List.find?_some hw)
    cases hx : x.reply with
    | answer r => simp [verdict, callback?, hw, hx, Reply.response, Reply.callback?, hproper r hx]
    | ask prompt callback =>
      simp [verdict, callback?, hw, hx, Reply.response, Reply.callback?, Response.continued,
        Response.isContinued]

theorem Stretch.Plain.callback? {w : Stretch κ} (h : w.Plain) : w.callback? = none := by
  cases hw : w.counting? with
  | none => simp [Stretch.callback?, hw]
  | some x =>
    obtain ⟨r, hr⟩ := h x (List.mem_of_find?_eq_some hw)
    simp [Stretch.callback?, hw, hr, Reply.callback?]

/-- The attempts of an invocation and its fault say how it ends. -/
theorem Tries.answered {w : Stretch κ} (h : Tries c w.attempts d)
    (unanswered : c.invocation.response? = none) : Answered c w (d.close w.fault) := by
  have hclose := d.close_handled w.fault
  have hasked := h.asked
  have hcounts := h.counts
  have hstands : (d.close w.fault).invocation.response? =
        some (w.verdict c.invocation.command) ∧
      (d.close w.fault).callback = w.callback? := by
    cases hw : w.counting? with
    | none =>
      rw [← Stretch.counting?, hw] at hcounts
      obtain rfl := hcounts
      obtain ⟨hr, hk⟩ := Context.close_of_unanswered unanswered w.fault
      exact ⟨by rw [hr, Stretch.verdict_of_none hw], by simp [hk, Stretch.callback?, hw]⟩
    | some x =>
      rw [← Stretch.counting?, hw] at hcounts
      obtain ⟨hr, hk⟩ := hcounts
      rw [hclose.eq_of_hasResponded (Option.isSome_iff_exists.mpr ⟨_, hr⟩)]
      exact ⟨by simp [hr, Stretch.verdict, hw], by simp [hk, Stretch.callback?, hw]⟩
  constructor
  · exact ⟨d, h, rfl⟩
  · exact fun x _ => x.accepted_iff
  · rw [hclose.asked, hasked.1]
  · exact hstands.1
  · exact hstands.2
  · rw [hstands.2]
    exact w.callback?_isSome
  · intro x hx r hr hcontinued
    rw [Attempt.outcome_of_continued hr hcontinued, Invocation.command_eq_of_asked (hasked.2 x hx)]
  · intro earlier x later hw hx y hy
    rw [hw] at h
    obtain ⟨b, -, hrest⟩ := h.of_append
    cases hrest with
    | cons _ hlater =>
      obtain ⟨hr, -⟩ := Attempt.after_of_accepted hx
      exact (hlater.of_responded (Option.isSome_iff_exists.mpr ⟨_, hr⟩)).2 y hy

namespace Script

/-- The attempts to answer that a script makes in a context, in order. -/
def attempts (help : String) : Script κ α → Context κ → List (Attempt κ)
  | .done _, _ => []
  | .raise _, _ => []
  | .say _ next, c => next.attempts help c
  | .look next, c => (next ⟨c.invocation, help⟩).attempts help c
  | .answer r next, c =>
    ⟨c, .answer r⟩ ::
      match c.respond r with
      | .ok c => (next none).attempts help c
      | .error b => (next (some b)).attempts help c
  | .ask prompt callback next, c =>
    ⟨c, .ask prompt callback⟩ ::
      match c.ask prompt callback with
      | .ok c => (next none).attempts help c
      | .error b => (next (some b)).attempts help c

/-- The context that a script leaves is that of its attempts. -/
theorem run_tries (help : String) (s : Script κ α) (c : Context κ) :
    Tries c (s.attempts help c) (s.run help c).context := by
  induction s generalizing c with
  | done a => exact .nil c
  | raise f => exact .nil c
  | say text next ih => exact ih c
  | look next ih => exact ih _ c
  | answer r next ih =>
    simp only [attempts, run]
    apply Tries.cons ⟨c, .answer r⟩
    cases h : c.respond r with
    | ok d => simpa [Attempt.after, Attempt.outcome, h] using ih none d
    | error b => simpa [Attempt.after, Attempt.outcome, h] using ih (some b) c
  | ask prompt callback next ih =>
    simp only [attempts, run]
    apply Tries.cons ⟨c, .ask prompt callback⟩
    cases h : c.ask prompt callback with
    | ok d => simpa [Attempt.after, Attempt.outcome, h] using ih none d
    | error b => simpa [Attempt.after, Attempt.outcome, h] using ih (some b) c

/-- The stretch that a script makes in a context. -/
def stretch (help : String) (s : Script κ α) (c : Context κ) : Stretch κ :=
  ⟨s.attempts help c, faultOf (s.run help c).result⟩

/-- Code that answers once more and then fails keeps its first answer. -/
example (arguments : Bindings) (invoker : Invoker) :
    ((Script.answer (.ok "first") fun _ => .answer (.ok "second") fun _ =>
        .raise (.failed "too late" []) : Script Unit Unit).stretch ""
      (.ofInvocation (.start "greet" "greet" [] arguments invoker))).verdict "greet" =
    .ok "first" := rfl

end Script
end CommandConsole
