import CommandConsole.Proofs.Console.Acts
import CommandConsole.Proofs.Engine.Rejection
import CommandConsole.Proofs.Line.Balance

/-! What a session makes of the lines it reads: a text is taken once it leaves nothing open, so that
no text taken is refused for what it leaves open. -/
namespace CommandConsole.Session

open Line

variable {κ : Type}

/-- The text that some lines make up, with a space between any two of them. -/
def joined (lines : List String) : String := " ".intercalate lines

/-- However many of the lines are read, and at least one, something is left open. -/
def Unfinished (lines : List String) : Prop :=
  ∀ first, first <+: lines → first ≠ [] → isBalanced (joined first) = false

/-- Lines that together leave nothing open, while fewer of them do. -/
structure Whole (lines : List String) : Prop where
  ne_nil : lines ≠ []
  balanced : isBalanced (joined lines) = true
  shortest : ∀ first, first <+: lines → first ≠ [] → first ≠ lines →
    isBalanced (joined first) = false

/-- What a session reads between two times at which it reads nothing else. -/
inductive Input where
  | whole (lines : List String)
  | cancelled (lines : List String)

namespace Input

def results : Input → List ReadResult
  | .whole lines => lines.map .line
  | .cancelled lines => lines.map .line ++ [.interrupted]

/-- The text that is dispatched, if one is. -/
def dispatched? : Input → Option String
  | .whole lines => if Text.trim (joined lines) = "" then none else some (joined lines)
  | .cancelled _ => none

def Proper : Input → Prop
  | .whole lines => Whole lines
  | .cancelled lines => Unfinished lines

end Input

/-- The result that a session takes in an act. It takes one only while it is reading. -/
def taken? (s : Session κ) (a : Act κ) : Option ReadResult :=
  match s.stage, a.deed with
  | .reading _, .read r => some r
  | _, _ => none

/-- The results that a session takes in the course of some acts. -/
def taken (s : Session κ) : List (Act κ) → List ReadResult
  | [] => []
  | a :: as => (s.taken? a).toList ++ (s.act a).taken as

/-- Where a session is left by what has ended it, if anything has, with some lines pending. -/
def Leaves (pending : List String) : Option ReadResult → Stage → Prop
  | none, .reading input => input = if pending = [] then none else some (joined pending)
  | none, .handling _ => pending = []
  | some .endOfInput, .over result =>
    result = if pending = [] then .ok ()
      else .error { kind := .internal "unexpected EOF in multi-line input" }
  | some (.failed message), .over result => result = .error { kind := .internal message }
  | _, _ => False

/-- What a session has made of the results taken. -/
structure Account (results : List ReadResult) (s : Session κ) (inputs : List Input)
    (pending : List String) (last : Option ReadResult) : Prop where
  reads : results = inputs.flatMap Input.results ++ pending.map .line ++ last.toList
  proper : ∀ i ∈ inputs, i.Proper
  unfinished : Unfinished pending
  history : s.history = inputs.filterMap Input.dispatched?
  leaves : Leaves pending last s.stage

section Lines

variable {lines : List String} {line : String}

theorem joined_concat (h : lines ≠ []) : joined (lines ++ [line]) = joined lines ++ " " ++ line := by
  simp only [joined]
  rw [String.intercalate_append_of_ne_nil h (by simp), String.intercalate_singleton]

/-- A line more for what is pending is a line more for the text. -/
theorem extended_pending (lines : List String) (line : String) :
    extended (if lines = [] then none else some (joined lines)) line = joined (lines ++ [line]) := by
  by_cases h : lines = []
  · rw [if_pos h, h]
    exact String.intercalate_singleton.symm
  · rw [if_neg h, joined_concat h, extended]

theorem unfinished_nil : Unfinished [] :=
  fun _ hprefix hne => (hne (List.prefix_nil.mp hprefix)).elim

theorem Unfinished.concat (h : Unfinished lines)
    (hline : isBalanced (joined (lines ++ [line])) = false) : Unfinished (lines ++ [line]) := by
  intro first hprefix hne
  rcases List.prefix_concat_iff.mp hprefix with rfl | hbefore
  · exact hline
  · exact h first hbefore hne

theorem Unfinished.whole (h : Unfinished lines)
    (hline : isBalanced (joined (lines ++ [line])) = true) : Whole (lines ++ [line]) := by
  refine ⟨by simp, hline, ?_⟩
  intro first hprefix hne hless
  rcases List.prefix_concat_iff.mp hprefix with rfl | hbefore
  · exact (hless rfl).elim
  · exact h first hbefore hne

end Lines

section Steps

variable {s : Session κ} {results : List ReadResult} {inputs : List Input}
  {pending : List String} {last : Option ReadResult} {input : Option String}

theorem leaves_stageOf (p : Progress) : Leaves [] none (stageOf p) := by
  cases p <;> rfl

theorem Leaves.of_handling {p : Progress} (h : Leaves pending last (.handling p)) :
    pending = [] ∧ last = none := by
  cases last with
  | none => exact ⟨h, rfl⟩
  | some r => cases r <;> exact h.elim

theorem Leaves.of_reading (h : Leaves pending last (.reading input)) :
    input = (if pending = [] then none else some (joined pending)) ∧ last = none := by
  cases last with
  | none => exact ⟨h, rfl⟩
  | some r => cases r <;> exact h.elim

theorem taken?_eq_none (h : ∀ input, s.stage ≠ .reading input) (a : Act κ) :
    s.taken? a = none := by
  rw [taken?]
  split
  · exact (h _ ‹_›).elim
  · rfl

/-- With one result more the pending lines make an input. -/
theorem Account.settle (h : Account results s inputs pending none) {r : ReadResult} {i : Input}
    {t : Session κ} (proper : i.Proper) (made : i.results = pending.map .line ++ [r])
    (hhistory : t.history = s.history ++ i.dispatched?.toList) (hleaves : Leaves [] none t.stage) :
    Account (results ++ [r]) t (inputs ++ [i]) [] none := by
  refine ⟨?_, ?_, unfinished_nil, ?_, hleaves⟩
  · simp [h.reads, made]
  · intro j hj
    rcases List.mem_append.mp hj with hbefore | hnew
    · exact h.proper j hbefore
    · rw [List.mem_singleton.mp hnew]
      exact proper
  · rw [hhistory, h.history, List.filterMap_append]
    cases hdispatched : i.dispatched? <;> simp [hdispatched]

theorem Account.interrupt (h : Account results s inputs pending none) (unfinished : Bool) :
    Account (results ++ [.interrupted]) (s.interrupt unfinished).value
      (inputs ++ [.cancelled pending]) [] none := by
  rw [interrupt_value]
  exact h.settle h.unfinished rfl (List.append_nil _).symm rfl

/-- The session ends with a result. -/
theorem Account.finish (h : Account results s inputs pending none) {r : ReadResult}
    {result : Except Error Unit} (hleaves : Leaves pending (some r) (.over result)) :
    Account (results ++ [r]) (s.finish result) inputs pending (some r) :=
  ⟨by simp [h.reads], h.proper, h.unfinished, h.history, hleaves⟩

section Code

variable [Code κ]

theorem submit_noted (s : Session κ) (lines : List String) :
    (s.submit (joined lines)).value.history =
        s.history ++ ((Input.whole lines).dispatched?).toList ∧
      Leaves [] none (s.submit (joined lines)).value.stage := by
  rw [Input.dispatched?]
  by_cases h : Text.trim (joined lines) = ""
  · rw [submit_blank h, if_pos h]
    exact ⟨(List.append_nil _).symm, rfl⟩
  · obtain ⟨p, hsubmit⟩ := submit_value (s := s) h
    rw [hsubmit, if_neg h]
    exact ⟨rfl, leaves_stageOf p⟩

/-- A line makes the text whole, or it is pending as well. -/
theorem Account.line (h : Account results s inputs pending none) (hstage : s.stage = .reading input)
    (line : String) :
    ∃ inputs' pending',
      Account (results ++ [.line line]) (s.addLine input line).value inputs' pending' none := by
  have hinput := (hstage ▸ h.leaves).of_reading.1
  rw [addLine_eq, hinput, extended_pending]
  split
  · rename_i hbalanced
    obtain ⟨hhistory, hleaves⟩ := submit_noted s (pending ++ [line])
    have proper : (Input.whole (pending ++ [line])).Proper := h.unfinished.whole hbalanced
    have made : (Input.whole (pending ++ [line])).results = pending.map .line ++ [.line line] :=
      List.map_append
    exact ⟨_, _, h.settle proper made hhistory hleaves⟩
  · rename_i hopen
    refine ⟨inputs, pending ++ [line], ?_, h.proper, ?_, h.history, ?_⟩
    · simp [h.reads]
    · exact h.unfinished.concat (by simpa using hopen)
    · simp [Leaves]

theorem Account.read (h : Account results s inputs pending last)
    (hstage : s.stage = .reading input) (r : ReadResult) :
    ∃ inputs' pending' last',
      Account (results ++ [r]) (s.read r).value inputs' pending' last' := by
  obtain ⟨hinput, rfl⟩ := (hstage ▸ h.leaves).of_reading
  cases r with
  | line text =>
    simp only [Session.read, hstage]
    obtain ⟨inputs', pending', haccount⟩ := h.line hstage text
    exact ⟨inputs', pending', none, haccount⟩
  | interrupted =>
    simp only [Session.read, hstage]
    exact ⟨_, _, _, h.interrupt input.isSome⟩
  | endOfInput =>
    by_cases hpending : pending = []
    · rw [if_pos hpending] at hinput
      subst hinput
      simp only [Session.read, hstage]
      exact ⟨_, _, _, h.finish (if_pos hpending).symm⟩
    · rw [if_neg hpending] at hinput
      subst hinput
      simp only [Session.read, hstage]
      exact ⟨_, _, _, h.finish (if_neg hpending).symm⟩
  | failed message =>
    simp only [Session.read, hstage]
    exact ⟨_, _, _, h.finish rfl⟩

theorem Account.advance (h : Account results s inputs pending last) :
    Account results s.advance.value inputs pending last := by
  obtain ⟨hreads, hproper, hunfinished, hhistory, hleaves⟩ := h
  simp only [Session.advance]
  split
  · rename_i id responses hstage
    obtain ⟨rfl, rfl⟩ := (hstage ▸ hleaves).of_handling
    obtain ⟨engine, hconsole, -⟩ := s.console.console_advance id responses
    rw [Reported.value_bind, proceed_value, hconsole]
    exact ⟨hreads, hproper, hunfinished, hhistory, leaves_stageOf _⟩
  · rename_i p _ hstage
    obtain ⟨rfl, rfl⟩ := (hstage ▸ hleaves).of_handling
    rw [proceed_value]
    exact ⟨hreads, hproper, hunfinished, hhistory, leaves_stageOf _⟩
  · exact ⟨hreads, hproper, hunfinished, hhistory, hleaves⟩

end Code

theorem Account.act (h : Account results s inputs pending last) (a : Act κ) :
    ∃ inputs' pending' last',
      Account (results ++ (s.taken? a).toList) (s.act a) inputs' pending' last' := by
  obtain ⟨deed, code⟩ := a
  cases deed with
  | advance =>
    simp only [taken?, reduceCtorEq, imp_self, implies_true, Option.toList_none, List.append_nil]
    exact ⟨inputs, pending, last, h.advance⟩
  | read r =>
    by_cases hreading : ∃ input, s.stage = .reading input
    · obtain ⟨input, hstage⟩ := hreading
      simp only [taken?, hstage]
      exact h.read hstage r
    · have hstage : ∀ input, s.stage ≠ .reading input := fun input he => hreading ⟨input, he⟩
      have hsame : s.act ⟨.read r, code⟩ = s := read_unheeded hstage r
      rw [taken?_eq_none hstage, Option.toList_none, List.append_nil, hsame]
      exact ⟨inputs, pending, last, h⟩

theorem Account.after (h : Account results s inputs pending last) (acts : List (Act κ)) :
    ∃ inputs' pending' last',
      Account (results ++ s.taken acts) (s.after acts) inputs' pending' last' := by
  induction acts generalizing s results inputs pending last with
  | nil =>
    rw [taken, List.append_nil]
    exact ⟨inputs, pending, last, h⟩
  | cons a acts ih =>
    obtain ⟨_, _, _, hnext⟩ := h.act a
    rw [taken, ← List.append_assoc]
    exact ih hnext

end Steps

theorem account_start (c : Console κ) : Account [] (start c).value [] [] none := by
  rw [start_value]
  exact ⟨rfl, by simp, unfinished_nil, rfl, rfl⟩

/-- The text of every input is balanced. -/
theorem Account.balanced {s : Session κ} {results : List ReadResult} {inputs : List Input}
    {pending : List String} {last : Option ReadResult} {text : String}
    (h : Account results s inputs pending last) (htext : text ∈ s.history) :
    isBalanced text = true := by
  rw [h.history] at htext
  obtain ⟨i, hi, hdispatched⟩ := List.mem_filterMap.mp htext
  have hproper := h.proper i hi
  cases i with
  | whole lines =>
    simp only [Input.dispatched?] at hdispatched
    split at hdispatched
    · cases hdispatched
    · injection hdispatched with hdispatched
      exact hdispatched ▸ hproper.balanced
  | cancelled lines => cases hdispatched

/-- Whether a text needs another line and how a line is cut agree on what is open, for all texts
whose brackets and braces can be counted: what is cut without trouble needs no other line, and what
needs none has no other trouble than a closer that fits no opener. So it goes for what is read at a
console. Whatever a host does, the results taken are those of some inputs, of which some are
cancelled and each of the others is the shortest text of the lines read that needs no other; then
come the lines of a text that does, and a last result if the session is over. The texts that are not
blank make the history, they are what the engine executes, and for none of them does the cut find
anything left open. The end of the input is an error exactly if lines are pending. -/
theorem console_agrees_with_cut :
    (∀ text : String, brackets text.toList < 2147483648 →
      ((cut text).problem = none → isBalanced text = true) ∧
      (isBalanced text = true → ∀ e, (cut text).problem = some e →
        ∃ c ∈ [']', '}'], e.problem = .unexpected c)) ∧
    ∀ (κ : Type) (c : Console κ) (acts : List (Act κ)),
      let t := (start c).value.after acts
      (∃ inputs pending last,
        Account ((start c).value.taken acts) t inputs pending last) ∧
      (∃ uses, t.console.engine = c.engine.after uses ∧
        uses.filterMap (·.operation.executed?) = t.history.map (·, c.invoker)) ∧
      ∀ text ∈ t.history, isBalanced text = true ∧
        (brackets text.toList < 2147483648 →
          ∀ e opener, (cut text).problem = some e → e.problem ≠ .unterminated opener) := by
  refine ⟨?_, ?_⟩
  · intro text few
    exact ⟨isBalanced_of_untroubled, fun h e he => unexpected_of_isBalanced few h he⟩
  · intro κ c acts t
    obtain ⟨inputs, pending, last, haccount⟩ := (account_start c).after acts
    refine ⟨⟨inputs, pending, last, haccount⟩, exists_uses_of_acts c acts, ?_⟩
    intro text htext
    have hbalanced := haccount.balanced htext
    refine ⟨hbalanced, ?_⟩
    intro few e opener he hopen
    obtain ⟨closer, -, hcloser⟩ := unexpected_of_isBalanced few hbalanced he
    rw [hcloser] at hopen
    cases hopen

/-- A text of two lines. Its closers are as many as its openers, so no third line is read, though one
of them does not fit. -/
theorem two_lines_make_a_text :
    let c : Console Unit := { engine := .ofConfig {}, invoker := .named "ada" }
    let acts : List (Act Unit) :=
      ["tag [\x7bred]", "green]"].map fun line => ⟨.read (.line line), Engine.idling⟩
    let text := "tag [\x7bred] green]"
    brackets text.toList < 2147483648 ∧ ((start c).value.after acts).history = [text] ∧
      isBalanced text = true ∧
      ∃ e, (cut text).problem = some e ∧ ∀ opener, e.problem ≠ .unterminated opener := by
  intro c acts text
  have few : brackets text.toList < 2147483648 := by decide
  have hhistory : ((start c).value.after acts).history = [text] := by decide +kernel
  obtain ⟨-, hsession⟩ := console_agrees_with_cut
  obtain ⟨-, -, htexts⟩ := hsession Unit c acts
  obtain ⟨hbalanced, hclosed⟩ := htexts text (by simp [hhistory])
  have htrouble : (cut text).problem.isSome = true := by decide +kernel
  obtain ⟨e, he⟩ := Option.isSome_iff_exists.mp htrouble
  exact ⟨few, hhistory, hbalanced, e, he, fun opener => hclosed few e opener he⟩

end CommandConsole.Session
