import CommandConsole.Proofs.Console.Handling

/-! Lines that a console is given one after another, be it all at once or in a session: each is
answered by one response before the next is dispatched. -/
namespace CommandConsole

variable {κ : Type}

namespace Console

/-- What each of some lines is answered with, and the console then. A line without an answer keeps
the lines behind it from being dispatched. -/
def handleLines (c : Console κ) : List (Handling κ) → List (List Response) × Console κ
  | [] => ([], c)
  | h :: hs =>
    match c.handleLine h with
    | (.answered responses, d) => (responses :: (d.handleLines hs).1, (d.handleLines hs).2)
    | (.waiting .., d) => ([], d)

/-- A console has been given some lines, and has come to be as it is by handling them, one after
another. Each was dispatched while no run was in flight and has been answered by one response, its
own, except that the last may be waiting for its run. Other things may have happened to the engine
between the lines. -/
inductive Serves (c : Console κ) :
    List (Handling κ) → List Response → Option RunId → Console κ → Prop where
  | start : Serves c [] [] none c
  | aside {hs : List (Handling κ)} {rs : List Response} {d : Console κ}
      (serves : Serves c hs rs none d) (a : Aside κ) : Serves c hs rs none (d.beside [a])
  | answered {hs : List (Handling κ)} {rs : List Response} {d e : Console κ} {h : Handling κ}
      {r : Response} (serves : Serves c hs rs none d) (idle : d.engine.inFlight = 0)
      (handled : d.handleLine h = (.answered [r], e)) (answers : d.Answers h r) :
      Serves c (hs ++ [h]) (rs ++ [r]) none e
  | waiting {hs : List (Handling κ)} {rs : List Response} {d e : Console κ} {h : Handling κ}
      {id : RunId} (serves : Serves c hs rs none d) (idle : d.engine.inFlight = 0)
      (handled : d.handleLine h = (.waiting id [], e)) (waits : d.WaitsFor h id e) :
      Serves c (hs ++ [h]) rs (some id) e

/-- The lines that a console has been given, apart from how they were handled. Once it awaits
nothing no run is in flight. -/
structure ServesLines (c : Console κ) (lines : List String) (rs : List Response)
    (awaited : Option RunId) (d : Console κ) : Prop where
  handled : ∃ hs : List (Handling κ), hs.map (·.line) = lines ∧ c.Serves hs rs awaited d
  idle : awaited = none → d.engine.inFlight = 0

/-- What a console comes to with the last of the lines that it has been given: the response is one
more, or the line is waiting. -/
inductive Proceeds (c : Console κ) (lines : List String) (rs : List Response) :
    Progress × Console κ → Prop where
  | answered {r : Response} {d : Console κ} (serves : c.ServesLines lines (rs ++ [r]) none d) :
      Proceeds c lines rs (.answered [r], d)
  | waiting {id : RunId} {d : Console κ} (serves : c.ServesLines lines rs (some id) d) :
      Proceeds c lines rs (.waiting id [], d)

/-- Among what is reported some responses are shown, in their order. -/
def Shows (notes : List Note) (rs : List Response) : Prop := (showAll rs).notes.Sublist notes

variable {c d : Console κ} {hs : List (Handling κ)} {rs : List Response} {lines : List String}
  {id : RunId}

theorem showAll_append (rs more : List Response) :
    (showAll (rs ++ more)).notes = (showAll rs).notes ++ (showAll more).notes := by
  induction rs with
  | nil => rfl
  | cons r rs ih =>
    simp only [List.cons_append, showAll, Reported.notes_bind, ih, List.append_assoc]

theorem shows_nil (notes : List Note) : Shows notes [] := List.nil_sublist notes

theorem Shows.append {notes others : List Note} {more : List Response} (h : Shows notes rs)
    (h' : Shows others more) : Shows (notes ++ others) (rs ++ more) := by
  rw [Shows, showAll_append]
  exact List.Sublist.append h h'

/-- What is come to fits the responses so far and those that are shown on the way. -/
def Showing {α : Type} (Fits : List Response → α → Prop) (rs : List Response) (x : Reported α) :
    Prop :=
  ∃ more, Shows x.notes more ∧ Fits (rs ++ more) x.value

section Showing

variable {α β : Type} {Fits : List Response → α → Prop} {Goal : List Response → β → Prop}
  {x : Reported α} {f : α → Reported β} {more : List Response}

theorem showing_of_fits (h : Fits rs x.value) : Showing Fits rs x := by
  refine ⟨[], shows_nil _, ?_⟩
  rwa [List.append_nil]

theorem Shows.bind (h : Shows x.notes more) (hf : Showing Goal (rs ++ more) (f x.value)) :
    Showing Goal rs (x >>= f) := by
  obtain ⟨others, hothers, hfits⟩ := hf
  rw [List.append_assoc] at hfits
  exact ⟨more ++ others, h.append hothers, hfits⟩

theorem Showing.bind (h : Showing Fits rs x)
    (hf : ∀ rs', Fits rs' x.value → Showing Goal rs' (f x.value)) : Showing Goal rs (x >>= f) := by
  obtain ⟨more, hshows, hfits⟩ := h
  exact hshows.bind (hf _ hfits)

/-- What comes first may show nothing. -/
theorem showing_bind (x : Reported α) (hf : Showing Goal rs (f x.value)) :
    Showing Goal rs (x >>= f) := by
  refine (shows_nil x.notes).bind ?_
  rwa [List.append_nil]

theorem showing_showAll {y : Reported β} (h : Showing Goal (rs ++ more) y) :
    Showing Goal rs (showAll more >>= fun _ => y) :=
  Shows.bind (List.Sublist.refl _) h

end Showing

theorem free_beside (free : c.Free) (as : List (Aside κ)) : (c.beside as).Free := by
  refine ⟨reached_beside free.reached as, ?_⟩
  rw [← Engine.held_eq_nil_iff, held_beside, Engine.held_eq_nil_iff]
  exact free.idle

/-- Once all lines are answered no run is in flight. -/
theorem Serves.free (serves : c.Serves hs rs none d) (free : c.Free) : d.Free := by
  generalize hawaited : (none : Option RunId) = awaited at serves
  induction serves with
  | start => exact free
  | aside _ a ih => exact free_beside (ih hawaited) [a]
  | @answered hs rs d e h r _ idle handled answers ih =>
    have houtcome := handleLine_outcome (ih hawaited) h
    rw [handled] at houtcome
    cases houtcome with
    | answered _ free => exact free
  | waiting => cases hawaited

/-- A line more, in however many rounds. -/
theorem Serves.line (serves : c.Serves hs rs none d) (free : c.Free) (h : Handling κ)
    (hlines : (hs ++ [h]).map (·.line) = lines) : c.Proceeds lines rs (d.handleLine h) := by
  have hfree := serves.free free
  have houtcome := handleLine_outcome hfree h
  generalize hx : d.handleLine h = x at houtcome
  cases houtcome with
  | answered answers hnext =>
    exact .answered ⟨⟨_, hlines, serves.answered hfree.idle hx answers⟩, fun _ => hnext.idle⟩
  | waiting waits =>
    exact .waiting ⟨⟨_, hlines, serves.waiting hfree.idle hx waits⟩, fun h => nomatch h⟩

/-- A line more, as far as its dispatch. -/
theorem proceeds_handle [code : Code κ] (serves : c.ServesLines lines rs none d) (free : c.Free)
    (line : String) : c.Proceeds (lines ++ [line]) rs (d.handle line).value := by
  obtain ⟨hs, rfl, hserves⟩ := serves.handled
  rw [← handleLine_dispatch]
  exact hserves.line free ⟨line, code, []⟩ List.map_append

/-- A round more for the line that is waiting. -/
theorem proceeds_advance [code : Code κ] (serves : c.ServesLines lines rs (some id) d)
    (free : c.Free) : c.Proceeds lines rs (d.advance id []).value := by
  obtain ⟨hs, hlines, hserves⟩ := serves.handled
  cases hserves with
  | @waiting hs _ b _ h _ serves idle handled waits =>
    -- with one round more from its dispatch on, the line comes to the same
    have hround : b.handleLine { h with rounds := h.rounds ++ [⟨[], code⟩] } =
        (d.advance id []).value := by
      rw [handleLine_append, handled, await_round]
      rfl
    rw [← hround]
    exact serves.line free _ (by simpa using hlines)

/-- Any line that a sequence comes to is dispatched while no run is in flight. It is answered by one
response, which is the result of the same place, or nothing behind it is dispatched. -/
theorem handleLines_line (free : c.Free) {h : Handling κ} {i : Nat} (hline : hs[i]? = some h)
    (comes : i ≤ (c.handleLines hs).1.length) :
    let d := (c.handleLines (hs.take i)).2
    d.engine.inFlight = 0 ∧
      ((∃ r, (c.handleLines hs).1[i]? = some [r] ∧ d.Answers h r) ∨
        (c.handleLines hs).1.length = i ∧
          ∃ id e, d.handleLine h = (.waiting id [], e) ∧ d.WaitsFor h id e) := by
  induction hs generalizing c i with
  | nil => cases hline
  | cons first hs ih =>
    have houtcome := handleLine_outcome free first
    generalize hx : c.handleLine first = x at houtcome
    cases houtcome with
    | @answered r d answers hfree =>
      simp only [handleLines, hx] at comes ⊢
      cases i with
      | zero =>
        cases hline
        exact ⟨free.idle, .inl ⟨r, rfl, answers⟩⟩
      | succ i =>
        simpa [handleLines, hx] using ih hfree hline (Nat.le_of_succ_le_succ comes)
    | @waiting id d waits =>
      simp only [handleLines, hx] at comes ⊢
      obtain rfl : i = 0 := Nat.le_zero.mp comes
      cases hline
      exact ⟨free.idle, .inr ⟨rfl, id, d, hx, waits⟩⟩

/-- Once a whole sequence is answered no run is in flight. -/
theorem free_of_handleLines (free : c.Free)
    (hall : (c.handleLines hs).1.length = hs.length) : (c.handleLines hs).2.Free := by
  induction hs generalizing c with
  | nil => exact free
  | cons h hs ih =>
    have houtcome := handleLine_outcome free h
    generalize hx : c.handleLine h = x at houtcome
    cases houtcome with
    | answered answers hfree =>
      simp only [handleLines, hx, List.length_cons, Nat.add_right_cancel_iff] at hall ⊢
      exact ih hfree hall
    | waiting waits => simp [handleLines, hx] at hall

end Console

/-- The run that a session waits for, if it waits for one. -/
def Stage.awaited? : Stage → Option RunId
  | .handling (.waiting id _) => some id
  | _ => none

namespace Session

open Console (ServesLines Proceeds Showing showing_of_fits showing_bind showing_showAll)

/-- A session has served its console's first lines and then those of its history, with one response
each. While it waits for a line, it has no response to it. -/
structure Serving (c : Console κ) (first : List String) (rs : List Response) (s : Session κ) :
    Prop where
  serves : c.ServesLines (first ++ s.history) rs s.stage.awaited? s.console
  waiting : ∀ p, s.stage = .handling p → ∃ id, p = .waiting id []

/-- What a session comes to by an act, with its reports. -/
def perform (s : Session κ) (a : Act κ) : Reported (Session κ) :=
  letI := a.code
  match a.deed with
  | .read r => s.read r
  | .advance => s.advance

/-- What a session comes to by some acts, with its reports. -/
def course (s : Session κ) : List (Act κ) → Reported (Session κ)
  | [] => pure s
  | a :: acts => do
    let s ← s.perform a
    s.course acts

variable {c : Console κ} {first : List String} {rs : List Response} {s : Session κ}

/-- A session that goes on with a line that it has come so far with. -/
theorem showing_proceed {x : Progress × Console κ} {history : List String}
    (proceeds : c.Proceeds (first ++ history) rs x) (s : Session κ) :
    Showing (Serving c first) rs ({ s with console := x.2, history }.proceed x.1) := by
  cases proceeds with
  | answered serves =>
    refine showing_showAll (showing_of_fits ⟨serves, ?_⟩)
    intro p hp
    cases hp
  | waiting serves =>
    refine showing_of_fits ⟨serves, ?_⟩
    intro p hp
    cases hp
    exact ⟨_, rfl⟩

/-- Reading takes no part in how lines are served. -/
theorem Serving.stage (h : Serving c first rs s) (hnone : s.stage.awaited? = none) {stage : Stage}
    (hstage : ∀ p, stage ≠ .handling p) : Serving c first rs { s with stage } := by
  have hawaited : stage.awaited? = none := by
    rcases stage with input | p | result
    · rfl
    · exact (hstage p rfl).elim
    · rfl
  refine ⟨?_, fun p hp => (hstage p hp).elim⟩
  have hserves := h.serves
  rw [hnone] at hserves
  simpa only [hawaited] using hserves

section Code

variable [code : Code κ]

theorem Serving.submit (h : Serving c first rs s) (hnone : s.stage.awaited? = none) (free : c.Free)
    (text : String) : Showing (Serving c first) rs (s.submit text) := by
  by_cases hblank : Text.trim text = ""
  · rw [Session.submit, if_pos hblank]
    exact showing_of_fits (h.stage hnone (by simp))
  · rw [Session.submit, if_neg hblank]
    have hserves := h.serves
    rw [hnone] at hserves
    have hproceeds := Console.proceeds_handle hserves free text
    rw [List.append_assoc] at hproceeds
    exact showing_bind _ (showing_proceed hproceeds s)

theorem Serving.interrupt (h : Serving c first rs s) (hnone : s.stage.awaited? = none)
    (free : c.Free) (unfinished : Bool) :
    Showing (Serving c first) rs (s.interrupt unfinished) := by
  obtain ⟨hs, hlines, hserves⟩ := h.serves.handled
  rw [hnone] at hserves
  have hnext :=
    hserves.aside ⟨⟨.endConversation s.console.invoker.conversationKey, code⟩, rfl⟩
  apply showing_of_fits
  rw [interrupt_value]
  exact ⟨⟨⟨hs, hlines, hnext⟩, fun _ => (hnext.free free).idle⟩, by simp⟩

theorem Serving.read (h : Serving c first rs s) (free : c.Free) (r : ReadResult) :
    Showing (Serving c first) rs (s.read r) := by
  by_cases hreading : ∃ input, s.stage = .reading input
  · obtain ⟨input, hstage⟩ := hreading
    have hnone : s.stage.awaited? = none := by rw [hstage]; rfl
    have hover (result : Except Error Unit) : Serving c first rs (s.finish result) :=
      h.stage hnone (by simp)
    cases r with
    | line text =>
      simp only [Session.read, hstage, addLine_eq]
      split
      · exact h.submit hnone free _
      · exact showing_of_fits (h.stage hnone (by simp))
    | interrupted =>
      simp only [Session.read, hstage]
      exact h.interrupt hnone free input.isSome
    | endOfInput =>
      cases input <;> simp only [Session.read, hstage] <;> exact showing_of_fits (hover _)
    | failed message =>
      simp only [Session.read, hstage]
      exact showing_of_fits (hover _)
  · apply showing_of_fits
    rwa [read_unheeded fun input hi => hreading ⟨input, hi⟩]

theorem Serving.advance (h : Serving c first rs s) (free : c.Free) :
    Showing (Serving c first) rs s.advance := by
  rcases hstage : s.stage with input | p | result
  · simp only [Session.advance, hstage]
    exact showing_of_fits h
  · obtain ⟨id, rfl⟩ := h.waiting p hstage
    have hserves := h.serves
    rw [hstage] at hserves
    simp only [Session.advance, hstage]
    exact showing_bind _ (showing_proceed (Console.proceeds_advance hserves free) s)
  · simp only [Session.advance, hstage]
    exact showing_of_fits h

end Code

theorem serving_start {d : Console κ} (serves : c.ServesLines first rs none d) :
    Serving c first rs (start d).value := by
  rw [start_value]
  refine ⟨?_, by simp⟩
  rw [List.append_nil]
  exact serves

theorem Serving.perform (h : Serving c first rs s) (free : c.Free) (a : Act κ) :
    Showing (Serving c first) rs (s.perform a) := by
  obtain ⟨deed, code⟩ := a
  cases deed with
  | read r => exact h.read free r
  | advance => exact h.advance free

/-- Whatever a host does, a session serves its lines one after another. -/
theorem Serving.course (h : Serving c first rs s) (free : c.Free) (acts : List (Act κ)) :
    Showing (Serving c first) rs (s.course acts) := by
  induction acts generalizing s rs with
  | nil => exact showing_of_fits h
  | cons a acts ih => exact (h.perform free a).bind fun rs' hnext => ih hnext

end Session
end CommandConsole
