import CommandConsole.Proofs.Line.Trouble

/-! Errors point at the text that they show: the trouble of a line, which shows all of the line from
where it lies. -/
namespace CommandConsole

open Text

/-- A byte position at which a character of a text begins, or at which the text ends. -/
def Text.IsPlace (s : List Char) (n : Nat) : Prop :=
  ∃ before after, s = before ++ after ∧ width before = n

theorem Text.IsPlace.le_width {s : List Char} {n : Nat} (h : IsPlace s n) : n ≤ width s := by
  obtain ⟨before, after, rfl, rfl⟩ := h
  rw [width_append]
  omega

/-- An error shows some of a line, beginning where it lies. -/
def ScanError.Shows (e : ScanError) (line : List Char) : Prop :=
  ∃ before after, line = before ++ e.fragment.toList ++ after ∧ width before = e.position ∧
    e.fragment ≠ ""

theorem ScanError.Shows.place {e : ScanError} {line : List Char} (h : e.Shows line) :
    IsPlace line e.position := by
  obtain ⟨before, after, hline, hposition, -⟩ := h
  exact ⟨before, e.fragment.toList ++ after, by rw [hline, List.append_assoc], hposition⟩

namespace Line

theorem Stands.place {line : List Char} {w : Word} (h : Stands line w) : IsPlace line w.stop := by
  obtain ⟨before, after, hline, hstart, -⟩ := h
  exact ⟨before ++ w.text.toList, after, hline, by rw [width_append, hstart, Word.stop]⟩

variable {s : Cut} {past rest line : List Char} {c : Char} {o : Opening} {e : ScanError}
  {problem : ScanProblem}

/-- Everything that is recorded of delimiters says where in the line it was met. -/
structure Placed (s : Cut) (line : List Char) : Prop where
  stray : ∀ e, s.stray = some e → ∃ before c rest, line = before ++ c :: rest ∧ c ∈ [']', '}'] ∧
    e = .here (.unexpected c) (c :: rest) (width before)
  opening : ∀ o, s.quote = some o ∨ o ∈ s.openers → ∃ before c rest, line = before ++ c :: rest ∧
    o = ⟨c, width before, c :: rest⟩

theorem placed_initial (line : List Char) : Placed .initial line := by
  refine ⟨?_, ?_⟩
  · intro e h
    cases h
  · rintro o (h | h)
    · cases h
    · cases h

theorem Placed.step (h : Placed s line) (hline : line = past ++ c :: rest) :
    Placed (s.step c rest (width past)) line := by
  have marks := marks_step s c rest (width past)
  refine ⟨?_, ?_⟩
  · intro e he
    rcases marks.stray with hold | ⟨-, hc, hnew⟩
    · exact h.stray e (hold ▸ he)
    · rw [hnew] at he
      injection he with he
      exact ⟨past, c, rest, hline, hc, he.symm⟩
  · intro o ho
    have hcases : (s.quote = some o ∨ o ∈ s.openers) ∨ o = ⟨c, width past, c :: rest⟩ := by
      rcases ho with ho | ho
      · exact (marks.quote o ho).imp_left .inl
      · exact (marks.openers o ho).imp_left .inr
    rcases hcases with hold | hnew
    · exact h.opening o hold
    · exact ⟨past, c, rest, hline, hnew⟩

theorem Placed.run (h : Placed s line) (hline : line = past ++ rest) :
    Placed (s.run (width past) rest) line := by
  induction rest generalizing s past with
  | nil => exact h
  | cons c rest ih =>
    have hpast : line = (past ++ [c]) ++ rest := by simp [hline]
    have hnext := ih (h.step hline) hpast
    have hwidth : width (past ++ [c]) = width past + c.utf8Size := by simp [width]
    rw [hwidth] at hnext
    exact hnext

theorem placed_cut (line : String) : Placed (Cut.initial.run 0 line.toList) line.toList := by
  have nothing : line.toList = [] ++ line.toList := rfl
  exact (placed_initial line.toList).run nothing

/-- The trouble of a line is a closer that fits no opener, or else an opener that was never closed;
either is met where the error says. -/
theorem exists_place_of_problem {line : String} (h : (cut line).problem = some e) :
    ∃ before c rest problem, line.toList = before ++ c :: rest ∧
      e = .here problem (c :: rest) (width before) ∧
      (problem = .unexpected c ∧ c ∈ [']', '}'] ∨ ∃ opener, problem = .unterminated opener) := by
  rcases problem_cases h with hstray | ⟨-, o, ho, opener, he⟩
  · obtain ⟨before, c, rest, hline, hc, he⟩ := (placed_cut line).stray e hstray
    exact ⟨before, c, rest, _, hline, he, .inl ⟨rfl, hc⟩⟩
  · obtain ⟨before, c, rest, hline, rfl⟩ := (placed_cut line).opening o ho
    exact ⟨before, c, rest, _, hline, he, .inr ⟨opener, rfl⟩⟩

/-- The trouble of a line lies in it. -/
theorem position_lt_of_problem {line : String} (h : (cut line).problem = some e) :
    e.position < width line.toList := by
  obtain ⟨before, c, rest, problem, hline, rfl, -⟩ := exists_place_of_problem h
  have hsize := c.utf8Size_pos
  change width before < width line.toList
  rw [hline, width_append, width]
  omega

/-- An error in the midst of a text shows the text from there on. -/
theorem shows_here (before after : List Char) (problem : ScanProblem) (hrest : rest ≠ []) :
    (ScanError.here problem rest (width before)).Shows (before ++ rest ++ after) := by
  refine ⟨before, after, ?_, rfl, ?_⟩
  · simp [ScanError.here, hrest]
  · simp [ScanError.here, hrest]

theorem shows_of_problem {line : String} (h : (cut line).problem = some e) :
    e.Shows line.toList := by
  obtain ⟨before, c, rest, problem, hline, rfl, -⟩ := exists_place_of_problem h
  have hshows := shows_here before [] problem (List.cons_ne_nil c rest)
  rwa [List.append_nil, ← hline] at hshows

end Line
end CommandConsole
