import CommandConsole.Proofs.Line.Places
import CommandConsole.Proofs.Line.Solid

/-! Texts that are a word by themselves, and lines that begin with one. -/
namespace CommandConsole.Line

open Text Delimiters

/-- A text that is its own only word, with all its delimiters in order. -/
def OneWord (text : String) : Prop := cut text = ⟨[⟨text, 0⟩], none⟩

/-- A text that ends the word before it: it is empty, or white space comes first. -/
def Apart (tail : String) : Prop := ∀ c ∈ tail.toList.head?, isBlank c = true

variable {s t : Cut} {past rest a : List Char} {ws : List Word} {text tail : String} {c : Char}
  {e : ScanError}

/-- Two cuts in progress that have made the same of different lines. -/
structure Resembles (s t : Cut) : Prop where
  words : s.words = t.words
  word : s.word = t.word
  delimiters : s.delimiters = t.delimiters

theorem Resembles.refl (s : Cut) : Resembles s s := ⟨rfl, rfl, rfl⟩

theorem Resembles.words_endWord (h : Resembles s t) : s.endWord.words = t.endWord.words := by
  simp only [Cut.endWord, h.word]
  split
  · exact h.words
  · rw [h.words]

theorem word_endWord (s : Cut) : s.endWord.word = none := by
  simp only [Cut.endWord]
  split
  · assumption
  · rfl

theorem Resembles.endWord (h : Resembles s t) : Resembles s.endWord t.endWord := by
  refine ⟨h.words_endWord, ?_, ?_⟩
  · rw [word_endWord, word_endWord]
  · rw [delimiters_endWord, delimiters_endWord, h.delimiters]

theorem closed_delimiters_iff : s.delimiters.Closed ↔ s.quote = none ∧ s.openers = [] := by
  simp [Closed, Cut.delimiters]

/-- What comes later in the line is only quoted in messages. -/
theorem Resembles.step (h : Resembles s t) (c : Char) (rest rest' : List Char) (position : Nat) :
    Resembles (s.step c rest position) (t.step c rest' position) := by
  have hopen : s.quote = none ∧ s.openers = [] ↔ t.quote = none ∧ t.openers = [] := by
    rw [← closed_delimiters_iff, ← closed_delimiters_iff, h.delimiters]
  have hdelimiters :
      (s.step c rest position).delimiters = (t.step c rest' position).delimiters := by
    rw [delimiters_step, delimiters_step, h.delimiters]
  rcases step_cases s c rest position with ⟨hq, ho, hc, hs⟩ | ⟨hkept, hwords, hword⟩
  · rcases step_cases t c rest' position with ⟨-, -, -, ht⟩ | ⟨hkept, -, -⟩
    · rw [hs, ht]
      exact h.endWord
    · exact absurd (hopen.mp ⟨hq, ho⟩) (hkept hc)
  · rcases step_cases t c rest' position with ⟨hq, ho, hc, -⟩ | ⟨-, hwords', hword'⟩
    · exact absurd (hopen.mpr ⟨hq, ho⟩) (hkept hc)
    · refine ⟨?_, ?_, hdelimiters⟩
      · rw [hwords, hwords', h.words]
      · rw [hword, hword', Cut.keep, Cut.keep, h.word]
        split <;> rfl

/-- A line is cut up to some place as the text up to there is cut by itself. -/
theorem Resembles.run (h : Resembles s t) (position : Nat) (a rest : List Char) :
    ∃ next, s.run position (a ++ rest) = next.run (position + width a) rest ∧
      Resembles next (t.run position a) := by
  induction a generalizing s t position with
  | nil => exact ⟨s, rfl, h⟩
  | cons c a ih =>
    obtain ⟨next, hrun, hnext⟩ := ih (h.step c (a ++ rest) a position) (position + c.utf8Size)
    refine ⟨next, ?_, hnext⟩
    rw [List.cons_append, Cut.run, hrun, width, Nat.add_assoc]

theorem OneWord.problem (h : OneWord text) : (cut text).problem = none := congrArg Pieces.problem h

/-- Whatever comes after a word and its white space, the word stands first in the line, and no
trouble lies in it. -/
theorem OneWord.cut_append (h : OneWord text) (apart : Apart tail) :
    (∃ words, (cut (text ++ tail)).words = ⟨text, 0⟩ :: words) ∧
      (cut (text ++ tail)).problem.filter (·.position < (⟨text, 0⟩ : Word).stop) = none := by
  obtain ⟨next, hrun, hnext⟩ := (Resembles.refl .initial).run 0 text.toList tail.toList
  have hwords : next.endWord.words = [⟨text, 0⟩] := by
    rw [hnext.words_endWord]
    exact List.reverse_eq_iff.mp (congrArg Pieces.words h)
  have hclosed : next.quote = none ∧ next.openers = [] := by
    rw [← closed_delimiters_iff, hnext.delimiters, problem_eq_none_iff.mp h.problem]
    exact ⟨rfl, rfl⟩
  have hcut : (cut (text ++ tail)).words =
      (next.run (0 + width text.toList) tail.toList).endWord.words.reverse := by
    rw [cut, String.toList_append, hrun]
  have hfirst : ∃ words, (cut (text ++ tail)).words = ⟨text, 0⟩ :: words := by
    rw [hcut]
    cases htail : tail.toList with
    | nil => exact ⟨[], by rw [Cut.run, hwords]; rfl⟩
    | cons c rest =>
      have hblank : isBlank c = true := apart c (by rw [htail]; rfl)
      have hstep : next.step c rest (0 + width text.toList) = next.endWord := by
        simp [Cut.step, hclosed, hblank]
      obtain ⟨later, hlater⟩ :=
        words_run_suffix next.endWord (0 + width text.toList + c.utf8Size) rest
      refine ⟨later.reverse, ?_⟩
      rw [Cut.run, hstep, ← hlater, hwords, List.reverse_append]
      rfl
  obtain ⟨words, hfirst⟩ := hfirst
  exact ⟨⟨words, hfirst⟩, trouble_after_head hfirst h.problem⟩

/-- A text that is the first word of its own line, without trouble in it, is all of that line. -/
theorem oneWord_of_head (h : (cut text).words = ⟨text, 0⟩ :: ws)
    (clear : (cut text).problem.filter (·.position < (⟨text, 0⟩ : Word).stop) = none) :
    OneWord text := by
  have hstop : (⟨text, 0⟩ : Word).stop = width text.toList := Nat.zero_add _
  have hws : ws = [] := by
    apply List.eq_nil_iff_forall_not_mem.mpr
    intro w hw
    have apart := cut_apart text
    rw [h, List.pairwise_cons] at apart
    have hlate := apart.1 w hw
    obtain ⟨before, after, hline, hstart, c, hc, -⟩ :=
      stands_of_mem_cut (h ▸ List.mem_cons_of_mem _ hw)
    obtain ⟨r, hr⟩ := List.head?_eq_some_iff.mp hc
    have hsize := c.utf8Size_pos
    have hwidth := congrArg width hline
    rw [hr, width_append, width_append, width] at hwidth
    omega
  have hproblem : (cut text).problem = none := by
    apply Option.eq_none_iff_forall_ne_some.mpr
    intro e he
    have hinside := Option.filter_eq_none_iff.mp clear e he
    rw [hstop, decide_eq_true_eq] at hinside
    exact hinside (position_lt_of_problem he)
  rw [OneWord, ← hproblem, ← hws, ← h]

end CommandConsole.Line
