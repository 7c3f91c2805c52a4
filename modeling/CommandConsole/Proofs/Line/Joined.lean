import CommandConsole.Proofs.Line.Beginnings
import CommandConsole.Proofs.Token.Offset

/-! Cutting is compositional: behind a text without trouble and some white space, any text is cut as
it is by itself, only further on in the line. -/
namespace CommandConsole

open Text

/-- The same word of a text that begins `n` bytes later. -/
def Word.shift (n : Nat) (w : Word) : Word := { w with start := w.start + n }

namespace Line

open Delimiters

/-- The same opening of a text that begins `n` bytes later. -/
def Opening.shift (n : Nat) (o : Opening) : Opening := { o with position := o.position + n }

/-- The cut of a text that begins `n` bytes later, behind words that are finished. -/
def Cut.shift (n : Nat) (earlier : List Word) (s : Cut) : Cut where
  words := s.words.map (Word.shift n) ++ earlier
  word := s.word.map fun begun => (begun.1 + n, begun.2)
  quote := s.quote.map (Opening.shift n)
  openers := s.openers.map (Opening.shift n)
  stray := s.stray.map (ScanError.shift n)

variable {s : Cut} {a gap : String} (n : Nat) (earlier : List Word)

theorem endWord_shift (s : Cut) : (s.shift n earlier).endWord = s.endWord.shift n earlier := by
  cases hs : s.word with
  | none => simp [Cut.endWord, Cut.shift, hs]
  | some begun => simp [Cut.endWord, Cut.shift, hs, Word.shift]

theorem keep_shift (s : Cut) (c : Char) (position : Nat) :
    (s.shift n earlier).keep c (position + n) = (s.keep c position).shift n earlier := by
  cases hs : s.word with
  | none => simp [Cut.keep, Cut.shift, hs]
  | some begun => simp [Cut.keep, Cut.shift, hs]

/-- The first stray closer is the first one wherever the text stands. -/
theorem stray_shift (s : Cut) (problem : ScanProblem) (rest : List Char) (position : Nat) :
    ((s.shift n earlier).stray <|> some (.here problem rest (position + n))) =
      (s.stray <|> some (ScanError.here problem rest position)).map (ScanError.shift n) := by
  cases hs : s.stray with
  | none => simp [Cut.shift, hs, ScanError.shift, ScanError.here]
  | some e => simp [Cut.shift, hs]

theorem close_shift (s : Cut) (opener c : Char) (rest : List Char) (position : Nat) :
    (s.shift n earlier).close opener c rest (position + n) =
      (s.close opener c rest position).shift n earlier := by
  have hstray := stray_shift n earlier s (.unexpected c) (c :: rest) position
  cases ho : s.openers with
  | nil =>
    have hshifted : (s.shift n earlier).openers = [] := by simp [Cut.shift, ho]
    simp only [Cut.close, ho, hshifted, hstray]
    simp [Cut.shift, ho]
  | cons o r =>
    have hshifted : (s.shift n earlier).openers = o.shift n :: r.map (Opening.shift n) := by
      simp [Cut.shift, ho]
    have hdelimiter : (o.shift n).delimiter = o.delimiter := rfl
    simp only [Cut.close, ho, hshifted, hstray, hdelimiter]
    split
    · rfl
    · rfl

theorem step_shift (s : Cut) (c : Char) (rest : List Char) (position : Nat) :
    (s.shift n earlier).step c rest (position + n) = (s.step c rest position).shift n earlier := by
  have hquote : (s.shift n earlier).quote.isSome = s.quote.isSome := by simp [Cut.shift]
  have hopeners : (s.shift n earlier).openers = [] ↔ s.openers = [] := by simp [Cut.shift]
  simp only [Cut.step, hquote, hopeners, keep_shift, endWord_shift]
  split
  · split
    · rfl
    · rfl
  · split
    · rfl
    · split
      · rfl
      · rfl
      · rfl
      · exact close_shift n earlier _ '[' _ rest position
      · exact close_shift n earlier _ '{' _ rest position
      · rfl

theorem run_shift (s : Cut) (position : Nat) (rest : List Char) :
    (s.shift n earlier).run (position + n) rest = (s.run position rest).shift n earlier := by
  induction rest generalizing s position with
  | nil => rfl
  | cons c rest ih =>
    rw [Cut.run, step_shift, Nat.add_right_comm, ih]
    rfl

theorem problem_shift (s : Cut) :
    (s.shift n earlier).problem = s.problem.map (ScanError.shift n) := by
  have hlast : (s.shift n earlier).openers.getLast? = s.openers.getLast?.map (Opening.shift n) := by
    simp [Cut.shift]
  simp only [Cut.problem, hlast]
  cases hs : s.stray with
  | some e => simp [Cut.shift, hs]
  | none =>
    cases hq : s.quote with
    | some q => simp [Cut.shift, hs, hq, ScanError.shift, ScanError.here, Opening.shift]
    | none =>
      cases ho : s.openers.getLast? with
      | some o => simp [Cut.shift, hs, hq, ScanError.shift, ScanError.here, Opening.shift]
      | none => simp [Cut.shift, hs, hq]

/-- Behind finished words, with nothing open and no closer stray, a cut begins anew. -/
theorem eq_shift_of_between (hword : s.word = none) (hdelimiters : s.delimiters = settled) :
    s = Cut.initial.shift n s.words := by
  obtain ⟨words, word, quote, openers, stray⟩ := s
  simp only [Cut.delimiters, settled, Delimiters.mk.injEq] at hdelimiters
  obtain ⟨hquote, hopeners, hstray⟩ := hdelimiters
  obtain rfl : word = none := hword
  obtain rfl : quote = none := by simpa using hquote
  obtain rfl : openers = [] := by simpa using hopeners
  obtain rfl : stray = none := by simpa using hstray
  rfl

/-- White space behind a text without trouble brings a cut back to where it began, with the words
of that text finished. -/
theorem run_joined (h : (cut a).problem = none) (hgap : Blank gap.toList) (hne : gap ≠ "")
    (rest : List Char) :
    Cut.initial.run 0 (a.toList ++ (gap.toList ++ rest)) =
      (Cut.initial.shift (width (a ++ gap).toList) (cut a).words.reverse).run
        (width (a ++ gap).toList) rest := by
  obtain ⟨next, hrun, hnext⟩ :=
    (Resembles.refl .initial).run 0 a.toList (gap.toList ++ rest)
  have hwords : next.endWord.words = (cut a).words.reverse := by
    rw [hnext.words_endWord, cut, List.reverse_reverse]
  have hsettled : next.delimiters = settled :=
    hnext.delimiters.trans (problem_eq_none_iff.mp h)
  obtain ⟨hquote, hopeners⟩ : next.quote = none ∧ next.openers = [] := by
    rw [← closed_delimiters_iff, hsettled]
    exact ⟨rfl, rfl⟩
  obtain ⟨hendQuote, hendOpeners, -⟩ := trouble_endWord next
  have hend := eq_shift_of_between (width (a ++ gap).toList) (word_endWord next)
    ((delimiters_endWord next).trans hsettled)
  have hlater : next.run (width a.toList) (gap.toList ++ rest) =
      next.endWord.run (width (a ++ gap).toList) rest := by
    cases hg : gap.toList with
    | nil => exact absurd (by simpa using hg) hne
    | cons c blanks =>
      rw [hg] at hgap
      have hstep : next.step c (blanks ++ rest) (width a.toList) = next.endWord := by
        simp [Cut.step, hquote, hopeners, hgap c List.mem_cons_self]
      have hblanks : Blank blanks := fun d hd => hgap d (List.mem_cons_of_mem c hd)
      rw [List.cons_append, Cut.run, hstep, run_blank (word_endWord next)
        (hendQuote.trans hquote) (hendOpeners.trans hopeners) hblanks, String.toList_append, hg,
        width_append, width, Nat.add_assoc]
  rw [hrun, Nat.zero_add, hlater, ← hwords, ← hend]

/-- Behind a text without trouble and some white space, a text is cut as it is by itself, so much
further on: the words are those of both, and the trouble is that of the later one. -/
theorem cut_of_joined (h : (cut a).problem = none) (hgap : Blank gap.toList) (hne : gap ≠ "")
    (b : String) :
    (cut (a ++ gap ++ b)).words =
        (cut a).words ++ (cut b).words.map (Word.shift (width (a ++ gap).toList)) ∧
      (cut (a ++ gap ++ b)).problem =
        (cut b).problem.map (ScanError.shift (width (a ++ gap).toList)) := by
  have hrun : Cut.initial.run 0 (a ++ gap ++ b).toList =
      (Cut.initial.run 0 b.toList).shift (width (a ++ gap).toList) (cut a).words.reverse := by
    rw [← run_shift, Nat.zero_add, ← run_joined h hgap hne]
    simp [String.toList_append]
  refine ⟨?_, ?_⟩
  · simp only [cut, hrun, endWord_shift]
    simp [Cut.shift, List.map_reverse]
  · simp only [cut, hrun, problem_shift]

/-- Two words before a gap of four bytes, and trouble behind it. -/
theorem cut_joined_to_stray_closer :
    let a := "é [x y]"
    let gap := " \u2003"
    let b := "z\x7d \"w"
    (cut a).problem = none ∧ Blank gap.toList ∧ gap ≠ "" ∧
      (cut (a ++ gap ++ b)).words = [⟨"é", 0⟩, ⟨"[x y]", 3⟩, ⟨"z\x7d", 12⟩, ⟨"\"w", 15⟩] ∧
      (cut (a ++ gap ++ b)).problem = some ⟨.unexpected '}', "\x7d \"w", 13⟩ := by
  intro a gap b
  have ha : (cut a).problem = none := by decide +kernel
  have hgap : Blank gap.toList := List.all_eq_true.mp (by decide)
  have hne : gap ≠ "" := by decide
  obtain ⟨hwords, hproblem⟩ := cut_of_joined ha hgap hne b
  refine ⟨ha, hgap, hne, hwords.trans ?_, hproblem.trans ?_⟩
  · decide +kernel
  · decide +kernel

end Line
end CommandConsole
