import CommandConsole.Proofs.Line.Trouble

/-! A line is its words and the white space between them: whatever its delimiters, cutting it loses
nothing. White space belongs to a word exactly if a delimiter is open at it. -/
namespace CommandConsole

/-- A word covers the bytes from its start on, up to its stop. -/
def Word.Covers (w : Word) (n : Nat) : Prop := w.start ≤ n ∧ n < w.stop

namespace Line

open Text Delimiters

/-- A byte lies in one of the words made so far, the one in progress included. -/
def Cut.Covers (s : Cut) (n : Nat) : Prop := ∃ w ∈ s.endWord.words, w.Covers n

variable {s t : Cut} {past line : List Char} {v w : Word} {earlier later : List Word} {c : Char}
  {n position start : Nat} {chars : List Char}

theorem covers_of_begun (h : s.word = some (start, chars)) :
    s.Covers n ↔ start ≤ n ∧ n < start + width chars.reverse ∨ ∃ w ∈ s.words, w.Covers n := by
  simp [Cut.Covers, Cut.endWord, h, Word.Covers, Word.stop]

theorem covers_of_between (h : s.word = none) : s.Covers n ↔ ∃ w ∈ s.words, w.Covers n := by
  simp [Cut.Covers, Cut.endWord, h]

theorem covers_endWord (s : Cut) (n : Nat) : s.endWord.Covers n ↔ s.Covers n := by
  cases h : s.word with
  | none => simp [Cut.endWord, h]
  | some begun => simp [Cut.Covers, Cut.endWord, h]

/-- No byte is covered that has not been passed. -/
theorem Tidy.lt_of_covers (h : Tidy s past) (covers : s.Covers n) : n < width past := by
  obtain ⟨w, hw, -, hlt⟩ := covers
  exact Nat.lt_of_lt_of_le hlt (h.spaced_endWord.2 w hw)

/-- A character that is kept is covered, and changes nothing for those before. -/
theorem Tidy.covers_kept (h : Tidy s past) (hwords : t.words = s.words)
    (hword : t.word = (s.keep c (width past)).word) :
    t.Covers (width past) ∧ ∀ n, n < width past → (t.Covers n ↔ s.Covers n) := by
  have hsize := c.utf8Size_pos
  cases hs : s.word with
  | none =>
    have ht : t.word = some (width past, [c]) := by
      rw [hword, Cut.keep, hs]
    rw [covers_of_begun ht]
    refine ⟨.inl ⟨Nat.le_refl _, by simp [width, hsize]⟩, ?_⟩
    intro n hn
    rw [covers_of_begun ht, covers_of_between hs, hwords]
    simp [Nat.not_le.mpr hn]
  | some begun =>
    obtain ⟨start, chars⟩ := begun
    have ht : t.word = some (start, c :: chars) := by
      rw [hword, Cut.keep, hs]
    obtain ⟨before, hpast, hstart, -⟩ := h.follows.within start chars hs
    have hend : width past = start + width chars.reverse := by
      rw [hpast, width_append, hstart]
    have hlonger : width (c :: chars).reverse = width chars.reverse + c.utf8Size := by
      simp [width]
    rw [covers_of_begun ht]
    refine ⟨.inl ⟨by omega, by omega⟩, ?_⟩
    intro n hn
    rw [covers_of_begun ht, covers_of_begun hs, hwords]
    have hrange : start ≤ n ∧ n < start + width (c :: chars).reverse ↔
        start ≤ n ∧ n < start + width chars.reverse := by
      omega
    rw [hrange]

/-- Of what a cut has passed, it covers all but the white space at which nothing was open. -/
structure Covering (s : Cut) (past : List Char) : Prop where
  tidy : Tidy s past
  covers_iff : ∀ before c after, past = before ++ c :: after →
    (s.Covers (width before) ↔ (isBlank c = true → ¬ (settled.reads before).Closed))

theorem covering_initial : Covering .initial [] := by
  refine ⟨tidy_initial, ?_⟩
  intro before c after h
  simp at h

/-- A character of a text that has grown by one is the new one, or one of those before. -/
theorem last_or_earlier {before after : List Char} {d : Char}
    (h : past ++ [c] = before ++ d :: after) :
    past = before ∧ c = d ∨ ∃ others, past = before ++ d :: others := by
  rcases List.eq_nil_or_concat after with rfl | ⟨others, e, rfl⟩
  · obtain ⟨hpast, hc⟩ := List.append_inj' h rfl
    exact .inl ⟨hpast, List.singleton_inj.mp hc⟩
  · have h' : past ++ [c] = (before ++ d :: others) ++ [e] := by simpa using h
    exact .inr ⟨others, (List.append_inj' h' rfl).1⟩

/-- The character that is passed is covered unless it is white space and nothing is open. -/
theorem Tidy.covers_passed_iff (h : Tidy s past) (c : Char) (rest : List Char) :
    (s.step c rest (width past)).Covers (width past) ↔
      (isBlank c = true → ¬ (settled.reads past).Closed) := by
  have hclosed : (settled.reads past).Closed ↔ s.quote = none ∧ s.openers = [] := by
    rw [← h.delimiters]
    simp [Delimiters.Closed, Cut.delimiters]
  rw [hclosed]
  rcases step_cases s c rest (width past) with ⟨hq, ho, hc, hs⟩ | ⟨hopen, hwords, hword⟩
  · rw [hs, covers_endWord]
    refine iff_of_false ?_ fun hcovers => hcovers hc ⟨hq, ho⟩
    intro covers
    exact absurd (h.lt_of_covers covers) (Nat.lt_irrefl _)
  · exact iff_of_true (h.covers_kept hwords hword).1 hopen

theorem Tidy.covers_earlier_iff (h : Tidy s past) (c : Char) (rest : List Char)
    (hn : n < width past) : (s.step c rest (width past)).Covers n ↔ s.Covers n := by
  rcases step_cases s c rest (width past) with ⟨-, -, -, hs⟩ | ⟨-, hwords, hword⟩
  · rw [hs, covers_endWord]
  · exact (h.covers_kept hwords hword).2 n hn

theorem Covering.step (h : Covering s past) (c : Char) (rest : List Char) :
    Covering (s.step c rest (width past)) (past ++ [c]) := by
  refine ⟨h.tidy.step c rest, ?_⟩
  intro before d after hsplit
  rcases last_or_earlier hsplit with ⟨rfl, rfl⟩ | ⟨others, hpast⟩
  · exact h.tidy.covers_passed_iff c rest
  · have hlt : width before < width past := by
      have hsize := d.utf8Size_pos
      rw [hpast, width_append, width]
      omega
    rw [h.tidy.covers_earlier_iff c rest hlt]
    exact h.covers_iff before d others hpast

theorem covering_run (line : List Char) : Covering (Cut.initial.run 0 line) line :=
  run_keeps (fun _ _ c rest h => h.step c rest) covering_initial line

/-- A character of a line lies in a word exactly if it is no white space or something is open at
it. -/
theorem covers_cut_iff {line : String} {before after : List Char}
    (h : line.toList = before ++ c :: after) :
    (∃ w ∈ (cut line).words, w.Covers (width before)) ↔
      (isBlank c = true → ¬ (settled.reads before).Closed) := by
  rw [← (covering_run line.toList).covers_iff before c after h]
  simp [cut, Cut.Covers]

/-- Between neighbours stands what neither of them holds. -/
theorem Laid.neighbours (h : Laid line (later ++ w :: v :: earlier)) :
    ∃ before gap after, line = before ++ v.text.toList ++ gap ++ w.text.toList ++ after ∧
      width before = v.start ∧ w.start = v.stop + width gap ∧ Blank gap := by
  induction later generalizing line with
  | nil =>
    cases h with
    | @word past body behind ws before nonempty first after =>
      cases before with
      | @word start text gap ws before nonempty' first' hgap =>
        refine ⟨start, gap, behind, ?_, rfl, ?_, hgap⟩
        · simp
        · simp [Word.stop, Nat.add_assoc]
  | cons u later ih =>
    cases h with
    | @word past body behind ws before nonempty first after =>
      obtain ⟨start, gap, rest, hpast, hstart, hstop, hgap⟩ := ih before
      refine ⟨start, gap, rest ++ (body ++ behind), ?_, hstart, hstop, hgap⟩
      rw [hpast]
      simp

/-- Between neighbours in a cut stands white space, and some of it. -/
theorem neighbours_of_cut {line : String} (h : [v, w] <:+: (cut line).words) :
    ∃ before gap after,
      line.toList = before ++ v.text.toList ++ gap ++ w.text.toList ++ after ∧
      width before = v.start ∧ width (before ++ v.text.toList ++ gap) = w.start ∧
      gap ≠ [] ∧ Blank gap := by
  obtain ⟨earlier, later, hwords⟩ := h
  have hreverse : (cut line).words.reverse = later.reverse ++ w :: v :: earlier.reverse := by
    rw [← hwords]
    simp
  have laid := laid_cut line
  rw [hreverse] at laid
  obtain ⟨before, gap, after, hline, hstart, hstop, hgap⟩ := laid.neighbours
  refine ⟨before, gap, after, hline, hstart, ?_, ?_, hgap⟩
  · rw [width_append, width_append, hstart, hstop, Word.stop]
  · rintro rfl
    have spaced := cut_spaced line
    rw [← hwords, List.append_assoc] at spaced
    have hlt := (List.pairwise_cons.mp (List.pairwise_append.mp spaced).2.1).1 w (by simp)
    rw [hstop, width] at hlt
    omega

/-- The words of any line stand in it one behind the other, each of them beginning with no white
space. Outside of them there is nothing but white space, some of it between any two neighbours, and
white space lies in a word exactly if a delimiter is open at it. -/
theorem cut_loses_nothing (line : String) :
    (cut line).words.Pairwise (fun v w => v.stop < w.start) ∧
    (∀ w ∈ (cut line).words, ∃ before c rest after, w.text.toList = c :: rest ∧ isBlank c = false ∧
      line.toList = before ++ w.text.toList ++ after ∧ width before = w.start ∧
      width (before ++ w.text.toList) = w.stop) ∧
    (∀ v w, [v, w] <:+: (cut line).words → ∃ before gap after,
      line.toList = before ++ v.text.toList ++ gap ++ w.text.toList ++ after ∧
      width before = v.start ∧ width (before ++ v.text.toList ++ gap) = w.start ∧
      gap ≠ [] ∧ Blank gap) ∧
    ∀ before c after, line.toList = before ++ c :: after →
      ((∀ w ∈ (cut line).words, ¬ w.Covers (width before)) → isBlank c = true) ∧
      (isBlank c = true → ((∃ w ∈ (cut line).words, w.Covers (width before)) ↔
        ¬ (settled.reads before).Closed)) := by
  refine ⟨cut_spaced line, ?_, fun v w => neighbours_of_cut, ?_⟩
  · intro w hw
    obtain ⟨before, after, hline, hstart, c, hc, hblank⟩ := stands_of_mem_cut hw
    obtain ⟨rest, hrest⟩ := List.head?_eq_some_iff.mp hc
    refine ⟨before, c, rest, after, hrest, hblank, hline, hstart, ?_⟩
    rw [width_append, hstart, Word.stop]
  · intro before c after hsplit
    have hcovers := covers_cut_iff hsplit
    refine ⟨?_, ?_⟩
    · intro outside
      by_contra hnot
      obtain ⟨w, hw, covers⟩ := hcovers.mpr fun hblank => absurd hblank hnot
      exact outside w hw covers
    · intro hblank
      rw [hcovers]
      exact ⟨fun h => h hblank, fun h _ => h⟩

/-- A stray closer leaves the bracket before it open, so that the white space after it belongs to the
word, up to the end of the line. -/
theorem open_bracket_covers_rest :
    let line := "é [x\x7d y"
    let v : Word := ⟨"é", 0⟩
    let w : Word := ⟨"[x\x7d y", 3⟩
    let before := ['é', ' ', '[', 'x', '}']
    (cut line).words = [v, w] ∧
      (∃ before gap after, line.toList = before ++ v.text.toList ++ gap ++ w.text.toList ++ after ∧
        width before = v.start ∧ width (before ++ v.text.toList ++ gap) = w.start ∧
        gap ≠ [] ∧ Blank gap) ∧
      line.toList = before ++ ' ' :: ['y'] ∧
      ((∃ w ∈ (cut line).words, w.Covers (width before)) ↔ ¬ (settled.reads before).Closed) := by
  intro line v w before
  have hwords : (cut line).words = [v, w] := by decide +kernel
  have together : [v, w] <:+: (cut line).words := hwords ▸ List.infix_refl _
  have hsplit : line.toList = before ++ ' ' :: ['y'] := by decide
  obtain ⟨-, -, hneighbours, hcovered⟩ := cut_loses_nothing line
  obtain ⟨-, hcovers⟩ := hcovered before ' ' ['y'] hsplit
  exact ⟨hwords, hneighbours v w together, hsplit, hcovers rfl⟩

end Line
end CommandConsole
