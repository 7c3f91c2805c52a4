import Mathlib.Data.List.Basic
import CommandConsole.Line.Words
import CommandConsole.Proofs.Text.Blank

/-! Where the words of a line stand in it. -/
namespace CommandConsole.Line

open Text

/-- A text made of words, the last first, with white space around them. -/
inductive Laid : List Char → List Word → Prop where
  | blank {s : List Char} (h : Blank s) : Laid s []
  | word {past body gap : List Char} {ws : List Word} (before : Laid past ws) (nonempty : body ≠ [])
      (first : ∀ c ∈ body.head?, isBlank c = false) (after : Blank gap) :
      Laid (past ++ body ++ gap) (⟨String.ofList body, width past⟩ :: ws)

/-- A word stands in a line where its position says. -/
def Stands (line : List Char) (w : Word) : Prop :=
  ∃ before after, line = before ++ w.text.toList ++ after ∧ width before = w.start ∧
    ∃ c ∈ w.text.toList.head?, isBlank c = false

variable {s : Cut} {past rest body gap line : List Char} {ws : List Word} {w : Word} {c : Char}

theorem Laid.append (h : Laid past ws) (hgap : Blank gap) : Laid (past ++ gap) ws := by
  cases h with
  | blank h => exact .blank (h.append hgap)
  | word before nonempty first after =>
    rw [List.append_assoc]
    exact .word before nonempty first (after.append hgap)

theorem Laid.stands (h : Laid line ws) : ∀ w ∈ ws, Stands line w := by
  induction h with
  | blank h =>
    intro w hw
    cases hw
  | @word past body gap ws before nonempty first after ih =>
    intro w hw
    rcases List.mem_cons.mp hw with rfl | hw
    · cases body with
      | nil => exact absurd rfl nonempty
      | cons c body =>
        refine ⟨past, gap, by simp, rfl, c, by simp, first c rfl⟩
    · obtain ⟨before, after, hpast, hstart, hfirst⟩ := ih w hw
      refine ⟨before, after ++ (body ++ gap), ?_, hstart, hfirst⟩
      rw [hpast]
      simp

/-- No word begins before the end of an earlier one. -/
theorem Laid.apart (h : Laid line ws) : ws.Pairwise fun w v => v.stop ≤ w.start := by
  induction h with
  | blank h => exact .nil
  | @word past body gap ws before nonempty first after ih =>
    refine List.pairwise_cons.mpr ⟨?_, ih⟩
    intro v hv
    obtain ⟨b, a, hpast, hstart, -⟩ := before.stands v hv
    simp only [Word.stop, ← hstart, hpast, width_append]
    omega

/-- What a cut in progress has made of the text that it has passed: a word is begun wherever a
delimiter is open. -/
structure Follows (s : Cut) (past : List Char) : Prop where
  closed : s.word = none → s.quote = none ∧ s.openers = []
  between : s.word = none → Laid past s.words
  within : ∀ start chars, s.word = some (start, chars) →
    ∃ before, past = before ++ chars.reverse ∧ width before = start ∧ Laid before s.words ∧
      chars ≠ [] ∧ ∀ c ∈ chars.reverse.head?, isBlank c = false

theorem follows_initial : Follows .initial [] := by
  refine ⟨fun _ => ⟨rfl, rfl⟩, fun _ => .blank blank_nil, ?_⟩
  intro start chars h
  cases h

theorem Follows.endWord (h : Follows s past) (hgap : Blank gap) :
    Laid (past ++ gap) s.endWord.words := by
  cases hw : s.word with
  | none =>
    simp only [Cut.endWord, hw]
    exact (h.between hw).append hgap
  | some begun =>
    obtain ⟨start, chars⟩ := begun
    obtain ⟨before, rfl, rfl, laid, nonempty, first⟩ := h.within start chars hw
    simp only [Cut.endWord, hw]
    exact .word laid (by simpa using nonempty) first hgap

@[simp] theorem words_keep (s : Cut) (c : Char) (position : Nat) :
    (s.keep c position).words = s.words := by
  simp only [Cut.keep]
  split <;> rfl

@[simp] theorem words_close (s : Cut) (opener c : Char) (rest : List Char) (position : Nat) :
    (s.close opener c rest position).words = s.words := by
  simp only [Cut.close]
  split
  · split <;> rfl
  · rfl

@[simp] theorem word_close (s : Cut) (opener c : Char) (rest : List Char) (position : Nat) :
    (s.close opener c rest position).word = s.word := by
  simp only [Cut.close]
  split
  · split <;> rfl
  · rfl

/-- A character either ends the word or is kept. White space is kept between delimiters. -/
theorem step_cases (s : Cut) (c : Char) (rest : List Char) (position : Nat) :
    (s.quote = none ∧ s.openers = [] ∧ isBlank c = true ∧ s.step c rest position = s.endWord) ∨
      ((isBlank c = true → ¬ (s.quote = none ∧ s.openers = [])) ∧
        (s.step c rest position).words = s.words ∧
        (s.step c rest position).word = (s.keep c position).word) := by
  simp only [Cut.step]
  split
  · rename_i hq
    right
    refine ⟨?_, ?_, ?_⟩
    · rintro - ⟨hnone, -⟩
      simp [hnone] at hq
    · split <;> simp
    · split <;> rfl
  · rename_i hq
    split
    · rename_i hb
      exact .inl ⟨by simpa using hq, hb.2, hb.1, rfl⟩
    · rename_i hb
      right
      refine ⟨?_, ?_, ?_⟩
      · rintro hc ⟨-, hopeners⟩
        exact hb ⟨hc, hopeners⟩
      · split <;> simp
      · split <;> simp

theorem Follows.step (h : Follows s past) (c : Char) (rest : List Char) :
    Follows (s.step c rest (width past)) (past ++ [c]) := by
  rcases step_cases s c rest (width past) with ⟨hq, ho, hc, hs⟩ | ⟨hopen, hwords, hword⟩
  · have hgap : Blank [c] := by
      intro d hd
      rw [List.mem_singleton] at hd
      exact hd ▸ hc
    have laid := h.endWord hgap
    have hend : s.endWord.word = none ∧ s.endWord.quote = s.quote ∧
        s.endWord.openers = s.openers := by
      simp only [Cut.endWord]
      split
      · rename_i hnone
        exact ⟨hnone, rfl, rfl⟩
      · exact ⟨rfl, rfl, rfl⟩
    rw [hs]
    refine ⟨fun _ => ⟨hend.2.1.trans hq, hend.2.2.trans ho⟩, fun _ => laid, ?_⟩
    intro start chars hsome
    rw [hend.1] at hsome
    cases hsome
  · cases hw : s.word with
    | none =>
      simp only [Cut.keep, hw] at hword
      refine ⟨by simp [hword], by simp [hword], ?_⟩
      intro start chars hsome
      rw [hword] at hsome
      injection hsome with hsome
      injection hsome with hstart hchars
      subst hstart hchars
      refine ⟨past, rfl, rfl, hwords ▸ h.between hw, by simp, ?_⟩
      intro d hd
      simp only [List.reverse_singleton, List.head?_cons, Option.mem_some_iff] at hd
      subst hd
      cases hc : isBlank c with
      | false => rfl
      | true => exact absurd (h.closed hw) (hopen hc)
    | some begun =>
      obtain ⟨begin, earlier⟩ := begun
      obtain ⟨before, hpast, hstart, laid, nonempty, first⟩ := h.within begin earlier hw
      simp only [Cut.keep, hw] at hword
      refine ⟨by simp [hword], by simp [hword], ?_⟩
      intro start chars hsome
      rw [hword] at hsome
      injection hsome with hsome
      injection hsome with hbegin hchars
      subst hbegin hchars
      refine ⟨before, ?_, hstart, hwords ▸ laid, List.cons_ne_nil c earlier, ?_⟩
      · rw [hpast, List.reverse_cons, List.append_assoc]
      · rw [List.reverse_cons, List.head?_append_of_ne_nil _ (by simpa using nonempty)]
        exact first

/-- What every step keeps of a cut and the text that it has read, a run keeps. -/
theorem run_keeps {P : Cut → List Char → Prop}
    (step : ∀ s past c rest, P s past → P (s.step c rest (width past)) (past ++ [c]))
    (h : P s past) (rest : List Char) : P (s.run (width past) rest) (past ++ rest) := by
  induction rest generalizing s past with
  | nil =>
    rw [List.append_nil]
    exact h
  | cons c rest ih =>
    have hnext := ih (step s past c rest h)
    rw [width_append, List.append_assoc] at hnext
    exact hnext

theorem Follows.run (h : Follows s past) (rest : List Char) :
    Follows (s.run (width past) rest) (past ++ rest) :=
  run_keeps (fun _ _ c rest h => h.step c rest) h rest

/-- Finished words stay as they are. -/
theorem words_run_suffix (s : Cut) (position : Nat) (rest : List Char) :
    s.words <:+ (s.run position rest).endWord.words := by
  have hend : ∀ t : Cut, t.words <:+ t.endWord.words := by
    intro t
    simp only [Cut.endWord]
    split
    · exact List.suffix_rfl
    · exact List.suffix_cons _ _
  induction rest generalizing s position with
  | nil => exact hend s
  | cons c rest ih =>
    have hnext := ih (s.step c rest position) (position + c.utf8Size)
    rcases step_cases s c rest position with ⟨-, -, -, hs⟩ | ⟨-, hwords, -⟩
    · rw [hs] at hnext
      rw [Cut.run, hs]
      exact (hend s).trans hnext
    · rw [hwords] at hnext
      exact hnext

/-- A word that has been begun stands where it began. -/
theorem exists_word_of_begun {start : Nat} {chars : List Char} (h : s.word = some (start, chars))
    (position : Nat) (rest : List Char) :
    ∃ later text, (s.run position rest).endWord.words = later ++ ⟨text, start⟩ :: s.words := by
  induction rest generalizing s position chars with
  | nil => exact ⟨[], String.ofList chars.reverse, by simp [Cut.run, Cut.endWord, h]⟩
  | cons c rest ih =>
    rcases step_cases s c rest position with ⟨-, -, -, hs⟩ | ⟨-, hwords, hword⟩
    · obtain ⟨later, hlater⟩ := words_run_suffix s.endWord (position + c.utf8Size) rest
      refine ⟨later, String.ofList chars.reverse, ?_⟩
      rw [Cut.run, hs, ← hlater]
      simp [Cut.endWord, h]
    · simp only [Cut.keep, h] at hword
      have hbegun := ih hword (position + c.utf8Size)
      rw [hwords] at hbegun
      exact hbegun

/-- Between words, white space changes nothing. -/
theorem run_blank (hword : s.word = none) (hquote : s.quote = none) (hopeners : s.openers = [])
    (hgap : Blank gap) (position : Nat) (rest : List Char) :
    s.run position (gap ++ rest) = s.run (position + width gap) rest := by
  induction gap generalizing position with
  | nil => rfl
  | cons c gap ih =>
    have hstep : s.step c (gap ++ rest) position = s := by
      simp [Cut.step, hquote, hopeners, hgap c List.mem_cons_self, Cut.endWord, hword]
    rw [List.cons_append, Cut.run, hstep, ih fun d hd => hgap d (List.mem_cons_of_mem c hd), width,
      Nat.add_assoc]

/-- The first word after white space begins where the white space ends. -/
theorem exists_word_of_blank (hword : s.word = none) (hquote : s.quote = none)
    (hopeners : s.openers = []) (hgap : Blank gap) (hc : isBlank c = false) (position : Nat)
    (rest : List Char) :
    ∃ later text, (s.run position (gap ++ c :: rest)).endWord.words =
      later ++ ⟨text, position + width gap⟩ :: s.words := by
  rw [run_blank hword hquote hopeners hgap, Cut.run]
  rcases step_cases s c rest (position + width gap) with ⟨-, -, hblank, -⟩ | ⟨-, hwords, hbegun⟩
  · rw [hc] at hblank
    cases hblank
  · simp only [Cut.keep, hword] at hbegun
    rw [← hwords]
    exact exists_word_of_begun hbegun _ rest

theorem laid_cut (line : String) : Laid line.toList (cut line).words.reverse := by
  have h := (follows_initial.run line.toList).endWord blank_nil
  rw [List.append_nil, List.nil_append] at h
  simp only [cut, List.reverse_reverse]
  exact h

theorem stands_of_mem_cut {line : String} (h : w ∈ (cut line).words) : Stands line.toList w :=
  (laid_cut line).stands w (List.mem_reverse.mpr h)

theorem cut_apart (line : String) : (cut line).words.Pairwise fun v w => v.stop ≤ w.start :=
  List.pairwise_reverse.mp (laid_cut line).apart

end CommandConsole.Line
