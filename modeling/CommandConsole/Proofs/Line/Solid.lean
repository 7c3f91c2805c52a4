import CommandConsole.Proofs.Line.Delimiters
import CommandConsole.Token.Scan

/-! Texts that make up one word of a line, whatever stands around them. -/
namespace CommandConsole.Line

open Text Delimiters

/-- A text without white space that closes all it opens. -/
structure Solid (s : List Char) : Prop where
  unbroken : ∀ c ∈ s, isBlank c = false
  neutral : ∀ d : Delimiters, d.quoted = false → d.reads s = d

variable {s t body : List Char} {parts : List (List Char)} {c : Char} {m : Cut} {d : Delimiters}

theorem solid_nil : Solid [] := by
  refine ⟨?_, fun d _ => rfl⟩
  intro c hc
  cases hc

theorem Solid.append (hs : Solid s) (ht : Solid t) : Solid (s ++ t) := by
  refine ⟨?_, ?_⟩
  · intro c hc
    rcases List.mem_append.mp hc with hc | hc
    · exact hs.unbroken c hc
    · exact ht.unbroken c hc
  · intro d hd
    rw [reads_append, hs.neutral d hd, ht.neutral d hd]

/-- A character that delimits nothing. -/
theorem solid_singleton (hb : isBlank c = false) (hc : Token.isDelimiter c = false) :
    Solid [c] := by
  refine ⟨?_, ?_⟩
  · intro a ha
    rw [List.mem_singleton] at ha
    exact ha ▸ hb
  · intro d hd
    simp only [Token.isDelimiter, Bool.or_eq_false_iff, beq_eq_false_iff_ne] at hc
    obtain ⟨⟨⟨⟨hquote, hopen⟩, hclose⟩, hopenBrace⟩, hcloseBrace⟩ := hc
    simp only [reads, List.foldl_cons, List.foldl_nil, Delimiters.step, hd, Bool.false_eq_true,
      if_false, Delimiters.take]

theorem solid_of_clear (h : ∀ c ∈ s, isBlank c = false ∧ Token.isDelimiter c = false) :
    Solid s := by
  induction s with
  | nil => exact solid_nil
  | cons c s ih =>
    obtain ⟨hb, hc⟩ := h c List.mem_cons_self
    exact (solid_singleton hb hc).append (ih fun a ha => h a (List.mem_cons_of_mem _ ha))

/-- An opener and its closer, which gives back the delimiters as they were. -/
theorem step_enclosing {o : Char} (pair : (o, c) ∈ [('[', ']'), ('{', '}')])
    (hd : d.quoted = false) :
    (d.step o).quoted = false ∧ (d.step o).step c = d := by
  obtain ⟨quoted, openers, stray⟩ := d
  obtain rfl : quoted = false := hd
  simp only [List.mem_cons, Prod.mk.injEq, List.not_mem_nil, or_false] at pair
  rcases pair with ⟨rfl, rfl⟩ | ⟨rfl, rfl⟩
  · exact ⟨rfl, rfl⟩
  · exact ⟨rfl, rfl⟩

theorem Solid.enclose {o : Char} (h : Solid body) (pair : (o, c) ∈ [('[', ']'), ('{', '}')]) :
    Solid (o :: (body ++ [c])) := by
  refine ⟨?_, ?_⟩
  · have hblank : isBlank o = false ∧ isBlank c = false := by
      simp only [List.mem_cons, Prod.mk.injEq, List.not_mem_nil, or_false] at pair
      rcases pair with ⟨rfl, rfl⟩ | ⟨rfl, rfl⟩
      · exact ⟨rfl, rfl⟩
      · exact ⟨rfl, rfl⟩
    intro a ha
    rw [List.mem_cons, List.mem_append, List.mem_singleton] at ha
    rcases ha with rfl | ha | rfl
    · exact hblank.1
    · exact h.unbroken a ha
    · exact hblank.2
  · intro d hd
    obtain ⟨hopen, hclose⟩ := step_enclosing pair hd
    calc d.reads (o :: (body ++ [c]))
        = ((d.step o).reads body).reads [c] := reads_append (d.step o) body [c]
      _ = (d.step o).step c := congrArg (Delimiters.reads · [c]) (h.neutral (d.step o) hopen)
      _ = d := hclose

/-- Solid texts with commas between them. -/
theorem solid_intercalate (h : ∀ s ∈ parts, Solid s) : Solid ([','].intercalate parts) := by
  induction parts with
  | nil => exact solid_nil
  | cons s rest ih =>
    have hs := h s List.mem_cons_self
    have hrest := ih fun t ht => h t (List.mem_cons_of_mem _ ht)
    cases rest with
    | nil => simpa using hs
    | cons t rest =>
      rw [List.intercalate_cons_cons]
      exact (hs.append (solid_singleton rfl rfl)).append hrest

theorem run_unbroken {start : Nat} {chars : List Char} (hs : ∀ c ∈ s, isBlank c = false)
    (hword : m.word = some (start, chars)) (position : Nat) (rest : List Char) :
    ∃ next : Cut, m.run position (s ++ rest) = next.run (position + width s) rest ∧
      next.word = some (start, s.reverse ++ chars) ∧ next.words = m.words ∧
      next.delimiters = m.delimiters.reads s := by
  induction s generalizing m chars position with
  | nil => exact ⟨m, rfl, hword, rfl, rfl⟩
  | cons c s ih =>
    rcases step_cases m c (s ++ rest) position with ⟨-, -, hblank, -⟩ | ⟨-, hwords, hkeep⟩
    · rw [hs c List.mem_cons_self] at hblank
      cases hblank
    · simp only [Cut.keep, hword] at hkeep
      obtain ⟨next, hrun, hnext, hnextWords, hdelimiters⟩ :=
        ih (fun a ha => hs a (List.mem_cons_of_mem _ ha)) hkeep (position + c.utf8Size)
      refine ⟨next, ?_, ?_, hnextWords.trans hwords, ?_⟩
      · rw [List.cons_append, Cut.run, hrun, width, Nat.add_assoc]
      · rw [hnext, List.reverse_cons, List.append_assoc, List.singleton_append]
      · rw [hdelimiters, delimiters_step]
        rfl

/-- A text without white space that begins between two words belongs to one word. -/
theorem run_begun (hs : ∀ c ∈ s, isBlank c = false) (hne : s ≠ []) (hword : m.word = none)
    (position : Nat) (rest : List Char) :
    ∃ next : Cut, m.run position (s ++ rest) = next.run (position + width s) rest ∧
      next.word = some (position, s.reverse) ∧ next.words = m.words ∧
      next.delimiters = m.delimiters.reads s := by
  cases s with
  | nil => exact absurd rfl hne
  | cons c s =>
    rcases step_cases m c (s ++ rest) position with ⟨-, -, hblank, -⟩ | ⟨-, hwords, hkeep⟩
    · rw [hs c List.mem_cons_self] at hblank
      cases hblank
    · simp only [Cut.keep, hword] at hkeep
      obtain ⟨next, hrun, hnext, hnextWords, hdelimiters⟩ :=
        run_unbroken (fun a ha => hs a (List.mem_cons_of_mem _ ha)) hkeep (position + c.utf8Size)
          rest
      refine ⟨next, ?_, ?_, hnextWords.trans hwords, ?_⟩
      · rw [List.cons_append, Cut.run, hrun, width, Nat.add_assoc]
      · rw [hnext, List.reverse_cons]
      · rw [hdelimiters, delimiters_step]
        rfl

/-- A solid text that begins between two words is the next of them. -/
theorem run_solid (hs : Solid s) (hne : s ≠ []) (hword : m.word = none)
    (hsettled : m.delimiters = settled) (position : Nat) (rest : List Char) :
    ∃ next : Cut, m.run position (s ++ rest) = next.run (position + width s) rest ∧
      next.endWord.words = ⟨String.ofList s, position⟩ :: m.words ∧ next.endWord.word = none ∧
      next.delimiters = settled := by
  obtain ⟨next, hrun, hnext, hwords, hdelimiters⟩ :=
    run_begun hs.unbroken hne hword position rest
  refine ⟨next, hrun, ?_, ?_, ?_⟩
  · simp [Cut.endWord, hnext, hwords]
  · simp [Cut.endWord, hnext]
  · rw [hdelimiters, hsettled]
    exact hs.neutral settled rfl

/-- A text without white space is the only word of its line. -/
theorem words_cut_of_unbroken {text : String} (h : ∀ c ∈ text.toList, isBlank c = false)
    (hne : text ≠ "") : (cut text).words = [⟨text, 0⟩] := by
  obtain ⟨next, hrun, hnext, hwords, -⟩ :=
    run_begun (m := .initial) h (by simpa using hne) rfl 0 []
  rw [List.append_nil] at hrun
  simp only [cut, hrun, Cut.run, Cut.endWord, hnext, hwords]
  simp [Cut.initial]

/-- Two solid texts with a space between them are the words of a line. -/
theorem cut_pair {name text : String} (hname : Solid name.toList) (htext : Solid text.toList)
    (hn : name ≠ "") (ht : text ≠ "") :
    cut (name ++ " " ++ text) = ⟨[⟨name, 0⟩, ⟨text, width name.toList + 1⟩], none⟩ := by
  have hne : ∀ s : String, s ≠ "" → s.toList ≠ [] := fun s hs => by simpa using hs
  have hline : (name ++ " " ++ text).toList = name.toList ++ ' ' :: (text.toList ++ []) := by
    simp [String.toList_append]
  obtain ⟨first, hrun, hwords, hword, hsettled⟩ :=
    run_solid (m := .initial) hname (hne name hn) rfl rfl 0 (' ' :: (text.toList ++ []))
  obtain ⟨hquote, hopeners⟩ : first.quote = none ∧ first.openers = [] := by
    simp only [Cut.delimiters, settled, Delimiters.mk.injEq] at hsettled
    exact ⟨by simpa using hsettled.1, by simpa using hsettled.2.1⟩
  have hspace : first.step ' ' (text.toList ++ []) (0 + width name.toList) = first.endWord := by
    simp [Cut.step, hquote, hopeners, isBlank]
  obtain ⟨second, hrunText, hwordsText, -, hsettledText⟩ :=
    run_solid (m := first.endWord) htext (hne text ht) hword
      ((delimiters_endWord first).trans hsettled) (0 + width name.toList + 1) []
  have hcut : Cut.initial.run 0 (name ++ " " ++ text).toList = second := by
    rw [hline, hrun, Cut.run, hspace]
    exact hrunText
  simp only [cut, hcut, hwordsText, hwords, problem_eq_none_iff.mpr hsettledText,
    String.ofList_toList, Nat.zero_add]
  rfl

end CommandConsole.Line
