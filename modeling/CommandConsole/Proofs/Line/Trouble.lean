import CommandConsole.Proofs.Line.Delimiters

/-! Where the recorded trouble of a line lies: before a word exactly when an earlier word is
troubled by itself. -/
namespace CommandConsole.Line

open Text Delimiters

variable {s : Cut} {past rest a line : List Char} {ws : List Word} {w v : Word} {c : Char}
  {e : ScanError} {o : Opening} {position : Nat}

@[simp] theorem trouble_keep (s : Cut) (c : Char) (position : Nat) :
    (s.keep c position).quote = s.quote ∧ (s.keep c position).openers = s.openers ∧
      (s.keep c position).stray = s.stray := by
  simp only [Cut.keep]
  split <;> exact ⟨rfl, rfl, rfl⟩

@[simp] theorem trouble_endWord (s : Cut) :
    s.endWord.quote = s.quote ∧ s.endWord.openers = s.openers ∧ s.endWord.stray = s.stray := by
  simp only [Cut.endWord]
  split <;> exact ⟨rfl, rfl, rfl⟩

/-- What a character adds to what is recorded of delimiters, if anything: itself where it stands,
and the line from there on. -/
structure Marks (s t : Cut) (c : Char) (rest : List Char) (position : Nat) : Prop where
  stray : t.stray = s.stray ∨
    s.stray = none ∧ c ∈ [']', '}'] ∧ t.stray = some (.here (.unexpected c) (c :: rest) position)
  quote : ∀ o, t.quote = some o → s.quote = some o ∨ o = ⟨c, position, c :: rest⟩
  openers : ∀ o ∈ t.openers, o ∈ s.openers ∨ o = ⟨c, position, c :: rest⟩

theorem marks_of_eq {t : Cut} (hq : t.quote = s.quote ∨ t.quote = none)
    (ho : t.openers = s.openers) (hs : t.stray = s.stray) : Marks s t c rest position := by
  refine ⟨.inl hs, ?_, ?_⟩
  · intro o h
    rcases hq with hq | hq
    · exact .inl (hq ▸ h)
    · rw [hq] at h
      cases h
  · intro o h
    exact .inl (ho ▸ h)

theorem marks_close (s : Cut) (opener : Char) (hc : c ∈ [']', '}']) (rest : List Char)
    (position : Nat) : Marks s (s.close opener c rest position) c rest position := by
  have hstray : ∀ e : ScanError, (s.stray <|> some e) = s.stray ∨
      s.stray = none ∧ c ∈ [']', '}'] ∧ (s.stray <|> some e) = some e := by
    intro e
    cases s.stray with
    | some x => exact .inl rfl
    | none => exact .inr ⟨rfl, hc, rfl⟩
  simp only [Cut.close]
  split
  · rename_i o r ho
    split
    · refine ⟨.inl rfl, fun o h => .inl h, ?_⟩
      intro o h
      exact .inl (by rw [ho]; exact List.mem_cons_of_mem _ h)
    · exact ⟨hstray _, fun o h => .inl h, fun o h => .inl h⟩
  · exact ⟨hstray _, fun o h => .inl h, fun o h => .inl h⟩

theorem marks_step (s : Cut) (c : Char) (rest : List Char) (position : Nat) :
    Marks s (s.step c rest position) c rest position := by
  obtain ⟨hquote, hopeners, hstray⟩ := trouble_keep s c position
  simp only [Cut.step]
  split
  · split
    · exact marks_of_eq (.inr rfl) hopeners hstray
    · exact marks_of_eq (.inl hquote) hopeners hstray
  · split
    · obtain ⟨hq, ho, hs⟩ := trouble_endWord s
      exact marks_of_eq (.inl hq) ho hs
    · have hkeep : Marks s (s.keep c position) c rest position :=
        marks_of_eq (.inl hquote) hopeners hstray
      split
      · refine ⟨hkeep.stray, ?_, hkeep.openers⟩
        intro o h
        injection h with h
        exact .inr h.symm
      · refine ⟨hkeep.stray, hkeep.quote, ?_⟩
        intro o h
        rcases List.mem_cons.mp h with rfl | h
        · exact .inr rfl
        · exact hkeep.openers o h
      · refine ⟨hkeep.stray, hkeep.quote, ?_⟩
        intro o h
        rcases List.mem_cons.mp h with rfl | h
        · exact .inr rfl
        · exact hkeep.openers o h
      · have hclose := marks_close (s.keep ']' position) '[' (c := ']') (by simp) rest position
        exact ⟨hstray ▸ hclose.stray, hquote ▸ hclose.quote, hopeners ▸ hclose.openers⟩
      · have hclose := marks_close (s.keep '}' position) '{' (c := '}') (by simp) rest position
        exact ⟨hstray ▸ hclose.stray, hquote ▸ hclose.quote, hopeners ▸ hclose.openers⟩
      · exact hkeep

/-- The delimiters of a cut in progress stay those of what has been passed. -/
theorem delimiters_passed (h : s.delimiters = settled.reads past) (c : Char) (rest : List Char)
    (position : Nat) : (s.step c rest position).delimiters = settled.reads (past ++ [c]) := by
  rw [delimiters_step, h, reads_concat]

theorem width_le_of_prefix (h : a <+: past) : width a ≤ width past := by
  obtain ⟨b, rfl⟩ := h
  rw [width_append]
  omega

/-- What is recorded of delimiters says of the texts that the line begins with: the first stray
closer is recorded where it stands, and something is open ever after an opening that still is. -/
structure Traces (s : Cut) (past : List Char) : Prop where
  delimiters : s.delimiters = settled.reads past
  stray : ∀ e, s.stray = some e → ∀ a, a <+: past →
    ((settled.reads a).stray = true ↔ e.position < width a)
  opening : ∀ o, s.quote = some o ∨ o ∈ s.openers → ∀ a, a <+: past → o.position < width a →
    ¬ (settled.reads a).Closed

theorem traces_initial : Traces .initial [] := by
  refine ⟨rfl, ?_, ?_⟩
  · intro e h
    cases h
  · rintro o (h | h)
    · cases h
    · cases h

theorem Traces.step (h : Traces s past) (c : Char) (rest : List Char) :
    Traces (s.step c rest (width past)) (past ++ [c]) := by
  have hsize := c.utf8Size_pos
  have hwidth : width (past ++ [c]) = width past + c.utf8Size := by simp [width]
  have marks := marks_step s c rest (width past)
  have hdelimiters := delimiters_passed h.delimiters c rest (width past)
  refine ⟨hdelimiters, ?_, ?_⟩
  · intro e he a ha
    have hspoiled : (settled.reads (past ++ [c])).stray = true := by
      rw [← hdelimiters]
      simp [Cut.delimiters, he]
    rcases marks.stray with hold | ⟨hnone, -, hnew⟩
    · rw [hold] at he
      rcases List.prefix_concat_iff.mp ha with rfl | ha
      · have hpast : (settled.reads past).stray = true := by
          rw [← h.delimiters]
          simp [Cut.delimiters, he]
        have hlt := (h.stray e he past List.prefix_rfl).mp hpast
        exact ⟨fun _ => by omega, fun _ => hspoiled⟩
      · exact h.stray e he a ha
    · have hposition : e.position = width past := by
        rw [hnew] at he
        injection he with he
        exact he ▸ rfl
      rcases List.prefix_concat_iff.mp ha with rfl | ha
      · exact ⟨fun _ => by omega, fun _ => hspoiled⟩
      · have hle := width_le_of_prefix ha
        constructor
        · intro hstray
          have hpast := stray_of_prefix ha hstray
          rw [← h.delimiters] at hpast
          simp [Cut.delimiters, hnone] at hpast
        · intro hlt
          omega
  · intro o ho a ha hlt
    rcases List.prefix_concat_iff.mp ha with rfl | ha
    · rw [← hdelimiters]
      rintro ⟨hquoted, hopeners⟩
      rcases ho with ho | ho
      · simp [Cut.delimiters, ho] at hquoted
      · rw [Cut.delimiters, List.map_eq_nil_iff] at hopeners
        rw [hopeners] at ho
        cases ho
    · have hle := width_le_of_prefix ha
      have hearlier : o ≠ ⟨c, width past, c :: rest⟩ := by
        rintro rfl
        exact absurd hlt (Nat.not_lt.mpr hle)
      have hold : s.quote = some o ∨ o ∈ s.openers := by
        rcases ho with ho | ho
        · exact .inl ((marks.quote o ho).resolve_right hearlier)
        · exact .inr ((marks.openers o ho).resolve_right hearlier)
      exact h.opening o hold a ha hlt

theorem Traces.run (h : Traces s past) (rest : List Char) :
    Traces (s.run (width past) rest) (past ++ rest) :=
  run_keeps (fun _ _ c rest h => h.step c rest) h rest

/-- The trouble of a cut is a stray closer, or else an opening that was never closed. -/
theorem problem_cases (h : s.problem = some e) :
    s.stray = some e ∨ s.stray = none ∧ ∃ o, (s.quote = some o ∨ o ∈ s.openers) ∧
      ∃ opener, e = .here (.unterminated opener) o.rest o.position := by
  simp only [Cut.problem] at h
  cases hs : s.stray with
  | some x => simpa [hs] using h
  | none =>
    right
    cases hq : s.quote with
    | some o =>
      simp only [hs, hq, Option.some.injEq] at h
      exact ⟨rfl, o, .inl rfl, _, h.symm⟩
    | none =>
      cases ho : s.openers.getLast? with
      | none => simp [hs, hq, ho] at h
      | some o =>
        simp only [hs, hq, ho, Option.some.injEq] at h
        exact ⟨rfl, o, .inr (List.mem_of_getLast? ho), _, h.symm⟩

/-- Where nothing is open, the trouble of the whole line lies earlier exactly if a closer before is
stray: what is never closed would be open. -/
theorem Traces.position_lt_iff (h : Traces s line) (he : s.problem = some e) (ha : a <+: line)
    (closed : (settled.reads a).Closed) :
    e.position < width a ↔ (settled.reads a).stray = true := by
  rcases problem_cases he with hstray | ⟨hnone, o, ho, opener, rfl⟩
  · exact (h.stray e hstray a ha).symm
  · constructor
    · intro hlt
      exact absurd closed (h.opening o ho a ha hlt)
    · intro hstray
      have hline := stray_of_prefix ha hstray
      rw [← h.delimiters] at hline
      simp [Cut.delimiters, hnone] at hline

/-- Between words nothing is open, and a closer is stray if it is so in one of the words. -/
theorem reads_laid (h : Laid past ws) (closed : ∀ w ∈ ws, (ownDelimiters w).Closed) :
    settled.reads past = settled.spoil (ws.any fun w => (ownDelimiters w).stray) := by
  induction h with
  | blank h =>
    rw [reads_blank settled h]
    rfl
  | @word past body gap ws before nonempty first after ih =>
    have hbody := eq_spoil_of_closed (closed _ List.mem_cons_self)
    rw [ownDelimiters, String.toList_ofList] at hbody
    rw [reads_append, reads_append, reads_blank _ after,
      ih fun w hw => closed w (List.mem_cons_of_mem _ hw), reads_spoil, hbody, spoil_spoil,
      List.any_cons, ownDelimiters, String.toList_ofList, Bool.or_comm]

/-- A cut in progress has left nothing open in the words that it has finished, and white space
between them. -/
structure Tidy (s : Cut) (past : List Char) : Prop where
  follows : Follows s past
  delimiters : s.delimiters = settled.reads past
  closed : ∀ w ∈ s.words, (ownDelimiters w).Closed
  spaced : s.words.Pairwise fun w v => v.stop < w.start
  ended : ∀ w ∈ s.words, w.stop < width past
  begun : ∀ start chars, s.word = some (start, chars) → ∀ w ∈ s.words, w.stop < start

theorem tidy_initial : Tidy .initial [] := by
  refine ⟨follows_initial, rfl, ?_, .nil, ?_, ?_⟩
  · intro w hw
    cases hw
  · intro w hw
    cases hw
  · intro start chars h
    cases h

/-- A word ends where nothing is open, so it has closed whatever it opened. -/
theorem Tidy.closed_endWord (h : Tidy s past) (closed : s.delimiters.Closed) :
    ∀ w ∈ s.endWord.words, (ownDelimiters w).Closed := by
  cases hw : s.word with
  | none =>
    simp only [Cut.endWord, hw]
    exact h.closed
  | some begun =>
    obtain ⟨start, chars⟩ := begun
    obtain ⟨before, hpast, -, laid, -, -⟩ := h.follows.within start chars hw
    simp only [Cut.endWord, hw]
    intro w hin
    rcases List.mem_cons.mp hin with rfl | hin
    · rw [h.delimiters, hpast, reads_append, reads_laid laid h.closed, reads_spoil,
        closed_spoil_iff] at closed
      rw [ownDelimiters, String.toList_ofList]
      exact closed
    · exact h.closed w hin

theorem Tidy.spaced_endWord (h : Tidy s past) :
    s.endWord.words.Pairwise (fun w v => v.stop < w.start) ∧
      ∀ w ∈ s.endWord.words, w.stop ≤ width past := by
  cases hw : s.word with
  | none =>
    simp only [Cut.endWord, hw]
    exact ⟨h.spaced, fun w hin => Nat.le_of_lt (h.ended w hin)⟩
  | some begun =>
    obtain ⟨start, chars⟩ := begun
    obtain ⟨before, hpast, hstart, -⟩ := h.follows.within start chars hw
    simp only [Cut.endWord, hw]
    refine ⟨List.pairwise_cons.mpr ⟨h.begun start chars hw, h.spaced⟩, ?_⟩
    intro w hin
    rcases List.mem_cons.mp hin with rfl | hin
    · simp [Word.stop, hpast, ← hstart]
    · exact Nat.le_of_lt (h.ended w hin)

theorem Tidy.step (h : Tidy s past) (c : Char) (rest : List Char) :
    Tidy (s.step c rest (width past)) (past ++ [c]) := by
  have hsize := c.utf8Size_pos
  have hwidth : width (past ++ [c]) = width past + c.utf8Size := by simp [width]
  have hfollows := h.follows.step c rest
  have hdelimiters := delimiters_passed h.delimiters c rest (width past)
  rcases step_cases s c rest (width past) with ⟨hq, ho, hc, hs⟩ | ⟨-, hwords, hword⟩
  · have closed : s.delimiters.Closed := by simp [Delimiters.Closed, Cut.delimiters, hq, ho]
    obtain ⟨hspaced, hended⟩ := h.spaced_endWord
    rw [hs] at hfollows hdelimiters ⊢
    refine ⟨hfollows, hdelimiters, h.closed_endWord closed, hspaced, ?_, ?_⟩
    · intro w hw
      have := hended w hw
      omega
    · intro start chars hsome
      simp only [Cut.endWord] at hsome
      split at hsome
      · rename_i hnone
        rw [hnone] at hsome
        cases hsome
      · cases hsome
  · refine ⟨hfollows, hdelimiters, hwords ▸ h.closed, hwords ▸ h.spaced, ?_, ?_⟩
    · intro w hw
      have := h.ended w (hwords ▸ hw)
      omega
    · intro start chars hsome w hw
      rw [hwords] at hw
      rw [hword, Cut.keep] at hsome
      split at hsome
      · injection hsome with hsome
        injection hsome with hstart
        exact hstart ▸ h.ended w hw
      · rename_i begin earlier hbegun
        injection hsome with hsome
        injection hsome with hstart
        exact hstart ▸ h.begun begin earlier hbegun w hw

theorem Tidy.run (h : Tidy s past) (rest : List Char) :
    Tidy (s.run (width past) rest) (past ++ rest) :=
  run_keeps (fun _ _ c rest h => h.step c rest) h rest

/-- A line of words begins, before each of them, with the words before that one. -/
theorem Laid.exists_before {later earlier : List Word} (h : Laid line (later ++ w :: earlier)) :
    ∃ before after, line = before ++ after ∧ width before = w.start ∧ Laid before earlier := by
  induction later generalizing line with
  | nil =>
    cases h with
    | @word past body gap ws before nonempty first after =>
      exact ⟨past, body ++ gap, by rw [List.append_assoc], rfl, before⟩
  | cons v later ih =>
    cases h with
    | @word past body gap ws before nonempty first after =>
      obtain ⟨start, rest, hpast, hstart, laid⟩ := ih before
      exact ⟨start, rest ++ (body ++ gap), by rw [hpast]; simp, hstart, laid⟩

variable {text : String} {earlier later : List Word}

/-- Words of a line have white space between them. -/
theorem cut_spaced (text : String) : (cut text).words.Pairwise fun v w => v.stop < w.start :=
  List.pairwise_reverse.mpr (tidy_initial.run text.toList).spaced_endWord.1

/-- Whatever is not closed swallows the rest of the line, so every word but the last closes what it
opens. -/
theorem closed_of_cut (h : (cut text).words = earlier ++ w :: later) :
    ∀ v ∈ earlier, (ownDelimiters v).Closed := by
  have tidy : Tidy (Cut.initial.run 0 text.toList) text.toList := tidy_initial.run text.toList
  have hwords : (Cut.initial.run 0 text.toList).endWord.words =
      later.reverse ++ w :: earlier.reverse := by
    have := congrArg List.reverse h
    rw [cut, List.reverse_reverse] at this
    simpa using this
  intro v hv
  apply tidy.closed v
  rw [← List.mem_reverse] at hv
  revert hwords
  simp only [Cut.endWord]
  split
  · intro hwords
    rw [hwords]
    exact List.mem_append_right _ (List.mem_cons_of_mem w hv)
  · intro hwords
    cases hl : later.reverse with
    | nil =>
      rw [hl, List.nil_append, List.cons.injEq] at hwords
      rw [hwords.2]
      exact hv
    | cons x r =>
      rw [hl, List.cons_append, List.cons.injEq] at hwords
      rw [hwords.2]
      exact List.mem_append_right _ (List.mem_cons_of_mem w hv)

/-- The trouble of a line lies before a word exactly if one of the earlier words is in trouble by
itself. -/
theorem trouble_before_iff (h : (cut text).words = earlier ++ w :: later) :
    (∃ e, (cut text).problem = some e ∧ e.position < w.start) ↔
      ∃ v ∈ earlier, (cut v.text).problem ≠ none := by
  have traces : Traces (Cut.initial.run 0 text.toList) text.toList :=
    traces_initial.run text.toList
  have laid := laid_cut text
  rw [h, List.reverse_append, List.reverse_cons, List.append_assoc, List.singleton_append] at laid
  obtain ⟨before, after, hline, hstart, laid⟩ := laid.exists_before
  have closed := closed_of_cut h
  have hover := reads_laid laid fun v hv => closed v (List.mem_reverse.mp hv)
  have hprefix : before <+: text.toList := ⟨after, hline.symm⟩
  have hstray : (settled.reads before).stray = true ↔ ∃ v ∈ earlier, (cut v.text).problem ≠ none := by
    rw [hover]
    simp only [spoil, settled, Bool.or_false, List.any_reverse, List.any_eq_true]
    constructor
    · rintro ⟨v, hv, hstray⟩
      exact ⟨v, hv, (problem_ne_none_iff_of_closed (closed v hv)).mpr hstray⟩
    · rintro ⟨v, hv, hproblem⟩
      exact ⟨v, hv, (problem_ne_none_iff_of_closed (closed v hv)).mp hproblem⟩
  rw [← hstray, ← hstart]
  constructor
  · rintro ⟨e, he, hlt⟩
    exact (traces.position_lt_iff he hprefix (by rw [hover]; exact ⟨rfl, rfl⟩)).mp hlt
  · intro hs
    cases hp : (cut text).problem with
    | none =>
      rw [problem_cut_eq_none_iff] at hp
      have hall := stray_of_prefix hprefix hs
      rw [hp] at hall
      cases hall
    | some e =>
      exact ⟨e, rfl,
        (traces.position_lt_iff hp hprefix (by rw [hover]; exact ⟨rfl, rfl⟩)).mpr hs⟩

theorem blank_of_words_cut (h : (cut text).words = []) : Blank text.toList := by
  have laid := laid_cut text
  rw [h, List.reverse_nil] at laid
  generalize text.toList = line at laid
  cases laid with
  | blank hblank => exact hblank

theorem words_cut_of_blank (h : Blank text.toList) : (cut text).words = [] := by
  apply List.eq_nil_iff_forall_not_mem.mpr
  intro w hw
  obtain ⟨before, after, hline, -, c, hc, hblank⟩ := stands_of_mem_cut hw
  have hin : c ∈ text.toList := by
    rw [hline]
    exact List.mem_append_left after (List.mem_append_right before (List.mem_of_mem_head? hc))
  rw [h c hin] at hblank
  cases hblank

/-- A first word that is not in trouble by itself has none of the line's trouble in it, whatever
comes after it. -/
theorem trouble_after_head (h : (cut text).words = w :: ws) (clear : (cut w.text).problem = none) :
    (cut text).problem.filter (·.position < w.stop) = none := by
  cases ws with
  | nil =>
    have laid := laid_cut text
    rw [h, List.reverse_singleton] at laid
    have hline : (cut text).problem = none := by
      rw [problem_cut_eq_none_iff] at clear ⊢
      generalize text.toList = line at laid
      generalize hws : [w] = ws at laid
      cases laid with
      | blank hblank => cases hws
      | @word past body gap ws before nonempty first after =>
        obtain ⟨rfl, hnil⟩ := List.cons.inj hws
        subst hnil
        cases before with
        | blank hpast =>
          rw [String.toList_ofList] at clear
          rw [reads_append, reads_append, reads_blank settled hpast, clear,
            reads_blank settled after]
    rw [hline]
    rfl
  | cons v rest =>
    rw [Option.filter_eq_none_iff]
    intro e he hinside
    have hlt : e.position < w.stop := of_decide_eq_true hinside
    have hstop : w.stop ≤ v.start := by
      have apart := cut_apart text
      rw [h] at apart
      exact (List.pairwise_cons.mp apart).1 v List.mem_cons_self
    have hwords : (cut text).words = [w] ++ v :: rest := h
    obtain ⟨u, hu, htrouble⟩ := (trouble_before_iff hwords).mp ⟨e, he, by omega⟩
    rw [List.mem_singleton] at hu
    exact htrouble (hu ▸ clear)

end CommandConsole.Line
