import CommandConsole.Proofs.Line.Completion

/-! Which delimiters of a line are never closed, and which trouble is reported of it. -/
namespace CommandConsole.Line

open Text Delimiters

/-- The text behind an opening delimiter closes it: a quote ends at the next quote, a bracket or
brace at its closer behind a nested text. -/
inductive ClosedBy : Char → List Char → Prop where
  | quote {rest : List Char} (ends : '"' ∈ rest) : ClosedBy '"' rest
  | bracket {o c : Char} {body rest : List Char} (pair : (o, c) ∈ [('[', ']'), ('{', '}')])
      (inside : Nested body) : ClosedBy o (body ++ c :: rest)

/-- A line has a delimiter between the two texts that is never closed. Outside quotes as many quotes
have ended as begun. -/
structure Unclosed (line before : List Char) (c : Char) (rest : List Char) : Prop where
  split : line = before ++ c :: rest
  delimiter : c ∈ ['"', '[', '{']
  outside : before.count '"' % 2 = 0
  never : ¬ ClosedBy c rest

namespace Delimiters

theorem quoted_close (d : Delimiters) (o : Char) : (d.close o).quoted = d.quoted := by
  simp only [close]
  split
  · split
    · rfl
    · rfl
  · rfl

/-- Only quotes begin and end quotes. -/
theorem quoted_step (d : Delimiters) (c : Char) :
    (d.step c).quoted = if c = '"' then !d.quoted else d.quoted := by
  obtain ⟨quoted, openers, stray⟩ := d
  cases quoted with
  | true =>
    simp only [Delimiters.step, if_true]
    split
    · rfl
    · rfl
  | false =>
    simp only [Delimiters.step, Bool.false_eq_true, if_false, take]
    split
    · rfl
    · rfl
    · rfl
    · exact quoted_close _ '['
    · exact quoted_close _ '{'
    · rename_i hc _ _ _ _
      rw [if_neg fun h => hc h]

theorem quoted_reads (s : List Char) : (settled.reads s).quoted = (s.count '"' % 2 == 1) := by
  induction s using List.reverseRecOn with
  | nil => rfl
  | append_singleton s c ih =>
    rw [reads_concat, quoted_step, ih, List.count_append, List.count_singleton]
    by_cases hc : c = '"'
    · have hparity := Nat.mod_two_eq_zero_or_one (s.count '"')
      rcases hparity with h | h <;> simp [hc, h, Nat.add_mod]
    · simp [hc]

end Delimiters

variable {s t : Cut} {past rest a before after : List Char} {c : Char} {e : ScanError}
  {q o opening : Opening}

/-- What a character does to the open delimiters. -/
inductive Change (s t : Cut) (c : Char) (opening : Opening) : Prop where
  | nothing (quote : t.quote = s.quote) (openers : t.openers = s.openers)
      (stays : s.quote ≠ none → c ≠ '"')
  | quoteEnds (quote : t.quote = none) (openers : t.openers = s.openers)
  | quoteBegins (before : s.quote = none) (isQuote : c = '"') (quote : t.quote = some opening)
      (openers : t.openers = s.openers)
  | opens (before : s.quote = none) (quote : t.quote = none)
      (openers : t.openers = opening :: s.openers)
  | closes (quote : t.quote = none) (closed : Opening) (openers : s.openers = closed :: t.openers)

theorem change_close (hnone : s.quote = none) (hq : t.quote = s.quote)
    (ho : t.openers = s.openers) (hc : c ≠ '"') (p : Char) (rest : List Char) (position : Nat) :
    Change s (t.close p c rest position) c opening := by
  simp only [Cut.close]
  split
  · rename_i o r hopeners
    split
    · exact .closes (hq.trans hnone) o (ho ▸ hopeners)
    · exact .nothing hq ho fun _ => hc
  · exact .nothing hq ho fun _ => hc

theorem change_step (s : Cut) (c : Char) (rest : List Char) (position : Nat) :
    Change s (s.step c rest position) c ⟨c, position, c :: rest⟩ := by
  obtain ⟨hquote, hopeners, -⟩ := trouble_keep s c position
  simp only [Cut.step]
  split
  · split
    · exact .quoteEnds rfl hopeners
    · rename_i hc
      exact .nothing hquote hopeners fun _ => hc
  · rename_i hnone
    have hnone : s.quote = none := by simpa using hnone
    split
    · obtain ⟨hq, ho, -⟩ := trouble_endWord s
      exact .nothing hq ho fun h => absurd hnone h
    · split
      · exact .quoteBegins hnone rfl rfl hopeners
      · exact .opens hnone (hquote.trans hnone) (congrArg _ hopeners)
      · exact .opens hnone (hquote.trans hnone) (congrArg _ hopeners)
      · exact change_close hnone hquote hopeners (by simp) '[' rest position
      · exact change_close hnone hquote hopeners (by simp) '{' rest position
      · exact .nothing hquote hopeners fun h => absurd hnone h

/-- A delimiter stands where its opening says, in the midst of the text that has been passed. -/
def Opening.Within (o : Opening) (before after past : List Char) : Prop :=
  past = before ++ o.delimiter :: after ∧ width before = o.position

theorem Opening.Within.concat (h : o.Within before after past) (c : Char) :
    o.Within before (after ++ [c]) (past ++ [c]) := by
  obtain ⟨rfl, hposition⟩ := h
  exact ⟨by simp, hposition⟩

theorem Opening.within_new (past rest : List Char) (c : Char) :
    (⟨c, width past, rest⟩ : Opening).Within past [] (past ++ [c]) := ⟨rfl, rfl⟩

/-- What is open at the end of a text: no quote ends behind the last to begin, and nothing is open
before the outermost bracket or brace. -/
structure Pending (s : Cut) (past : List Char) : Prop where
  delimiters : s.delimiters = settled.reads past
  quote : ∀ q, s.quote = some q → q.delimiter = '"' ∧ ∃ before after, q.Within before after past ∧
    (settled.reads before).quoted = false ∧ '"' ∉ after
  outermost : ∀ o, s.openers.getLast? = some o → ∃ before after, o.Within before after past ∧
    (settled.reads before).Closed

theorem pending_initial : Pending .initial [] := by
  refine ⟨rfl, ?_, ?_⟩
  · intro q h
    cases h
  · intro o h
    cases h

theorem Pending.step (h : Pending s past) (c : Char) (rest : List Char) :
    Pending (s.step c rest (width past)) (past ++ [c]) := by
  have hquoted : (settled.reads past).quoted = s.quote.isSome := by
    rw [← h.delimiters]
    rfl
  have hopened : (settled.reads past).openers = s.openers.map (·.delimiter) := by
    rw [← h.delimiters]
    rfl
  have hdelimiters := delimiters_passed h.delimiters c rest (width past)
  have change := change_step s c rest (width past)
  generalize s.step c rest (width past) = t at hdelimiters change
  refine ⟨hdelimiters, ?_, ?_⟩
  · intro q hq
    cases change with
    | nothing quote openers stays =>
      rw [quote] at hq
      obtain ⟨hquote, before, after, within, hbefore, hnot⟩ := h.quote q hq
      refine ⟨hquote, before, after ++ [c], within.concat c, hbefore, ?_⟩
      have hc := stays (by simp [hq])
      simp [hnot, Ne.symm hc]
    | quoteEnds quote _ =>
      rw [quote] at hq
      cases hq
    | quoteBegins before isQuote quote openers =>
      rw [quote] at hq
      injection hq with hq
      subst hq
      refine ⟨isQuote, past, [], Opening.within_new past (c :: rest) c, ?_, by simp⟩
      rw [hquoted, before]
      rfl
    | opens _ quote _ =>
      rw [quote] at hq
      cases hq
    | closes quote _ _ =>
      rw [quote] at hq
      cases hq
  · intro o ho
    have hold : s.openers.getLast? = some o → ∃ before after, o.Within before after (past ++ [c]) ∧
        (settled.reads before).Closed := by
      intro hlast
      obtain ⟨before, after, within, closed⟩ := h.outermost o hlast
      exact ⟨before, after ++ [c], within.concat c, closed⟩
    cases change with
    | nothing _ openers _ => exact hold (openers ▸ ho)
    | quoteEnds _ openers => exact hold (openers ▸ ho)
    | quoteBegins _ _ _ openers => exact hold (openers ▸ ho)
    | opens before _ openers =>
      rw [openers] at ho
      cases hs : s.openers with
      | nil =>
        rw [hs, List.getLast?_singleton] at ho
        injection ho with ho
        subst ho
        refine ⟨past, [], Opening.within_new past (c :: rest) c, ?_, ?_⟩
        · rw [hquoted, before]
          rfl
        · rw [hopened, hs]
          rfl
      | cons p r =>
        apply hold
        rw [hs] at ho ⊢
        rwa [List.getLast?_cons_cons] at ho
    | closes _ closed openers =>
      apply hold
      rw [openers, List.getLast?_cons, ho]
      rfl

theorem pending_run (line : List Char) : Pending (Cut.initial.run 0 line) line :=
  run_keeps (fun _ _ c rest h => h.step c rest) pending_initial line

theorem Closes.closedBy {openers : List Char} (h : Closes (c :: openers) a) : ClosedBy c a := by
  cases h with
  | one pair inside others => exact .bracket pair inside

theorem ClosedBy.append (h : ClosedBy c a) (b : List Char) : ClosedBy c (a ++ b) := by
  cases h with
  | quote ends => exact .quote (List.mem_append_left b ends)
  | bracket pair inside =>
    rw [List.append_assoc, List.cons_append]
    exact .bracket pair inside

/-- Where nothing is open at a place, every delimiter before it is closed before it. -/
theorem closedBy_of_closed (hstray : (settled.reads (before ++ c :: after)).stray = false)
    (closed : (settled.reads (before ++ c :: after)).Closed) (hc : c ∈ ['"', '[', '{'])
    (outside : before.count '"' % 2 = 0) : ClosedBy c after := by
  have hclear : (settled.reads before).stray = false :=
    clear_of_begins (List.prefix_append before (c :: after)) hstray
  have hquoted : (settled.reads before).quoted = false := by simp [quoted_reads, outside]
  have hsettled : (settled.reads before).reads (c :: after) = settled := by
    rw [← reads_append, eq_spoil_of_closed closed, hstray]
    rfl
  generalize settled.reads before = d at *
  obtain ⟨quoted, openers, stray⟩ := d
  obtain rfl : quoted = false := hquoted
  obtain rfl : stray = false := hclear
  simp only [List.mem_cons, List.not_mem_nil, or_false] at hc
  rcases hc with rfl | rfl | rfl
  · obtain ⟨body, rest, rfl, -⟩ := (settles after).inQuote openers hsettled
    exact .quote (by simp)
  · exact ((settles after).unquoted ('[' :: openers) hsettled).closedBy
  · exact ((settles after).unquoted ('{' :: openers) hsettled).closedBy

/-- Of two places in a line one comes first, and then the text behind it goes on to the other. -/
theorem before_or_behind {before' rest' : List Char} {d : Char}
    (h : before ++ c :: rest = before' ++ d :: rest') :
    before <+: before' ∨ ∃ between, before = before' ++ d :: between ∧
      rest' = between ++ c :: rest := by
  rcases List.append_eq_append_iff.mp h with ⟨x, hx, -⟩ | ⟨x, hx, hrest⟩
  · exact .inl ⟨x, hx.symm⟩
  · cases x with
    | nil => exact .inl ⟨[], by simp [hx]⟩
    | cons e between =>
      injection hrest with hd hrest
      exact .inr ⟨between, hd ▸ hx, hrest⟩

/-- Two ways to split a text at one place are the same. -/
theorem split_of_width {before' rest' : List Char} (h : before ++ rest = before' ++ rest')
    (hw : width before = width before') : before = before' ∧ rest = rest' := by
  obtain ⟨x, hx, hrest⟩ := append_eq_append_of_width h (Nat.le_of_eq hw)
  obtain rfl : x = [] := by
    apply eq_nil_of_width
    rw [hx, width_append] at hw
    omega
  rw [List.append_nil] at hx
  exact ⟨hx.symm, hrest⟩

/-- The quote that is open at the end of a line is the first of its quotes that is never closed. -/
theorem open_quote_unclosed {line : String}
    (hq : (Cut.initial.run 0 line.toList).quote = some q) :
    ∃ before rest, Unclosed line.toList before '"' rest ∧ q = ⟨'"', width before, '"' :: rest⟩ ∧
      ∀ before' rest', Unclosed line.toList before' '"' rest' → before <+: before' := by
  obtain ⟨before, c, rest, hline, rfl⟩ := (placed_cut line).opening q (.inl hq)
  obtain ⟨hc, before', after, ⟨hline', hwidth⟩, hquoted, hnot⟩ :=
    (pending_run line.toList).quote _ hq
  obtain rfl : c = '"' := hc
  obtain ⟨rfl, hrest⟩ := split_of_width (hline'.symm.trans hline) hwidth
  obtain rfl : after = rest := List.tail_eq_of_cons_eq hrest
  refine ⟨before', after, ⟨hline, by simp, ?_, ?_⟩, rfl, ?_⟩
  · simpa [quoted_reads] using hquoted
  · intro closed
    cases closed with
    | quote ends => exact hnot ends
    | bracket pair inside => simp at pair
  · intro other rest' unclosed
    rcases before_or_behind (hline.symm.trans unclosed.split) with hfirst | ⟨between, -, hbehind⟩
    · exact hfirst
    · exact absurd (.quote (by simp [hbehind])) unclosed.never

/-- If no quote is open at the end of a line, the outermost of the brackets and braces that are is
the first of all delimiters that are never closed. -/
theorem outermost_unclosed {line : String}
    (hq : (Cut.initial.run 0 line.toList).quote = none)
    (hs : (Cut.initial.run 0 line.toList).stray = none)
    (ho : (Cut.initial.run 0 line.toList).openers.getLast? = some o) :
    ∃ before c rest, Unclosed line.toList before c rest ∧ c ≠ '"' ∧
      o = ⟨c, width before, c :: rest⟩ ∧
      ∀ before' c' rest', Unclosed line.toList before' c' rest' → c' ≠ '"' ∧ before <+: before' := by
  have pending := pending_run line.toList
  have traces : Traces (Cut.initial.run 0 line.toList) line.toList :=
    traces_initial.run line.toList
  have hmem := List.mem_of_getLast? ho
  obtain ⟨before, c, rest, hline, rfl⟩ := (placed_cut line).opening o (.inr hmem)
  obtain ⟨before', after, ⟨hline', hwidth⟩, closed⟩ := pending.outermost _ ho
  obtain ⟨rfl, -⟩ := split_of_width (hline'.symm.trans hline) hwidth
  have hopener : c ∈ ['[', '{'] := by
    apply openers_reads line.toList
    rw [← pending.delimiters]
    exact List.mem_map.mpr ⟨_, hmem, rfl⟩
  have hc : c ≠ '"' := by
    rintro rfl
    simp at hopener
  have hstray : (settled.reads line.toList).stray = false := by
    rw [← pending.delimiters, Cut.delimiters, hs]
    rfl
  have hquoted : (settled.reads line.toList).quoted = false := by
    rw [← pending.delimiters, Cut.delimiters, hq]
    rfl
  refine ⟨before', c, rest, ⟨hline, List.mem_cons_of_mem '"' hopener, ?_, ?_⟩, hc, rfl, ?_⟩
  · simpa [quoted_reads] using closed.1
  · -- Closed by a nested text, the bracket would leave nothing open, while it still is.
    intro closedBy
    cases closedBy with
    | quote ends => exact hc rfl
    | @bracket _ d body behind pair inside =>
      have hbegins : before' ++ c :: (body ++ [d]) <+: line.toList := ⟨behind, by simp [hline]⟩
      have hwide : width before' < width (before' ++ c :: (body ++ [d])) := by
        have hsize := c.utf8Size_pos
        rw [width_append, width]
        omega
      apply traces.opening _ (.inr hmem) _ hbegins hwide
      rw [reads_append, reads_enclosed pair closed.1 fun d hd => inside.neutral d hd]
      exact closed
  · intro other c' rest' unclosed
    refine ⟨?_, ?_⟩
    · rintro rfl
      have hends : rest'.count '"' = 0 :=
        List.count_eq_zero.mpr fun ends => unclosed.never (.quote ends)
      have houtside := unclosed.outside
      rw [quoted_reads, unclosed.split, List.count_append, List.count_cons_self, hends] at hquoted
      have hodd : (other.count '"' + (0 + 1)) % 2 = 1 := by omega
      rw [hodd] at hquoted
      cases hquoted
    · rcases before_or_behind (hline.symm.trans unclosed.split) with
        hfirst | ⟨between, hbefore, hbehind⟩
      · exact hfirst
      · subst hbefore
        have hclear : (settled.reads (other ++ c' :: between)).stray = false :=
          clear_of_begins ⟨c :: rest, hline.symm⟩ hstray
        have hclosed := closedBy_of_closed hclear closed unclosed.delimiter unclosed.outside
        rw [hbehind] at unclosed
        exact absurd (hclosed.append (c :: rest)) unclosed.never

/-- If some beginning of a line begins no nested text, the trouble that is reported is the last
character of the shortest. Otherwise it is a delimiter that is never closed: the leftmost of them,
but for a quote that is open at the end, which is reported before any bracket or brace. -/
theorem first_trouble_reported_but_for_quotes {line : String} (h : (cut line).problem = some e) :
    ((∃ a, a <+: line.toList ∧ ¬ Continues a) →
      ∃ before c rest, line.toList = before ++ c :: rest ∧ ¬ Continues (before ++ [c]) ∧
        (∀ b, b <+: line.toList → ¬ Continues b → before ++ [c] <+: b) ∧
        e = ⟨.unexpected c, String.ofList (c :: rest), width before⟩) ∧
    ((∀ a, a <+: line.toList → Continues a) →
      ∃ before c rest, Unclosed line.toList before c rest ∧
        e = ⟨.unterminated (String.singleton c), String.ofList (c :: rest), width before⟩ ∧
        ∀ before' c' rest', Unclosed line.toList before' c' rest' →
          c = '"' ∧ c' ≠ '"' ∨ (c = '"' ↔ c' = '"') ∧ before <+: before') := by
  have hdelimiters : (Cut.initial.run 0 line.toList).delimiters = settled.reads line.toList :=
    delimiters_run .initial 0 line.toList
  have hstray : (settled.reads line.toList).stray =
      (Cut.initial.run 0 line.toList).stray.isSome := by
    rw [← hdelimiters]
    rfl
  simp only [cut, Cut.problem] at h
  cases hs : (Cut.initial.run 0 line.toList).stray with
  | some x =>
    simp only [hs, Option.some.injEq] at h
    subst h
    refine ⟨fun _ => stray_is_first hs, ?_⟩
    intro hall
    have hwhole := continues_iff.mp (hall _ List.prefix_rfl)
    rw [hstray, hs] at hwhole
    cases hwhole
  | none =>
    have hwhole : Continues line.toList := by
      rw [continues_iff, hstray, hs]
      rfl
    refine ⟨?_, fun _ => ?_⟩
    · rintro ⟨a, ha, hnot⟩
      exact absurd (hwhole.of_prefix ha) hnot
    · cases hq : (Cut.initial.run 0 line.toList).quote with
      | some q =>
        simp only [hs, hq, Option.some.injEq] at h
        obtain ⟨before, rest, unclosed, rfl, hfirst⟩ := open_quote_unclosed hq
        refine ⟨before, '"', rest, unclosed, ?_, ?_⟩
        · rw [← h]
          simp [ScanError.here]
        · intro before' c' rest' other
          by_cases hc : c' = '"'
          · subst hc
            exact .inr ⟨Iff.rfl, hfirst before' rest' other⟩
          · exact .inl ⟨rfl, hc⟩
      | none =>
        cases ho : (Cut.initial.run 0 line.toList).openers.getLast? with
        | none => simp [hs, hq, ho] at h
        | some o =>
          simp only [hs, hq, ho, Option.some.injEq] at h
          obtain ⟨before, c, rest, unclosed, hc, rfl, hfirst⟩ := outermost_unclosed hq hs ho
          refine ⟨before, c, rest, unclosed, ?_, ?_⟩
          · rw [← h]
            simp [ScanError.here]
          · intro before' c' rest' other
            obtain ⟨hc', hbefore⟩ := hfirst before' c' rest' other
            exact .inr ⟨iff_of_false hc hc', hbefore⟩

/-- The brace within the bracket is never closed either, but comes later. -/
theorem outermost_bracket_reported :
    let line := "é \"[\" [x \x7by"
    let e : ScanError := ⟨.unterminated "[", "[x \x7by", 7⟩
    (cut line).problem = some e ∧ (∀ a, a <+: line.toList → Continues a) ∧
      ∃ before c rest, Unclosed line.toList before c rest ∧
        e = ⟨.unterminated (String.singleton c), String.ofList (c :: rest), width before⟩ ∧
        ∀ before' c' rest', Unclosed line.toList before' c' rest' →
          c = '"' ∧ c' ≠ '"' ∨ (c = '"' ↔ c' = '"') ∧ before <+: before' := by
  intro line e
  have he : (cut line).problem = some e := by decide +kernel
  have hwhole : Continues line.toList := continues_iff.mpr (by decide +kernel)
  have hall : ∀ a, a <+: line.toList → Continues a := fun a ha => hwhole.of_prefix ha
  exact ⟨he, hall, (first_trouble_reported_but_for_quotes he).2 hall⟩

/-- A quote within a bracket is reported although the bracket is the first that is never closed. -/
theorem quote_reported_before_bracket :
    let line := "[\"a"
    (cut line).problem = some ⟨.unterminated "\"", "\"a", 1⟩ ∧
      (∀ a, a <+: line.toList → Continues a) ∧
      Unclosed line.toList [] '[' ['"', 'a'] ∧ Unclosed line.toList ['['] '"' ['a'] := by
  intro line
  have hwhole : Continues line.toList := continues_iff.mpr (by decide +kernel)
  refine ⟨by decide +kernel, fun a ha => hwhole.of_prefix ha, ?_, ?_⟩
  · refine ⟨by decide, by simp, rfl, ?_⟩
    intro closed
    generalize hrest : ['"', 'a'] = rest at closed
    cases closed with
    | @bracket _ d body behind pair inside =>
      have hd : d ∈ ['"', 'a'] := by simp [hrest]
      simp only [List.mem_cons, Prod.mk.injEq, List.not_mem_nil, or_false] at pair hd
      rcases pair with ⟨-, rfl⟩ | ⟨hbrace, -⟩
      · simp at hd
      · simp at hbrace
  · refine ⟨by decide, by simp, rfl, ?_⟩
    intro closed
    generalize hrest : ['a'] = rest at closed
    cases closed with
    | quote ends => simp [← hrest] at ends
    | bracket pair inside => simp at pair

end CommandConsole.Line
