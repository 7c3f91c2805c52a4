import CommandConsole.Proofs.Line.Solid
import CommandConsole.Proofs.Value.Notation

/-! The display of a value as a text: in the notation of tokens, and as one word of a line. -/
namespace CommandConsole.Value

open Text ValueType Token

variable {t k u : ValueType} {v w : Value} {items : List Value} {entries : List (Value × Value)}
  {s : String} {properties : PropertySource} {stops : List Char}

theorem toList_display_list (items : List Value) : (Value.list items).display.toList =
    '[' :: ([','].intercalate (items.map fun v => v.display.toList) ++ [']']) := by
  rw [display, String.toList_append, String.toList_append, displayItems_eq_map, toList_commas]
  rfl

theorem toList_display_map (entries : List (Value × Value)) : (Value.map entries).display.toList =
    '{' :: ([','].intercalate
      (entries.map fun e => e.1.display.toList ++ ':' :: e.2.display.toList) ++ ['}']) := by
  rw [display, String.toList_append, String.toList_append, displayEntries_eq_map, toList_commas]
  simp only [toList_colon]
  rfl

theorem isDelimiter_of_plain {c : Char} (h : c ∉ ['"', '[', ']', '{', '}', ',', ':']) :
    isDelimiter c = false := by
  simp only [List.mem_cons, List.not_mem_nil, or_false, not_or] at h
  simp [isDelimiter, h]

/-- Plain text is read as it is, before whatever may end a token. -/
theorem written_plain (h : Plain s) (hstops : stops ⊆ [':', ',', ']', '}']) :
    Written properties stops s.toList (.plain s) := by
  have bare : Bare stops s.toList := by
    refine ⟨by simpa using h.1, ?_, ?_, ?_⟩
    · exact fun c hc => (h.2 c (List.mem_of_mem_head? hc)).1
    · exact fun c hc => (h.2 c (List.mem_of_getLast? hc)).1
    · intro c hc
      refine ⟨?_, isDelimiter_of_plain (h.2 c hc).2⟩
      intro hstop
      have hmark := hstops hstop
      have hclear := (h.2 c hc).2
      simp only [List.mem_cons, List.not_mem_nil, or_false, not_or] at hmark hclear
      rcases hmark with rfl | rfl | rfl | rfl <;> simp at hclear
  have hwritten : Written properties stops s.toList (.plain (String.ofList s.toList)) := .plain bare
  rw [String.ofList_toList] at hwritten
  exact hwritten

/-- A simple type has a parser. -/
theorem resolves_of_isSimple (simple : t.isSimple = true) :
    ∃ p, ParserRegistry.builtin.resolve t = .ok p := by
  have hstandard := ParserRegistry.standard_builtin
  induction t with
  | bool => exact ⟨_, ParserRegistry.resolve_of_find? hstandard.bool⟩
  | int => exact ⟨_, ParserRegistry.resolve_of_find? hstandard.int⟩
  | text => exact ⟨_, ParserRegistry.resolve_of_find? hstandard.text⟩
  | float => cases simple
  | custom name => cases simple
  | enum e => cases simple
  | optional t ih =>
    obtain ⟨p, hp⟩ := ih simple
    rw [ParserRegistry.resolve_builtin_optional, hp]
    exact ⟨_, rfl⟩
  | list t ih =>
    obtain ⟨p, hp⟩ := ih simple
    rw [ParserRegistry.resolve_builtin_list, hp]
    exact ⟨_, rfl⟩
  | map k u ihk ihu =>
    rw [isSimple, Bool.and_eq_true] at simple
    obtain ⟨key, hkey⟩ := ihk simple.1
    obtain ⟨value, hvalue⟩ := ihu simple.2
    rw [ParserRegistry.resolve_builtin_map, hkey, hvalue]
    exact ⟨_, rfl⟩

/-- Values of a type that are displayed alike are the same. -/
theorem eq_of_display_eq (simple : t.isSimple = true) (hv : t.Sayable v) (hw : t.Sayable w)
    (writtenLeft : Written properties [] v.display.toList v.token)
    (writtenRight : Written properties [] w.display.toList w.token)
    (h : v.display = w.display) : v = w := by
  obtain ⟨p, hp⟩ := resolves_of_isSimple simple
  rw [h] at writtenLeft
  have htoken : v.token = w.token := writtenLeft.padded.unique writtenRight.padded
  have hparse := parse_token hv hp []
  rw [htoken, parse_token hw hp []] at hparse
  injection hparse with hparse
  exact hparse.symm

theorem keyTexts_nodup (simple : k.isSimple = true) (keys : ∀ e ∈ entries, k.Sayable e.1)
    (written : ∀ e ∈ entries, Written properties [] e.1.display.toList e.1.token)
    (distinct : Table.Distinct entries) : ((entryTokens entries).map (·.1.keyText)).Nodup := by
  rw [entryTokens_eq_map, List.map_map, List.Nodup, List.pairwise_map]
  refine distinct.imp_of_mem ?_
  intro a b ha hb hne heq
  simp only [Function.comp, keyText_token (keys a ha), keyText_token (keys b hb)] at heq
  have hab := eq_of_display_eq simple (keys a ha) (keys b hb) (written a ha) (written b hb) heq
  have hsame : b.1.same b.1 = true := same_self_of_sayable (keys b hb)
  rw [hab] at hne
  exact Bool.false_ne_true (hne.symm.trans hsame)

/-- The display of a value is its token in the notation of input. -/
theorem written_display (simple : t.isSimple = true) (h : t.Sayable v)
    (hstops : stops ⊆ [':', ',', ']', '}']) :
    Written properties stops v.display.toList v.token := by
  induction h generalizing stops with
  | bool b => exact written_plain (plain_boolText b) hstops
  | int n => exact written_plain (plain_int64Text n) hstops
  | text plain => exact written_plain plain hstops
  | nil t => exact written_plain (by decide) hstops
  | optional inner present spared ih => exact ih simple hstops
  | @list t items each ih =>
    rw [toList_display_list, token, itemTokens_eq_map]
    cases hitems : items with
    | nil => exact .emptyCollection blank_nil
    | cons v rest =>
      rw [← hitems]
      refine .collection (writtenItems_intercalate (by simp [hitems]) ?_)
      exact fun v hv => ih v hv simple (by decide)
  | @map k u entries keys values distinct ihk ihu =>
    rw [isSimple, Bool.and_eq_true] at simple
    have hkeys := keyTexts_nodup simple.1 keys (fun e he => ihk e he simple.1 (by decide)) distinct
    rw [toList_display_map, token]
    rw [entryTokens_eq_map] at hkeys ⊢
    cases hentries : entries with
    | nil => exact .emptyDictionary blank_nil
    | cons e rest =>
      rw [← hentries]
      refine .dictionary (writtenPairs_intercalate (by simp [hentries]) ?_) hkeys
      exact fun e he => ⟨ihk e he simple.1 (by decide), ihu e he simple.2 (by decide)⟩

theorem solid_plain (h : Plain s) : Line.Solid s.toList :=
  Line.solid_of_clear fun c hc => ⟨(h.2 c hc).1, isDelimiter_of_plain (h.2 c hc).2⟩

/-- The display of a value is one word. -/
theorem solid_display (h : t.Sayable v) : Line.Solid v.display.toList := by
  induction h with
  | bool b => exact solid_plain (plain_boolText b)
  | int n => exact solid_plain (plain_int64Text n)
  | text plain => exact solid_plain plain
  | nil t => exact solid_plain (by decide)
  | optional inner present spared ih => exact ih
  | list each ih =>
    rw [toList_display_list]
    refine Line.Solid.enclose (Line.solid_intercalate ?_) (by decide)
    intro s hs
    obtain ⟨v, hv, rfl⟩ := List.mem_map.mp hs
    exact ih v hv
  | map keys values distinct ihk ihu =>
    rw [toList_display_map]
    refine Line.Solid.enclose (Line.solid_intercalate ?_) (by decide)
    intro s hs
    obtain ⟨e, he, rfl⟩ := List.mem_map.mp hs
    exact (ihk e he).append ((Line.solid_singleton rfl rfl).append (ihu e he))

theorem display_ne_empty (simple : t.isSimple = true) (h : t.Sayable v) : v.display ≠ "" := by
  intro hempty
  have written : Written (fun _ => none) [] v.display.toList v.token :=
    written_display simple h (List.nil_subset _)
  obtain ⟨c, r, hcons, -⟩ := written.head
  rw [hempty] at hcons
  cases hcons

end CommandConsole.Value
