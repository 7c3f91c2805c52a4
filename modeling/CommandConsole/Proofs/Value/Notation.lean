import CommandConsole.Proofs.Number.Decimal
import CommandConsole.Proofs.Token.Display
import CommandConsole.Proofs.Value.Sayable
import CommandConsole.Proofs.ValueParser.Yields
import CommandConsole.Value.Text

/-! Values as they are displayed: the token that the display of a value is, and what the parser of
its type makes of that token. -/
namespace CommandConsole

open Text Token ValueParser ValueType

mutual

/-- The token that the display of a value is read as. -/
def Value.token : Value → Token
  | .list items => .collection (itemTokens items)
  | .map entries => .dictionary (entryTokens entries)
  | v => .plain v.display

def itemTokens : List Value → List Token
  | [] => []
  | v :: r => v.token :: itemTokens r

def entryTokens : List (Value × Value) → List (Token × Token)
  | [] => []
  | (k, v) :: r => (k.token, v.token) :: entryTokens r

end

namespace Value

variable {t k u : ValueType} {v w : Value} {items : List Value} {entries : List (Value × Value)}
  {s : String} {c : Char} {p key value : ValueParser} {place : Identity}
  {properties : PropertySource} {stops : List Char}

theorem token_bool (b : Bool) : (Value.bool b).token = .plain (boolText b) := rfl

theorem token_int (n : Int64) : (Value.int n).token = .plain (Decimal.int64Text n) := rfl

theorem itemTokens_eq_map (items : List Value) : itemTokens items = items.map token := by
  induction items with
  | nil => rfl
  | cons v r ih => rw [itemTokens, ih, List.map_cons]

theorem entryTokens_eq_map (entries : List (Value × Value)) :
    entryTokens entries = entries.map fun e => (e.1.token, e.2.token) := by
  induction entries with
  | nil => rfl
  | cons e r ih =>
    obtain ⟨k, v⟩ := e
    rw [entryTokens, ih, List.map_cons]

theorem displayItems_eq_map (items : List Value) : displayItems items = items.map display := by
  induction items with
  | nil => rfl
  | cons v r ih => rw [displayItems, ih, List.map_cons]

theorem displayEntries_eq_map (entries : List (Value × Value)) :
    displayEntries entries = entries.map fun e => e.1.display ++ ":" ++ e.2.display := by
  induction entries with
  | nil => rfl
  | cons e r ih =>
    obtain ⟨k, v⟩ := e
    rw [displayEntries, ih, List.map_cons]

/-- The token is displayed like the value. -/
theorem display_token (h : t.Sayable v) : v.token.display = v.display := by
  induction h with
  | bool b => rfl
  | int n => rfl
  | text plain => rfl
  | nil t => rfl
  | optional inner present spared ih => exact ih
  | @list t items each ih =>
    have hitems : displayTokens (itemTokens items) = displayItems items := by
      rw [itemTokens_eq_map, displayTokens_eq_map, displayItems_eq_map, List.map_map]
      exact List.map_congr_left ih
    rw [token, Token.display, display, hitems]
  | @map k u entries keys values distinct ihk ihu =>
    have hentries : displayPairs (entryTokens entries) = displayEntries entries := by
      rw [entryTokens_eq_map, displayPairs_eq_map, displayEntries_eq_map, List.map_map]
      refine List.map_congr_left fun e he => ?_
      simp only [Function.comp, ihk e he, ihu e he]
    rw [token, Token.display, display, hentries]

/-- A key is recognised by its display. -/
theorem keyText_token (h : t.Sayable v) : v.token.keyText = v.display := by
  rw [← display_token h]
  cases v <;> rfl

theorem not_mem_of_numeric (h : Decimal.IsNumeric c) :
    isBlank c = false ∧ c ∉ ['"', '[', ']', '{', '}', ',', ':'] ∧ c.toLower ≠ 'n' := by
  rcases h with rfl | h
  · decide
  · simp only [Char.isDigit, Bool.and_eq_true, decide_eq_true_eq] at h
    have hlow : 48 ≤ c.toNat := h.1
    have hhigh : c.toNat ≤ 57 := h.2
    refine ⟨?_, ?_, ?_⟩
    · simp only [isBlank, Bool.or_eq_false_iff, Bool.and_eq_false_iff, decide_eq_false_iff_not,
        beq_eq_false_iff_ne]
      omega
    · intro hc
      simp only [List.mem_cons, List.not_mem_nil, or_false] at hc
      rcases hc with rfl | rfl | rfl | rfl | rfl | rfl | rfl <;> simp at hlow hhigh
    · have hcase : ¬ (c.val ≥ 'A'.val ∧ c.val ≤ 'Z'.val) := by
        rintro ⟨hupper, -⟩
        have hge : 65 ≤ c.toNat := hupper
        omega
      have hlower : c.toLower = c := dif_neg hcase
      rw [hlower]
      rintro rfl
      simp at hhigh

theorem plain_boolText (b : Bool) : Plain (boolText b) := by
  cases b <;> decide

theorem plain_int64Text (n : Int64) : Plain (Decimal.int64Text n) := by
  refine ⟨?_, ?_⟩
  · intro hempty
    apply Decimal.integerText_ne_nil n.toInt
    rw [← Decimal.int64Text, hempty]
    rfl
  · intro c hc
    obtain ⟨hblank, hnotation, -⟩ := not_mem_of_numeric (Decimal.numeric_of_mem_integerText hc)
    exact ⟨hblank, hnotation⟩

theorem trim_of_plain (h : Plain s) : trim s = s :=
  trim_eq_self (fun c hc => (h.2 c (List.mem_of_mem_head? hc)).1)
    fun c hc => (h.2 c (List.mem_of_getLast? hc)).1

theorem isNilWord_eq_false (h : ∀ c ∈ s.toList, c.toLower ≠ 'n') : isNilWord s = false := by
  have hother : ∀ word : String, 'n' ∈ (lowerAscii word).toList →
      sameIgnoringCase s word = false := by
    intro word hn
    rw [sameIgnoringCase, beq_eq_false_iff_ne]
    intro heq
    rw [← heq, lowerAscii, String.toList_ofList, List.mem_map] at hn
    obtain ⟨c, hc, hlower⟩ := hn
    exact h c hc hlower
  rw [isNilWord, hother "null" (by decide), hother "nil" (by decide), Bool.or_self]

theorem bool_parse (b : Bool) :
    ValueParser.bool.parse place (.plain (boolText b)) = .ok (.bool b) := by
  cases b <;> rfl

theorem int_parse (n : Int64) :
    ValueParser.int.parse place (.plain (Decimal.int64Text n)) = .ok (.int n) := by
  simp only [ValueParser.int, scalar, Token.scalar?, trim_of_plain (plain_int64Text n),
    Decimal.int64?_int64Text]

/-- What is not nil is not displayed as if it were. -/
theorem isNilWord_of_token (h : t.Sayable v) (present : v.isNil = false)
    (spared : ∀ s, v = .text s → isNilWord s = false) (hs : v.token = .plain s) :
    isNilWord s = false := by
  induction h with
  | bool b =>
    injection hs with hs
    subst hs
    cases b <;> decide
  | int n =>
    injection hs with hs
    subst hs
    exact isNilWord_eq_false fun c hc =>
      (not_mem_of_numeric (Decimal.numeric_of_mem_integerText hc)).2.2
  | text plain =>
    injection hs with hs
    exact spared s (congrArg Value.text hs)
  | nil t => cases present
  | optional inner present spared ih => exact ih present spared hs
  | list each => cases hs
  | map keys values distinct => cases hs

theorem parse_optional (h : t.Sayable v) (present : v.isNil = false)
    (spared : ∀ s, v = .text s → isNilWord s = false) :
    (ValueParser.optional p).parse place v.token = p.parse place v.token := by
  simp only [ValueParser.optional]
  split
  · rename_i s hs
    rw [if_neg (by simp [isNilWord_of_token h present spared hs])]
  · rfl

theorem reads_itemTokens (h : ∀ v ∈ items, ∀ place, p.parse place v.token = .ok v)
    (index : Nat) : p.ReadsItems place index (itemTokens items) items := by
  induction items generalizing index with
  | nil => exact .nil
  | cons v r ih =>
    have hrest := ih (fun v hv => h v (List.mem_cons_of_mem _ hv)) (index + 1)
    exact readsItems_cons_iff.mpr ⟨v, r, h v List.mem_cons_self _, hrest, rfl⟩

theorem reads_entryTokens
    (h : ∀ e ∈ entries, ∀ place, key.parse place e.1.token = .ok e.1 ∧
      value.parse place e.2.token = .ok e.2) (index : Nat) :
    key.ReadsPairs value place index (entryTokens entries) entries := by
  induction entries generalizing index with
  | nil => exact .nil
  | cons e r ih =>
    have hrest := ih (fun e he => h e (List.mem_cons_of_mem _ he)) (index + 1)
    have hfirst := h e List.mem_cons_self
    exact readsPairs_cons_iff.mpr ⟨e, r, ⟨(hfirst _).1, (hfirst _).2⟩, hrest, rfl⟩

/-- The parser of a type makes a value again of the token that it is displayed as. -/
theorem parse_token (h : t.Sayable v) (hp : ParserRegistry.builtin.resolve t = .ok p)
    (place : Identity) : p.parse place v.token = .ok v := by
  induction h generalizing p place with
  | bool b =>
    rw [ParserRegistry.resolve_of_find? ParserRegistry.standard_builtin.bool] at hp
    injection hp with hp
    rw [← hp, token_bool, bool_parse]
  | int n =>
    rw [ParserRegistry.resolve_of_find? ParserRegistry.standard_builtin.int] at hp
    injection hp with hp
    rw [← hp, token_int, int_parse]
  | text plain =>
    rw [ParserRegistry.resolve_of_find? ParserRegistry.standard_builtin.text] at hp
    injection hp with hp
    rw [← hp]
    rfl
  | nil t =>
    rw [ParserRegistry.resolve_builtin_optional] at hp
    obtain ⟨inner, -, rfl⟩ := exists_of_map_eq_ok hp
    rfl
  | optional inner present spared ih =>
    rw [ParserRegistry.resolve_builtin_optional] at hp
    obtain ⟨parser, hparser, rfl⟩ := exists_of_map_eq_ok hp
    rw [parse_optional inner present spared]
    exact ih hparser place
  | list each ih =>
    rw [ParserRegistry.resolve_builtin_list] at hp
    obtain ⟨element, helement, rfl⟩ := exists_of_map_eq_ok hp
    have hitems := fun v hv => ih v hv helement
    exact list_parses_iff.mpr ⟨_, _, rfl, reads_itemTokens hitems 0, rfl⟩
  | @map k u entries keys values distinct ihk ihu =>
    rw [ParserRegistry.resolve_builtin_map] at hp
    split at hp
    · cases hp
    rename_i key hkey
    obtain ⟨value, hvalue, rfl⟩ := exists_of_map_eq_ok hp
    have hpairs := fun e he place => And.intro (ihk e he hkey place) (ihu e he hvalue place)
    exact map_parses_iff.mpr ⟨_, entries, rfl, reads_entryTokens hpairs 0, distinct, rfl⟩

end Value
end CommandConsole
