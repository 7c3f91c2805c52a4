import Mathlib.Data.List.DropRight
import Mathlib.Data.List.Nodup
import CommandConsole.Proofs.Token.Grammar

/-! The scanner reads the notation of tokens and nothing else. -/
namespace CommandConsole

open Text

namespace Cursor

variable {s : Cursor} {c : Char} {r : List Char}

@[simp] theorem rest_skipBlanks (s : Cursor) : s.skipBlanks.rest = s.rest.dropWhile isBlank := rfl

@[simp] theorem rest_skipWhile (s : Cursor) (p : Char → Bool) :
    (s.skipWhile p).rest = s.rest.dropWhile p := rfl

theorem rest_next (h : s.rest = c :: r) : s.next.rest = r := by
  simp only [next, h, past]

theorem exists_blank (s : Cursor) : ∃ w, Blank w ∧ s.rest = w ++ s.skipBlanks.rest :=
  ⟨s.rest.takeWhile isBlank, blank_takeWhile s.rest, List.takeWhile_append_dropWhile.symm⟩

/-- White space is passed over once. -/
theorem skipBlanks_skipBlanks (s : Cursor) : s.skipBlanks.skipBlanks = s.skipBlanks := by
  have hr := List.dropWhile_idempotent isBlank s.rest
  have ht : (s.rest.dropWhile isBlank).takeWhile isBlank = [] := by
    have := List.takeWhile_append_dropWhile (p := isBlank) (l := s.rest.dropWhile isBlank)
    rw [hr] at this
    simpa using this
  simp only [skipBlanks, past, ht, hr, width, Nat.add_zero]

/-- The cursor stands before a text, up to white space. -/
def Before (s : Cursor) (text : List Char) : Prop := s.skipBlanks.rest = text.dropWhile isBlank

theorem before_of_rest (s : Cursor) : s.Before s.rest := rfl

theorem Before.skipBlanks {text : List Char} (h : s.Before text) : s.skipBlanks.Before text := by
  rw [Before, skipBlanks_skipBlanks]
  exact h

theorem Before.rest_ne_nil {text : List Char} (h : s.Before text) (hc : c ∈ text)
    (hb : isBlank c = false) : s.skipBlanks.rest ≠ [] := by
  intro hnil
  rw [h] at hnil
  have hblank := List.dropWhile_eq_nil_iff.mp hnil c hc
  rw [hb] at hblank
  cases hblank

end Cursor

namespace Token

variable {properties : PropertySource} {stops body rest r : List Char} {c : Char} {t : Token}
  {s s' start : Cursor} {fuel : Nat} {items : List Token} {pairs : List (Token × Token)}

/-- What a plain text goes on with. -/
def staysBare (stops : List Char) (c : Char) : Bool := !stops.contains c && !isDelimiter c

theorem staysBare_iff : staysBare stops c = true ↔ c ∉ stops ∧ isDelimiter c = false := by
  simp [staysBare]

theorem scanPlain_eq_ok (h : scanPlain stops s = .ok (t, s')) :
    t = .plain (String.ofList (trimRight (s.rest.takeWhile (staysBare stops)))) ∧
      s'.rest = s.rest.dropWhile (staysBare stops) ∧ ∀ c ∈ s'.rest.head?, c ∈ stops := by
  simp only [scanPlain] at h
  split at h
  · rename_i hr
    injection h with h
    injection h with ht hs
    subst ht hs
    refine ⟨rfl, rfl, ?_⟩
    intro c hc
    rw [hr] at hc
    cases hc
  · rename_i c r hr
    split at h
    · rename_i hc
      injection h with h
      injection h with ht hs
      subst ht hs
      refine ⟨rfl, rfl, ?_⟩
      intro d hd
      rw [hr] at hd
      injection hd with hd
      exact hd ▸ List.contains_iff_mem.mp hc
    · cases h

theorem scanPlain_sound (hs : s.rest = c :: r) (hc : isBlank c = false) (hstop : c ∉ stops)
    (h : scanPlain stops s = .ok (t, s')) :
    ∃ text, s.rest = text ++ s'.rest ∧ Padded properties stops text t := by
  obtain ⟨rfl, hrest, hends⟩ := scanPlain_eq_ok h
  have hbare : staysBare stops c = true := by
    by_contra hnot
    rw [hs, List.dropWhile_cons_of_neg hnot] at hrest
    exact hstop (hends c (by rw [hrest]; rfl))
  refine ⟨s.rest.takeWhile (staysBare stops), ?_, ?_⟩
  · rw [hrest, List.takeWhile_append_dropWhile]
  · rw [hs, List.takeWhile_cons_of_pos hbare]
    apply padded_plain hc
    intro d hd
    rw [← List.takeWhile_cons_of_pos hbare] at hd
    exact staysBare_iff.mp (List.mem_takeWhile_imp hd)

theorem scanLiteral_sound (hs : s.rest = '"' :: r) (h : scanLiteral s = .ok (t, s')) :
    ∃ text, s.rest = text ++ s'.rest ∧ Written properties stops text t := by
  simp only [scanLiteral] at h
  split at h
  · cases h
  · rename_i c u hu
    injection h with h
    injection h with ht hs'
    subst ht hs'
    rw [Cursor.rest_next hu]
    rw [Cursor.rest_skipWhile, Cursor.rest_next hs] at hu
    rw [Cursor.rest_next hs]
    obtain ⟨hr, closed⟩ := eq_append_of_closed hu
    refine ⟨_, ?_, .literal closed⟩
    rw [hs, List.cons_append, List.append_assoc, List.singleton_append, ← hr]

theorem scanProperty_sound (hs : s.rest = '$' :: '{' :: r)
    (h : scanProperty properties s = .ok (t, s')) :
    ∃ text, s.rest = text ++ s'.rest ∧ Written properties stops text t := by
  have hinside : s.next.next.rest = r := Cursor.rest_next (Cursor.rest_next hs)
  simp only [scanProperty] at h
  split at h
  · cases h
  · rename_i c u hu
    split at h
    · cases h
    · rename_i hne
      split at h
      · rename_i value known
        injection h with h
        injection h with ht hs'
        subst ht hs'
        rw [hinside] at known hne
        rw [Cursor.rest_next hu, hinside]
        rw [Cursor.rest_skipWhile, hinside] at hu
        obtain ⟨hr, closed⟩ := eq_append_of_closed hu
        refine ⟨_, ?_, .property closed rfl hne known⟩
        rw [hs, List.cons_append, List.cons_append, List.append_assoc, List.singleton_append, ← hr]
      · cases h

/-- What is read as a token is written as that token. -/
def TokenSound (properties : PropertySource) (fuel : Nat) : Prop :=
  ∀ stops s t s', scanToken properties stops fuel s = .ok (t, s') →
    ∃ text, s.rest = text ++ s'.rest ∧ Padded properties stops text t

def ItemsSound (properties : PropertySource) (fuel : Nat) : Prop :=
  ∀ start items s t s', scanItems properties start items fuel s = .ok (t, s') →
    ∃ text found, s.rest = text ++ ']' :: s'.rest ∧ WrittenItems properties text found ∧
      t = .collection (items.reverse ++ found)

/-- A pair is only read if its key is none of the earlier ones. -/
def PairsSound (properties : PropertySource) (fuel : Nat) : Prop :=
  ∀ start pairs s t s', scanPairs properties start pairs fuel s = .ok (t, s') →
    ∃ text found, s.rest = text ++ '}' :: s'.rest ∧ WrittenPairs properties text found ∧
      t = .dictionary (pairs.reverse ++ found) ∧
      ((pairs.map (·.1.keyText)).Nodup → ((pairs.reverse ++ found).map (·.1.keyText)).Nodup)

theorem tokenSound_succ (hitems : ItemsSound properties fuel)
    (hpairs : PairsSound properties fuel) : TokenSound properties (fuel + 1) := by
  intro stops s t s' h
  obtain ⟨w, hw, hs⟩ := s.exists_blank
  suffices inside : ∃ text, s.skipBlanks.rest = text ++ s'.rest ∧ Padded properties stops text t by
    obtain ⟨text, htext, padded⟩ := inside
    exact ⟨w ++ text, by rw [hs, htext, List.append_assoc], padded.prepend hw⟩
  simp only [scanToken] at h
  split at h
  · cases h
  · rename_i r hr
    obtain ⟨text, htext, written⟩ := scanLiteral_sound hr h
    exact ⟨text, htext, written.padded⟩
  · rename_i r hr
    obtain ⟨v, hv, hinside⟩ := s.skipBlanks.next.exists_blank
    rw [Cursor.rest_next hr] at hinside
    split at h
    · rename_i u hu
      injection h with h
      injection h with ht hs'
      subst ht hs'
      refine ⟨_, ?_, (Written.emptyCollection hv).padded⟩
      rw [Cursor.rest_next hu, hr, hinside, hu]
      simp
    · obtain ⟨text, found, htext, written, rfl⟩ := hitems _ _ _ _ _ h
      refine ⟨_, ?_, (Written.collection (written.prepend hv)).padded⟩
      rw [hr, hinside, htext]
      simp
  · rename_i r hr
    obtain ⟨v, hv, hinside⟩ := s.skipBlanks.next.exists_blank
    rw [Cursor.rest_next hr] at hinside
    split at h
    · rename_i u hu
      injection h with h
      injection h with ht hs'
      subst ht hs'
      refine ⟨_, ?_, (Written.emptyDictionary hv).padded⟩
      rw [Cursor.rest_next hu, hr, hinside, hu]
      simp
    · obtain ⟨text, found, htext, written, rfl, distinct⟩ := hpairs _ _ _ _ _ h
      refine ⟨_, ?_, (Written.dictionary (written.prepend hv) (distinct .nil)).padded⟩
      rw [hr, hinside, htext]
      simp
  · rename_i r hr
    obtain ⟨text, htext, written⟩ := scanProperty_sound hr h
    exact ⟨text, htext, written.padded⟩
  · rename_i c r _ _ _ _ hr
    split at h
    · cases h
    · rename_i hstop
      exact scanPlain_sound hr (eq_append_of_dropWhile hr).2 (by simpa using hstop) h

theorem TokenSound.trailing (htoken : TokenSound properties fuel)
    (h : scanToken properties stops fuel s = .ok (t, s')) :
    ∃ text, s.rest = text ++ s'.skipBlanks.rest ∧ Padded properties stops text t := by
  obtain ⟨text, htext, written⟩ := htoken _ _ _ _ h
  obtain ⟨w, hw, hs'⟩ := s'.exists_blank
  exact ⟨text ++ w, by rw [htext, hs', List.append_assoc], written.append hw⟩

theorem TokenSound.leading (htoken : TokenSound properties fuel)
    (h : scanToken properties stops fuel s.skipBlanks = .ok (t, s')) :
    ∃ text, s.rest = text ++ s'.skipBlanks.rest ∧ Padded properties stops text t := by
  obtain ⟨text, htext, written⟩ := htoken.trailing h
  obtain ⟨w, hw, hs⟩ := s.exists_blank
  exact ⟨w ++ text, by rw [hs, htext, List.append_assoc], written.prepend hw⟩

theorem itemsSound_succ (htoken : TokenSound properties fuel)
    (hitems : ItemsSound properties fuel) : ItemsSound properties (fuel + 1) := by
  intro start items s t s' h
  simp only [scanItems] at h
  split at h
  · cases h
  split at h
  · cases h
  rename_i item u hitem
  obtain ⟨text, htext, written⟩ := htoken.leading hitem
  split at h
  · cases h
  rename_i c r hr
  have hnext := Cursor.rest_next hr
  rw [hr] at htext
  split at h
  · rename_i hc
    subst hc
    obtain ⟨others, found, hothers, writtenOthers, rfl⟩ := hitems _ _ _ _ _ h
    refine ⟨_, _, ?_, .more written writtenOthers, by simp⟩
    rw [htext, ← hnext, hothers]
    simp
  split at h
  · rename_i hc
    subst hc
    injection h with h
    injection h with ht hs'
    subst ht hs'
    exact ⟨_, _, by rw [htext, hnext], .last written, by simp⟩
  · cases h

/-- A key that none of the earlier pairs has. -/
theorem distinct_cons_iff {key value : Token} :
    (((key, value) :: pairs).map (·.1.keyText)).Nodup ↔
      ¬ pairs.any (·.1.keyText == key.keyText) = true ∧ (pairs.map (·.1.keyText)).Nodup := by
  rw [List.map_cons, List.nodup_cons, List.any_eq_true, List.mem_map]
  simp only [beq_iff_eq]

theorem pairsSound_succ (htoken : TokenSound properties fuel)
    (hpairs : PairsSound properties fuel) : PairsSound properties (fuel + 1) := by
  intro start pairs s t s' h
  simp only [scanPairs] at h
  split at h
  · cases h
  split at h
  · cases h
  rename_i key u hkey
  obtain ⟨text, htext, writtenKey⟩ := htoken.leading hkey
  split at h
  · cases h
  · rename_i r hr
    split at h
    · cases h
    rename_i hnew
    split at h
    · cases h
    rename_i value x hvalue
    obtain ⟨meaning, hmeaning, writtenValue⟩ := htoken.trailing hvalue
    split at h
    · cases h
    rename_i c q hq
    have hnext := Cursor.rest_next hq
    rw [Cursor.rest_next hr, hq] at hmeaning
    rw [hr, hmeaning] at htext
    split at h
    · rename_i hc
      subst hc
      obtain ⟨others, found, hothers, writtenOthers, rfl, distinct⟩ := hpairs _ _ _ _ _ h
      refine ⟨_, _, ?_, .more writtenKey writtenValue writtenOthers, by simp, ?_⟩
      · rw [htext, ← hnext, hothers]
        simp
      · intro hp
        simpa using distinct (distinct_cons_iff.mpr ⟨hnew, hp⟩)
    split at h
    · rename_i hc
      subst hc
      injection h with h
      injection h with ht hs'
      subst ht hs'
      refine ⟨_, _, ?_, .last writtenKey writtenValue, by simp, ?_⟩
      · rw [htext, hnext]
        simp
      · intro hp
        rw [← List.reverse_cons, List.map_reverse, List.nodup_reverse]
        exact distinct_cons_iff.mpr ⟨hnew, hp⟩
    · cases h
  · cases h

/-- Whatever the fuel, only what is written is read. -/
theorem scan_sound (properties : PropertySource) (fuel : Nat) :
    TokenSound properties fuel ∧ ItemsSound properties fuel ∧ PairsSound properties fuel := by
  induction fuel with
  | zero =>
    refine ⟨?_, ?_, ?_⟩
    · intro stops s t s' h
      cases h
    · intro start items s t s' h
      cases h
    · intro start pairs s t s' h
      cases h
  | succ fuel ih =>
    obtain ⟨htoken, hitems, hpairs⟩ := ih
    exact ⟨tokenSound_succ hitems hpairs, itemsSound_succ htoken hitems,
      pairsSound_succ htoken hpairs⟩

/-- What follows a token: nothing, or a stop. -/
structure Ends (stops rest : List Char) : Prop where
  clear : ∀ c ∈ stops, isBlank c = false ∧ c ≠ '{'
  stop : ∀ c ∈ rest.head?, c ∈ stops

/-- The stops of the notation end what stands before them. -/
theorem ends_cons (hc : c ∈ stops) (hstops : stops ⊆ [':', ',', ']', '}']) :
    Ends stops (c :: r) := by
  refine ⟨?_, ?_⟩
  · intro d hd
    have hin := hstops hd
    simp only [List.mem_cons, List.not_mem_nil, or_false] at hin
    rcases hin with rfl | rfl | rfl | rfl <;> exact ⟨rfl, by decide⟩
  · intro d hd
    injection hd with hd
    exact hd ▸ hc

theorem Ends.dropWhile (h : Ends stops rest) : rest.dropWhile isBlank = rest :=
  (span_append (s := []) (by simp) (fun c hc => (h.clear c (h.stop c hc)).1)).2

theorem scanPlain_complete {after : List Char} (bare : Bare stops body) (hafter : Blank after)
    (ends : Ends stops rest) (hs : s.rest = body ++ (after ++ rest)) :
    ∃ s', scanPlain stops s = .ok (.plain (String.ofList body), s') ∧ s'.rest = rest := by
  have hclear : ∀ c ∈ body ++ after, staysBare stops c = true := by
    intro c hc
    rw [staysBare_iff]
    rcases List.mem_append.mp hc with hc | hc
    · exact bare.clear c hc
    · have hblank := hafter c hc
      refine ⟨?_, ?_⟩
      · intro hstop
        rw [(ends.clear c hstop).1] at hblank
        cases hblank
      · by_contra hdelimiter
        rw [isBlank_of_isDelimiter (by simpa using hdelimiter)] at hblank
        cases hblank
  have hstops : ∀ c ∈ rest.head?, staysBare stops c = false := by
    intro c hc
    simp [staysBare, ends.stop c hc]
  obtain ⟨htake, hdrop⟩ := span_append hclear hstops
  rw [List.append_assoc, ← hs] at htake hdrop
  have htrim : trimRight (s.rest.takeWhile (staysBare stops)) = body := by
    rw [htake, trimRight_append_blank _ hafter, trimRight_eq_self bare.last]
  refine ⟨s.skipWhile (staysBare stops), ?_, hdrop⟩
  rw [← htrim]
  simp only [scanPlain]
  split
  · rfl
  · rename_i c r hr
    have hc : c ∈ stops := ends.stop c (by rw [← hdrop]; exact congrArg List.head? hr)
    rw [if_pos (List.contains_iff_mem.mpr hc)]
    rfl

theorem scanLiteral_complete (closed : '"' ∉ body) (hs : s.rest = '"' :: (body ++ '"' :: rest)) :
    ∃ s', scanLiteral s = .ok (.literal (String.ofList body), s') ∧ s'.rest = rest := by
  have hnext := Cursor.rest_next hs
  obtain ⟨htake, hdrop⟩ := span_closed closed rest
  rw [← hnext] at htake hdrop
  refine ⟨_, ?_, Cursor.rest_next (s := s.next.skipWhile (· != '"')) hdrop⟩
  simp only [scanLiteral, htake, Cursor.rest_skipWhile, hdrop]

theorem scanProperty_complete {name value : String} (closed : '}' ∉ body)
    (trimmed : trim (String.ofList body) = name) (nonempty : name ≠ "")
    (known : properties name = some value) (hs : s.rest = '$' :: '{' :: (body ++ '}' :: rest)) :
    ∃ s', scanProperty properties s = .ok (.property name value, s') ∧ s'.rest = rest := by
  have hnext := Cursor.rest_next (Cursor.rest_next hs)
  obtain ⟨htake, hdrop⟩ := span_closed closed rest
  rw [← hnext] at htake hdrop
  refine ⟨_, ?_, Cursor.rest_next (s := s.next.next.skipWhile (· != '}')) hdrop⟩
  simp only [scanProperty, htake, Cursor.rest_skipWhile, hdrop, trimmed, if_neg nonempty, known]

theorem scanToken_literal (h : s.skipBlanks.rest = '"' :: r) :
    scanToken properties stops (fuel + 1) s = scanLiteral s.skipBlanks := by
  simp only [scanToken, h]

theorem scanToken_property (h : s.skipBlanks.rest = '$' :: '{' :: r) :
    scanToken properties stops (fuel + 1) s = scanProperty properties s.skipBlanks := by
  simp only [scanToken, h]

theorem scanToken_collection (h : s.skipBlanks.rest = '[' :: r)
    (hinside : s.skipBlanks.next.skipBlanks.rest = c :: rest) (hc : c ≠ ']') :
    scanToken properties stops (fuel + 1) s =
      scanItems properties s.skipBlanks [] fuel s.skipBlanks.next.skipBlanks := by
  simp only [scanToken, h, hinside]
  split
  · simp_all
  · rfl

theorem scanToken_dictionary (h : s.skipBlanks.rest = '{' :: r)
    (hinside : s.skipBlanks.next.skipBlanks.rest = c :: rest) (hc : c ≠ '}') :
    scanToken properties stops (fuel + 1) s =
      scanPairs properties s.skipBlanks [] fuel s.skipBlanks.next.skipBlanks := by
  simp only [scanToken, h, hinside]
  split
  · simp_all
  · rfl

theorem scanToken_plain (h : s.skipBlanks.rest = c :: r) (hc : isDelimiter c = false)
    (hstop : c ∉ stops) (hr : ∀ d ∈ r.head?, d ≠ '{') :
    scanToken properties stops (fuel + 1) s = scanPlain stops s.skipBlanks := by
  simp only [scanToken, h]
  split <;> simp_all [isDelimiter]

/-- Whatever is written as a token is read as that token, up to what follows it. -/
def TokenComplete (properties : PropertySource) (fuel : Nat) : Prop :=
  ∀ stops text t s rest, Padded properties stops text t → 2 * text.length ≤ fuel →
    s.Before (text ++ rest) → Ends stops rest →
    ∃ s', scanToken properties stops fuel s = .ok (t, s') ∧ s'.skipBlanks.rest = rest

def ItemsComplete (properties : PropertySource) (fuel : Nat) : Prop :=
  ∀ start items text found s rest, WrittenItems properties text found →
    2 * text.length + 1 ≤ fuel → s.Before (text ++ ']' :: rest) →
    ∃ s', scanItems properties start items fuel s = .ok (.collection (items.reverse ++ found), s') ∧
      s'.rest = rest

def PairsComplete (properties : PropertySource) (fuel : Nat) : Prop :=
  ∀ start pairs text found s rest, WrittenPairs properties text found →
    2 * text.length + 1 ≤ fuel → s.Before (text ++ '}' :: rest) →
    ((pairs.reverse ++ found).map (·.1.keyText)).Nodup →
    ∃ s', scanPairs properties start pairs fuel s = .ok (.dictionary (pairs.reverse ++ found), s') ∧
      s'.rest = rest

theorem readPlain_complete {after : List Char} (bare : Bare stops body) (hafter : Blank after)
    (ends : Ends stops rest) (hs : s.skipBlanks.rest = body ++ (after ++ rest)) :
    ∃ s', scanToken properties stops (fuel + 1) s = .ok (.plain (String.ofList body), s') ∧
      s'.rest = rest := by
  obtain ⟨s', h, hs'⟩ := scanPlain_complete bare hafter ends hs
  refine ⟨s', ?_, hs'⟩
  rw [← h]
  -- a dollar sign begins a property only if a brace follows it
  cases body with
  | nil => exact absurd rfl bare.nonempty
  | cons c r =>
    have hfirst := bare.clear c List.mem_cons_self
    apply scanToken_plain hs hfirst.2 hfirst.1
    intro d hd
    cases r with
    | nil =>
      cases after with
      | nil => exact (ends.clear d (ends.stop d hd)).2
      | cons e after =>
        injection hd with hd
        subst hd
        rintro rfl
        exact absurd (hafter '{' List.mem_cons_self) (by decide)
    | cons e r =>
      injection hd with hd
      subst hd
      rintro rfl
      exact absurd (bare.clear '{' (by simp)).2 (by decide)

theorem readEmptyCollection_complete {blank : List Char} (inside : Blank blank)
    (hs : s.skipBlanks.rest = '[' :: (blank ++ ']' :: rest)) :
    ∃ s', scanToken properties stops (fuel + 1) s = .ok (.collection [], s') ∧ s'.rest = rest := by
  have hinside : s.skipBlanks.next.skipBlanks.rest = ']' :: rest := by
    rw [Cursor.rest_skipBlanks, Cursor.rest_next hs, dropWhile_blank inside]
    rfl
  refine ⟨_, ?_, Cursor.rest_next hinside⟩
  simp only [scanToken, hs, hinside]

theorem readEmptyDictionary_complete {blank : List Char} (inside : Blank blank)
    (hs : s.skipBlanks.rest = '{' :: (blank ++ '}' :: rest)) :
    ∃ s', scanToken properties stops (fuel + 1) s = .ok (.dictionary [], s') ∧ s'.rest = rest := by
  have hinside : s.skipBlanks.next.skipBlanks.rest = '}' :: rest := by
    rw [Cursor.rest_skipBlanks, Cursor.rest_next hs, dropWhile_blank inside]
    rfl
  refine ⟨_, ?_, Cursor.rest_next hinside⟩
  simp only [scanToken, hs, hinside]

theorem readCollection_complete (hitems : ItemsComplete properties fuel)
    (inside : WrittenItems properties body items) (hfuel : 2 * body.length + 1 ≤ fuel)
    (hs : s.skipBlanks.rest = '[' :: (body ++ ']' :: rest)) :
    ∃ s', scanToken properties stops (fuel + 1) s = .ok (.collection items, s') ∧
      s'.rest = rest := by
  obtain ⟨d, u, hd, hne⟩ := inside.head (']' :: rest)
  have hinside : s.skipBlanks.next.skipBlanks.rest = d :: u := by
    rw [Cursor.rest_skipBlanks, Cursor.rest_next hs, hd]
  have hbefore := Cursor.before_of_rest s.skipBlanks.next
  rw [Cursor.rest_next hs] at hbefore
  rw [scanToken_collection hs hinside hne]
  exact hitems _ [] _ _ _ _ inside hfuel hbefore.skipBlanks

theorem readDictionary_complete (hpairs : PairsComplete properties fuel)
    (inside : WrittenPairs properties body pairs) (distinct : (pairs.map (·.1.keyText)).Nodup)
    (hfuel : 2 * body.length + 1 ≤ fuel)
    (hs : s.skipBlanks.rest = '{' :: (body ++ '}' :: rest)) :
    ∃ s', scanToken properties stops (fuel + 1) s = .ok (.dictionary pairs, s') ∧
      s'.rest = rest := by
  obtain ⟨d, u, hd, hne⟩ := inside.head ('}' :: rest)
  have hinside : s.skipBlanks.next.skipBlanks.rest = d :: u := by
    rw [Cursor.rest_skipBlanks, Cursor.rest_next hs, hd]
  have hbefore := Cursor.before_of_rest s.skipBlanks.next
  rw [Cursor.rest_next hs] at hbefore
  rw [scanToken_dictionary hs hinside hne]
  exact hpairs _ [] _ _ _ _ inside hfuel hbefore.skipBlanks distinct

theorem tokenComplete_succ (hitems : ItemsComplete properties fuel)
    (hpairs : PairsComplete properties fuel) : TokenComplete properties (fuel + 1) := by
  rintro stops _ t s rest ⟨leading, written, trailing⟩ hfuel hs ends
  rename_i before body after
  have hrest : s.skipBlanks.rest = body ++ (after ++ rest) := by
    obtain ⟨c, r, hbody, hc, -⟩ := written.head
    rw [hs, List.append_assoc, List.append_assoc, dropWhile_blank leading, hbody, List.cons_append,
      List.dropWhile_cons_of_neg (by simp [hc])]
  have hafter : (after ++ rest).dropWhile isBlank = rest := by
    rw [dropWhile_blank trailing, ends.dropWhile]
  simp only [List.length_append] at hfuel
  -- a plain text is read with the white space after it, any other token without
  suffices read : ∃ s', scanToken properties stops (fuel + 1) s = .ok (t, s') ∧
      (s'.rest = rest ∨ s'.rest = after ++ rest) by
    obtain ⟨s', h, hs'⟩ := read
    refine ⟨s', h, ?_⟩
    rcases hs' with hs' | hs'
    · rw [Cursor.rest_skipBlanks, hs', ends.dropWhile]
    · rw [Cursor.rest_skipBlanks, hs', hafter]
  cases written with
  | plain bare =>
    obtain ⟨s', h, hs'⟩ := readPlain_complete bare trailing ends hrest
    exact ⟨s', h, .inl hs'⟩
  | literal closed =>
    rw [List.cons_append, List.append_assoc, List.singleton_append] at hrest
    obtain ⟨s', h, hs'⟩ := scanLiteral_complete closed hrest
    exact ⟨s', (scanToken_literal hrest).trans h, .inr hs'⟩
  | property closed trimmed nonempty known =>
    rw [List.cons_append, List.cons_append, List.append_assoc, List.singleton_append] at hrest
    obtain ⟨s', h, hs'⟩ := scanProperty_complete closed trimmed nonempty known hrest
    exact ⟨s', (scanToken_property hrest).trans h, .inr hs'⟩
  | emptyCollection inside =>
    rw [List.cons_append, List.append_assoc, List.singleton_append] at hrest
    obtain ⟨s', h, hs'⟩ := readEmptyCollection_complete inside hrest
    exact ⟨s', h, .inr hs'⟩
  | collection inside =>
    rw [List.cons_append, List.append_assoc, List.singleton_append] at hrest
    simp only [List.length_cons, List.length_append] at hfuel
    obtain ⟨s', h, hs'⟩ := readCollection_complete hitems inside (by omega) hrest
    exact ⟨s', h, .inr hs'⟩
  | emptyDictionary inside =>
    rw [List.cons_append, List.append_assoc, List.singleton_append] at hrest
    obtain ⟨s', h, hs'⟩ := readEmptyDictionary_complete inside hrest
    exact ⟨s', h, .inr hs'⟩
  | dictionary inside distinct =>
    rw [List.cons_append, List.append_assoc, List.singleton_append] at hrest
    simp only [List.length_cons, List.length_append] at hfuel
    obtain ⟨s', h, hs'⟩ := readDictionary_complete hpairs inside distinct (by omega) hrest
    exact ⟨s', h, .inr hs'⟩

theorem itemsComplete_succ (htoken : TokenComplete properties fuel)
    (hitems : ItemsComplete properties fuel) : ItemsComplete properties (fuel + 1) := by
  intro start items text found s rest h hfuel hs
  have hne := hs.rest_ne_nil (c := ']') (by simp) rfl
  cases h with
  | last written =>
    obtain ⟨u, hu, hrest⟩ := htoken _ _ _ _ _ written (by omega) hs.skipBlanks
      (ends_cons (by simp) (by simp))
    refine ⟨_, ?_, Cursor.rest_next hrest⟩
    simp only [scanItems, if_neg hne, hu, hrest]
    simp
  | @more body others item found written writtenOthers =>
    rw [List.append_assoc, List.cons_append] at hs
    obtain ⟨u, hu, hrest⟩ := htoken _ _ _ _ _ written (by simp at hfuel; omega) hs.skipBlanks
      (ends_cons (by simp) (by simp))
    have hbefore := Cursor.before_of_rest u.skipBlanks.next
    rw [Cursor.rest_next hrest] at hbefore
    obtain ⟨v, hv, hv'⟩ := hitems start (item :: items) _ _ _ _ writtenOthers
      (by simp at hfuel; omega) hbefore
    refine ⟨v, ?_, hv'⟩
    simp only [scanItems, if_neg hne, hu, hrest, if_true, hv]
    simp

theorem pairsComplete_succ (htoken : TokenComplete properties fuel)
    (hpairs : PairsComplete properties fuel) : PairsComplete properties (fuel + 1) := by
  intro start pairs text found s rest h hfuel hs distinct
  have hne := hs.rest_ne_nil (c := '}') (by simp) rfl
  cases h with
  | @last body meaning key value writtenKey writtenValue =>
    rw [List.append_assoc, List.cons_append] at hs
    simp only [List.length_append, List.length_cons] at hfuel
    have hnew : ¬ pairs.any (·.1.keyText == key.keyText) = true := by
      rw [← List.reverse_cons, List.map_reverse, List.nodup_reverse] at distinct
      exact (distinct_cons_iff.mp distinct).1
    obtain ⟨u, hu, hcolon⟩ := htoken _ _ _ _ _ writtenKey (by omega) hs.skipBlanks
      (ends_cons (by simp) (by simp))
    have hbefore := Cursor.before_of_rest u.skipBlanks.next
    rw [Cursor.rest_next hcolon] at hbefore
    obtain ⟨v, hv, hrest⟩ := htoken _ _ _ _ _ writtenValue (by omega) hbefore
      (ends_cons (by simp) (by simp))
    refine ⟨_, ?_, Cursor.rest_next hrest⟩
    simp only [scanPairs, if_neg hne, hu, hcolon, if_neg hnew, hv, hrest]
    simp
  | @more body meaning others key value found writtenKey writtenValue writtenOthers =>
    rw [List.append_assoc, List.cons_append, List.append_assoc, List.cons_append] at hs
    simp only [List.length_append, List.length_cons] at hfuel
    have hmoved : (((key, value) :: pairs).reverse ++ found).map (·.1.keyText) =
        (pairs.reverse ++ (key, value) :: found).map (·.1.keyText) := by
      simp
    rw [← hmoved] at distinct
    have hnew : ¬ pairs.any (·.1.keyText == key.keyText) = true := by
      rw [List.map_append] at distinct
      have hread := (List.nodup_append.mp distinct).1
      rw [List.map_reverse, List.nodup_reverse] at hread
      exact (distinct_cons_iff.mp hread).1
    obtain ⟨u, hu, hcolon⟩ := htoken _ _ _ _ _ writtenKey (by omega) hs.skipBlanks
      (ends_cons (by simp) (by simp))
    have hbefore := Cursor.before_of_rest u.skipBlanks.next
    rw [Cursor.rest_next hcolon] at hbefore
    obtain ⟨v, hv, hcomma⟩ := htoken _ _ _ _ _ writtenValue (by omega) hbefore
      (ends_cons (by simp) (by simp))
    have hnext := Cursor.before_of_rest v.skipBlanks.next
    rw [Cursor.rest_next hcomma] at hnext
    obtain ⟨x, hx, hrest⟩ := hpairs start ((key, value) :: pairs) _ _ _ _ writtenOthers
      (by omega) hnext distinct
    refine ⟨x, ?_, hrest⟩
    simp only [scanPairs, if_neg hne, hu, hcolon, if_neg hnew, hv, hcomma, if_true, hx]
    simp

/-- Fuel for every character of a text, twice, is fuel enough. -/
theorem scan_complete (properties : PropertySource) (fuel : Nat) :
    TokenComplete properties fuel ∧ ItemsComplete properties fuel ∧
      PairsComplete properties fuel := by
  induction fuel with
  | zero =>
    refine ⟨?_, ?_, ?_⟩
    · intro stops text t s rest h hfuel
      obtain ⟨leading, written, trailing⟩ := h
      obtain ⟨c, r, rfl, -⟩ := written.head
      simp at hfuel
    · intro start items text found s rest h hfuel
      omega
    · intro start pairs text found s rest h hfuel
      omega
  | succ fuel ih =>
    obtain ⟨htoken, hitems, hpairs⟩ := ih
    exact ⟨tokenComplete_succ hitems hpairs, itemsComplete_succ htoken hitems,
      pairsComplete_succ htoken hpairs⟩

theorem padded_of_scan {source : String} {offset : Nat}
    (h : scan source offset properties = .ok t) : Padded properties [] source.toList t := by
  simp only [scan] at h
  split at h
  · cases h
  rename_i u s hscan
  split at h
  · rename_i hend
    injection h with h
    subst h
    obtain ⟨text, htext, written⟩ := (scan_sound properties _).1.trailing hscan
    rw [hend, List.append_nil] at htext
    change source.toList = text at htext
    exact htext ▸ written
  · cases h

theorem scan_of_padded {source : String} (h : Padded properties [] source.toList t)
    (offset : Nat) : scan source offset properties = .ok t := by
  have hbefore : Cursor.Before ⟨source.toList, offset⟩ (source.toList ++ []) := by
    rw [List.append_nil]
    exact Cursor.before_of_rest _
  obtain ⟨s, hscan, hend⟩ := (scan_complete properties (2 * source.toList.length + 2)).1 _ _ _ _ _
    h (by omega) hbefore ⟨by simp, by simp⟩
  simp only [scan, hscan, hend]

/-- No text is written for two tokens. -/
theorem Padded.unique {u : Token} (h : Padded properties [] body t)
    (h' : Padded properties [] body u) : t = u := by
  rw [← String.toList_ofList (l := body)] at h h'
  have hscan := (scan_of_padded h 0).symm.trans (scan_of_padded h' 0)
  injection hscan

/-- A text is read as a token exactly if it is that token in the notation of tokens, with white
space around it. -/
theorem scan_eq_ok_iff (source : String) (offset : Nat) (properties : PropertySource) (t : Token) :
    scan source offset properties = .ok t ↔
      ∃ before body after, Blank before ∧ Blank after ∧
        source.toList = before ++ body ++ after ∧ Written properties [] body t := by
  rw [← padded_iff]
  constructor
  · intro h
    exact padded_of_scan h
  · intro h
    exact scan_of_padded h offset

end Token
end CommandConsole
