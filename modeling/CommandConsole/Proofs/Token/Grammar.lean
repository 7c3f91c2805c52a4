import CommandConsole.Proofs.Text.Blank
import CommandConsole.Token.Scan

/-! The notation of tokens, as a grammar. -/
namespace CommandConsole.Token

open Text

/-- A plain text, which ends before any of `stops`. -/
structure Bare (stops body : List Char) : Prop where
  nonempty : body ≠ []
  first : ∀ c ∈ body.head?, isBlank c = false
  last : ∀ c ∈ body.getLast?, isBlank c = false
  clear : ∀ c ∈ body, c ∉ stops ∧ isDelimiter c = false

mutual

/-- How a token is written where it has to end before any of `stops`. -/
inductive Written (properties : PropertySource) : List Char → List Char → Token → Prop where
  | plain {stops body : List Char} (bare : Bare stops body) :
      Written properties stops body (.plain (String.ofList body))
  | literal {stops body : List Char} (closed : '"' ∉ body) :
      Written properties stops ('"' :: (body ++ ['"'])) (.literal (String.ofList body))
  | property {stops body : List Char} {name value : String} (closed : '}' ∉ body)
      (trimmed : trim (String.ofList body) = name) (nonempty : name ≠ "")
      (known : properties name = some value) :
      Written properties stops ('$' :: '{' :: (body ++ ['}'])) (.property name value)
  | emptyCollection {stops blank : List Char} (inside : Blank blank) :
      Written properties stops ('[' :: (blank ++ [']'])) (.collection [])
  | collection {stops body : List Char} {items : List Token}
      (inside : WrittenItems properties body items) :
      Written properties stops ('[' :: (body ++ [']'])) (.collection items)
  | emptyDictionary {stops blank : List Char} (inside : Blank blank) :
      Written properties stops ('{' :: (blank ++ ['}'])) (.dictionary [])
  | dictionary {stops body : List Char} {pairs : List (Token × Token)}
      (inside : WrittenPairs properties body pairs)
      (distinct : (pairs.map (·.1.keyText)).Nodup) :
      Written properties stops ('{' :: (body ++ ['}'])) (.dictionary pairs)

/-- A token with white space around it. -/
inductive Padded (properties : PropertySource) : List Char → List Char → Token → Prop where
  | intro {stops before body after : List Char} {t : Token} (leading : Blank before)
      (written : Written properties stops body t) (trailing : Blank after) :
      Padded properties stops (before ++ body ++ after) t

/-- Items with commas between them. -/
inductive WrittenItems (properties : PropertySource) : List Char → List Token → Prop where
  | last {body : List Char} {item : Token} (written : Padded properties [',', ']'] body item) :
      WrittenItems properties body [item]
  | more {body rest : List Char} {item : Token} {items : List Token}
      (written : Padded properties [',', ']'] body item)
      (others : WrittenItems properties rest items) :
      WrittenItems properties (body ++ ',' :: rest) (item :: items)

/-- Keys with their values, and commas between the pairs. -/
inductive WrittenPairs (properties : PropertySource) :
    List Char → List (Token × Token) → Prop where
  | last {body meaning : List Char} {key value : Token}
      (writtenKey : Padded properties [':', ',', '}'] body key)
      (writtenValue : Padded properties [',', '}'] meaning value) :
      WrittenPairs properties (body ++ ':' :: meaning) [(key, value)]
  | more {body meaning rest : List Char} {key value : Token} {pairs : List (Token × Token)}
      (writtenKey : Padded properties [':', ',', '}'] body key)
      (writtenValue : Padded properties [',', '}'] meaning value)
      (others : WrittenPairs properties rest pairs) :
      WrittenPairs properties (body ++ ':' :: (meaning ++ ',' :: rest)) ((key, value) :: pairs)

end

variable {properties : PropertySource} {stops body blank text : List Char} {t : Token}

theorem padded_iff : Padded properties stops text t ↔
    ∃ before body after, Blank before ∧ Blank after ∧ text = before ++ body ++ after ∧
      Written properties stops body t := by
  constructor
  · rintro ⟨leading, written, trailing⟩
    exact ⟨_, _, _, leading, trailing, rfl, written⟩
  · rintro ⟨before, body, after, leading, trailing, rfl, written⟩
    exact .intro leading written trailing

theorem Written.padded (h : Written properties stops body t) : Padded properties stops body t := by
  have hp := Padded.intro blank_nil h blank_nil
  rw [List.nil_append, List.append_nil] at hp
  exact hp

theorem Padded.append (h : Padded properties stops body t) (hb : Blank blank) :
    Padded properties stops (body ++ blank) t := by
  obtain ⟨leading, written, trailing⟩ := h
  rw [List.append_assoc _ _ blank]
  exact .intro leading written (trailing.append hb)

theorem Padded.prepend (h : Padded properties stops body t) (hb : Blank blank) :
    Padded properties stops (blank ++ body) t := by
  obtain ⟨leading, written, trailing⟩ := h
  rw [← List.append_assoc, ← List.append_assoc]
  exact .intro (hb.append leading) written trailing

theorem WrittenItems.prepend {items : List Token} (h : WrittenItems properties body items)
    (hb : Blank blank) : WrittenItems properties (blank ++ body) items := by
  cases h with
  | last written => exact .last (written.prepend hb)
  | more written others =>
    rw [← List.append_assoc]
    exact .more (written.prepend hb) others

theorem WrittenPairs.prepend {pairs : List (Token × Token)}
    (h : WrittenPairs properties body pairs) (hb : Blank blank) :
    WrittenPairs properties (blank ++ body) pairs := by
  cases h with
  | last writtenKey writtenValue =>
    rw [← List.append_assoc]
    exact .last (writtenKey.prepend hb) writtenValue
  | more writtenKey writtenValue others =>
    rw [← List.append_assoc]
    exact .more (writtenKey.prepend hb) writtenValue others

theorem isBlank_of_isDelimiter {c : Char} (h : isDelimiter c = true) : isBlank c = false := by
  simp only [isDelimiter, Bool.or_eq_true, beq_iff_eq] at h
  rcases h with (((rfl | rfl) | rfl) | rfl) | rfl <;> rfl

/-- A run of characters that may stand in a plain text is one, with white space after it. -/
theorem padded_plain {c : Char} (hc : isBlank c = false)
    (clear : ∀ d ∈ c :: body, d ∉ stops ∧ isDelimiter d = false) :
    Padded properties stops (c :: body) (.plain (String.ofList (trimRight (c :: body)))) := by
  obtain ⟨w, hw, htrim, hlast⟩ := exists_eq_trimRight_append (c :: body)
  generalize trimRight (c :: body) = text at htrim hlast ⊢
  cases text with
  | nil =>
    rw [List.nil_append] at htrim
    have hblank := hw c (htrim ▸ List.mem_cons_self)
    rw [hc] at hblank
    cases hblank
  | cons d text =>
    rw [List.cons_append, List.cons.injEq] at htrim
    obtain ⟨rfl, rfl⟩ := htrim
    have bare : Bare stops (c :: text) := by
      refine ⟨List.cons_ne_nil c text, ?_, hlast, fun d hd => clear d (List.mem_append_left w hd)⟩
      intro d hd
      injection hd with hd
      exact hd ▸ hc
    exact .intro blank_nil (.plain bare) hw

/-- The first character of a token is neither white space nor a stop, if no token may begin with a
stop. -/
theorem Written.head (h : Written properties stops body t) :
    ∃ c r, body = c :: r ∧ isBlank c = false ∧ (c ∈ ['"', '$', '[', '{'] ∨ c ∉ stops) := by
  cases h with
  | plain bare =>
    cases body with
    | nil => exact absurd rfl bare.nonempty
    | cons c r => exact ⟨c, r, rfl, bare.first c rfl, .inr (bare.clear c List.mem_cons_self).1⟩
  | literal closed => exact ⟨_, _, rfl, rfl, .inl (by simp)⟩
  | property closed trimmed nonempty known => exact ⟨_, _, rfl, rfl, .inl (by simp)⟩
  | emptyCollection inside => exact ⟨_, _, rfl, rfl, .inl (by simp)⟩
  | collection inside => exact ⟨_, _, rfl, rfl, .inl (by simp)⟩
  | emptyDictionary inside => exact ⟨_, _, rfl, rfl, .inl (by simp)⟩
  | dictionary inside distinct => exact ⟨_, _, rfl, rfl, .inl (by simp)⟩

theorem Padded.head (h : Padded properties stops body t) (rest : List Char) :
    ∃ c r, (body ++ rest).dropWhile isBlank = c :: r ∧ (c ∈ ['"', '$', '[', '{'] ∨ c ∉ stops) := by
  obtain ⟨leading, written, trailing⟩ := h
  rename_i before body after
  obtain ⟨c, r, rfl, hc, hstop⟩ := written.head
  refine ⟨c, r ++ (after ++ rest), ?_, hstop⟩
  rw [List.append_assoc, List.append_assoc, dropWhile_blank leading, List.cons_append,
    List.dropWhile_cons_of_neg (by simp [hc])]

theorem WrittenItems.head {items : List Token} (h : WrittenItems properties body items)
    (rest : List Char) : ∃ c r, (body ++ rest).dropWhile isBlank = c :: r ∧ c ≠ ']' := by
  have hstop : ∀ c : Char, c ∈ ['"', '$', '[', '{'] ∨ c ∉ [',', ']'] → c ≠ ']' := by
    rintro c hc rfl
    simp at hc
  cases h with
  | last written =>
    obtain ⟨c, r, hr, hc⟩ := written.head rest
    exact ⟨c, r, hr, hstop c hc⟩
  | more written others =>
    rw [List.append_assoc]
    obtain ⟨c, r, hr, hc⟩ := written.head _
    exact ⟨c, r, hr, hstop c hc⟩

theorem WrittenPairs.head {pairs : List (Token × Token)} (h : WrittenPairs properties body pairs)
    (rest : List Char) : ∃ c r, (body ++ rest).dropWhile isBlank = c :: r ∧ c ≠ '}' := by
  have hstop : ∀ c : Char, c ∈ ['"', '$', '[', '{'] ∨ c ∉ [':', ',', '}'] → c ≠ '}' := by
    rintro c hc rfl
    simp at hc
  cases h with
  | last writtenKey writtenValue =>
    rw [List.append_assoc]
    obtain ⟨c, r, hr, hc⟩ := writtenKey.head _
    exact ⟨c, r, hr, hstop c hc⟩
  | more writtenKey writtenValue others =>
    rw [List.append_assoc]
    obtain ⟨c, r, hr, hc⟩ := writtenKey.head _
    exact ⟨c, r, hr, hstop c hc⟩

end CommandConsole.Token
