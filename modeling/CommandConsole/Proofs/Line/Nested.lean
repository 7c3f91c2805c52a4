import CommandConsole.Proofs.Line.Solid

/-! The language of texts in which every delimiter is closed. A line is cut without trouble exactly
if it belongs to it. -/
namespace CommandConsole.Line

open Delimiters

/-- A text in which every delimiter is closed. Inside quotes all but the quote is text. -/
inductive Nested : List Char → Prop where
  | empty : Nested []
  | bare {c : Char} {rest : List Char} (plain : c ∉ ['"', '[', ']', '{', '}'])
      (others : Nested rest) : Nested (c :: rest)
  | quoted {body rest : List Char} (closed : '"' ∉ body) (others : Nested rest) :
      Nested ('"' :: (body ++ '"' :: rest))
  | bracketed {body rest : List Char} (inside : Nested body) (others : Nested rest) :
      Nested ('[' :: (body ++ ']' :: rest))
  | braced {body rest : List Char} (inside : Nested body) (others : Nested rest) :
      Nested ('{' :: (body ++ '}' :: rest))

/-- A text that closes some openers, the innermost first: it is nested up to each of the closers and
after the last. -/
inductive Closes : List Char → List Char → Prop where
  | none {s : List Char} (nested : Nested s) : Closes [] s
  | one {o c : Char} {openers body rest : List Char} (pair : (o, c) ∈ [('[', ']'), ('{', '}')])
      (inside : Nested body) (others : Closes openers rest) :
      Closes (o :: openers) (body ++ c :: rest)

variable {s body rest openers block : List Char} {o c : Char} {d : Delimiters}

theorem Nested.enclose (pair : (o, c) ∈ [('[', ']'), ('{', '}')]) (inside : Nested body)
    (others : Nested rest) : Nested (o :: (body ++ c :: rest)) := by
  simp only [List.mem_cons, Prod.mk.injEq, List.not_mem_nil, or_false] at pair
  rcases pair with ⟨rfl, rfl⟩ | ⟨rfl, rfl⟩
  · exact .bracketed inside others
  · exact .braced inside others

theorem take_bare (plain : c ∉ ['"', '[', ']', '{', '}']) (d : Delimiters) : d.take c = d := by
  simp only [Delimiters.take]
  split <;> simp_all

theorem step_bare (hd : d.quoted = false) (plain : c ∉ ['"', '[', ']', '{', '}']) :
    d.step c = d := by
  rw [Delimiters.step, if_neg (by simp [hd]), take_bare plain]

/-- In a quote all but its end is text. -/
theorem reads_inside_quote (hd : d.quoted = true) (closed : '"' ∉ body) : d.reads body = d := by
  induction body with
  | nil => rfl
  | cons c body ih =>
    rw [List.mem_cons, not_or] at closed
    have hstep : d.step c = d := by
      simp only [Delimiters.step, hd, if_true, if_neg (Ne.symm closed.1)]
    rw [reads, List.foldl_cons, hstep]
    exact ih closed.2

theorem reads_quoted (hd : d.quoted = false) (closed : '"' ∉ body) (rest : List Char) :
    d.reads ('"' :: (body ++ '"' :: rest)) = d.reads rest := by
  have hopen : d.step '"' = { d with quoted := true } := by
    rw [Delimiters.step, if_neg (by simp [hd])]
    rfl
  have hclose : ({ d with quoted := true } : Delimiters).step '"' = d := by
    rw [Delimiters.step, if_pos rfl, if_pos rfl, ← hd]
  calc d.reads ('"' :: (body ++ '"' :: rest))
      = ((d.step '"').reads body).reads ('"' :: rest) := reads_append (d.step '"') body _
    _ = ({ d with quoted := true } : Delimiters).reads ('"' :: rest) := by
        rw [hopen, reads_inside_quote rfl closed]
    _ = d.reads rest := congrArg (Delimiters.reads · rest) hclose

/-- What stands between an opener and its closer may be anything that changes nothing. -/
theorem reads_enclosed (pair : (o, c) ∈ [('[', ']'), ('{', '}')]) (hd : d.quoted = false)
    (inside : ∀ d : Delimiters, d.quoted = false → d.reads body = d) (rest : List Char) :
    d.reads (o :: (body ++ c :: rest)) = d.reads rest := by
  obtain ⟨hopen, hclose⟩ := step_enclosing pair hd
  calc d.reads (o :: (body ++ c :: rest))
      = ((d.step o).reads body).reads (c :: rest) := reads_append (d.step o) body _
    _ = (d.step o).reads (c :: rest) := by rw [inside _ hopen]
    _ = d.reads rest := congrArg (Delimiters.reads · rest) hclose

/-- A nested text leaves the delimiters as it finds them. -/
theorem Nested.neutral (h : Nested s) (d : Delimiters) (hd : d.quoted = false) :
    d.reads s = d := by
  induction h generalizing d with
  | empty => rfl
  | bare plain others ih =>
    rw [reads, List.foldl_cons, step_bare hd plain]
    exact ih d hd
  | quoted closed others ih =>
    rw [reads_quoted hd closed]
    exact ih d hd
  | bracketed inside others ihInside ihOthers =>
    rw [reads_enclosed (by simp) hd ihInside]
    exact ihOthers d hd
  | braced inside others ihInside ihOthers =>
    rw [reads_enclosed (by simp) hd ihInside]
    exact ihOthers d hd

/-- What may stand before any nested text may stand before one that closes openers. -/
theorem Closes.prepend (h : Closes openers s)
    (free : ∀ t : List Char, Nested t → Nested (block ++ t)) :
    Closes openers (block ++ s) := by
  cases h with
  | none nested => exact .none (free _ nested)
  | one pair inside others =>
    rw [← List.append_assoc]
    exact .one pair (free _ inside) others

/-- A closer right away, and a text that closes the other openers. -/
theorem Closes.closer (h : Closes openers s) (pair : (o, c) ∈ [('[', ']'), ('{', '}')]) :
    Closes (o :: openers) (c :: s) := by
  have between : Nested [] := .empty
  exact Closes.one pair between h

/-- An opener, and a text that closes it. -/
theorem Closes.opener (h : Closes (o :: openers) s) : Closes openers (o :: s) := by
  cases h with
  | @one _ c _ body rest pair inside others =>
    have hblock : o :: (body ++ c :: rest) = (o :: (body ++ [c])) ++ rest := by simp
    rw [hblock]
    apply others.prepend
    intro t ht
    rw [List.cons_append, List.append_assoc, List.singleton_append]
    exact .enclose pair inside ht

/-- A quote, and a text that closes openers. -/
theorem Closes.quote (closed : '"' ∉ body) (h : Closes openers rest) :
    Closes openers ('"' :: (body ++ '"' :: rest)) := by
  have hblock : '"' :: (body ++ '"' :: rest) = ('"' :: (body ++ ['"'])) ++ rest := by simp
  rw [hblock]
  apply h.prepend
  intro t ht
  rw [List.cons_append, List.append_assoc, List.singleton_append]
  exact .quoted closed ht

/-- A closer that comes to be settled is that of the innermost opener. -/
theorem exists_opener_of_reads (pair : (o, c) ∈ [('[', ']'), ('{', '}')])
    (h : (⟨false, openers, false⟩ : Delimiters).reads (c :: s) = settled) :
    ∃ rest, openers = o :: rest ∧ (⟨false, rest, false⟩ : Delimiters).reads s = settled := by
  have hstep : (⟨false, openers, false⟩ : Delimiters).step c =
      (⟨false, openers, false⟩ : Delimiters).close o := by
    simp only [List.mem_cons, Prod.mk.injEq, List.not_mem_nil, or_false] at pair
    rcases pair with ⟨rfl, rfl⟩ | ⟨rfl, rfl⟩
    · rfl
    · rfl
  rw [reads, List.foldl_cons, hstep] at h
  have hstray : ((⟨false, openers, false⟩ : Delimiters).close o).stray = false := by
    by_contra hnot
    have hlate := stray_reads (by simpa using hnot) s
    rw [reads, h] at hlate
    cases hlate
  cases openers with
  | nil => cases hstray
  | cons p rest =>
    by_cases hp : p = o
    · subst hp
      refine ⟨rest, rfl, ?_⟩
      rw [← h]
      simp [Delimiters.close, reads]
    · simp [Delimiters.close, hp] at hstray

/-- The text that is left when delimiters come to be settled: it closes the quote, if one is open,
and then the openers. -/
structure Settles (s : List Char) : Prop where
  unquoted : ∀ openers, (⟨false, openers, false⟩ : Delimiters).reads s = settled → Closes openers s
  inQuote : ∀ openers, (⟨true, openers, false⟩ : Delimiters).reads s = settled →
    ∃ body rest, s = body ++ '"' :: rest ∧ '"' ∉ body ∧ Closes openers rest

theorem settles_nil : Settles [] := by
  refine ⟨?_, ?_⟩
  · intro openers h
    injection h with _ h _
    subst h
    exact .none .empty
  · intro openers h
    cases h

theorem Settles.unquoted_cons (h : Settles s)
    (hreads : (⟨false, openers, false⟩ : Delimiters).reads (c :: s) = settled) :
    Closes openers (c :: s) := by
  by_cases hc : c ∈ ['"', '[', ']', '{', '}']
  · simp only [List.mem_cons, List.not_mem_nil, or_false] at hc
    rcases hc with rfl | rfl | rfl | rfl | rfl
    · obtain ⟨body, rest, rfl, closed, closes⟩ := h.inQuote openers hreads
      exact closes.quote closed
    · exact (h.unquoted ('[' :: openers) hreads).opener
    · obtain ⟨rest, rfl, hrest⟩ := exists_opener_of_reads (o := '[') (by simp) hreads
      exact (h.unquoted rest hrest).closer (by simp)
    · exact (h.unquoted ('{' :: openers) hreads).opener
    · obtain ⟨rest, rfl, hrest⟩ := exists_opener_of_reads (o := '{') (by simp) hreads
      exact (h.unquoted rest hrest).closer (by simp)
  · rw [reads, List.foldl_cons, step_bare rfl hc] at hreads
    have bare : ∀ t : List Char, Nested t → Nested ([c] ++ t) := fun t ht => .bare hc ht
    exact (h.unquoted openers hreads).prepend bare

theorem Settles.inQuote_cons (h : Settles s)
    (hreads : (⟨true, openers, false⟩ : Delimiters).reads (c :: s) = settled) :
    ∃ body rest, c :: s = body ++ '"' :: rest ∧ '"' ∉ body ∧ Closes openers rest := by
  by_cases hc : c = '"'
  · subst hc
    exact ⟨[], s, rfl, by simp, h.unquoted openers hreads⟩
  · have hstep : (⟨true, openers, false⟩ : Delimiters).step c = ⟨true, openers, false⟩ := by
      simp [Delimiters.step, hc]
    rw [reads, List.foldl_cons, hstep] at hreads
    obtain ⟨body, rest, rfl, closed, closes⟩ := h.inQuote openers hreads
    exact ⟨c :: body, rest, rfl, by simp [closed, Ne.symm hc], closes⟩

theorem settles (s : List Char) : Settles s := by
  induction s with
  | nil => exact settles_nil
  | cons c s ih => exact ⟨fun _ => ih.unquoted_cons, fun _ => ih.inQuote_cons⟩

theorem reads_eq_settled_iff : settled.reads s = settled ↔ Nested s := by
  constructor
  · intro h
    cases (settles s).unquoted [] h with
    | none nested => exact nested
  · intro h
    exact h.neutral settled rfl

/-- A line is cut without trouble exactly if it is nested. -/
theorem words_ok_iff_nested (line : String) :
    (∃ ws, words line = .ok ws) ↔ Nested line.toList := by
  rw [← reads_eq_settled_iff, ← problem_cut_eq_none_iff, words]
  cases (cut line).problem with
  | none => simp
  | some e => simp

end CommandConsole.Line
