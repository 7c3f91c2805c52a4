import Mathlib.Data.List.Induction
import Mathlib.Data.List.TakeWhile
import CommandConsole.Text.Blank

/-! White space at the ends of a text, and what is left once it is gone. -/
namespace CommandConsole.Text

variable {p : Char → Bool} {s t : List Char}

/-- Nothing but white space, or nothing at all. -/
def Blank (s : List Char) : Prop := ∀ c ∈ s, isBlank c = true

theorem blank_nil : Blank [] := by
  intro c hc
  cases hc

theorem Blank.append (hs : Blank s) (ht : Blank t) : Blank (s ++ t) := by
  intro c hc
  rcases List.mem_append.mp hc with hc | hc
  · exact hs c hc
  · exact ht c hc

theorem blank_takeWhile (s : List Char) : Blank (s.takeWhile isBlank) :=
  fun _ hc => List.mem_takeWhile_imp hc

/-- Where a run of characters that pass a test stops, a character fails it. -/
theorem eq_append_of_dropWhile {c : Char} (h : s.dropWhile p = c :: t) :
    s = s.takeWhile p ++ c :: t ∧ p c = false := by
  refine ⟨?_, ?_⟩
  · rw [← h, List.takeWhile_append_dropWhile]
  · have hc := List.head?_dropWhile_not p s
    rw [h] at hc
    exact hc

/-- A run goes as far as its characters pass the test. -/
theorem span_append (hs : ∀ c ∈ s, p c = true) (ht : ∀ c ∈ t.head?, p c = false) :
    (s ++ t).takeWhile p = s ∧ (s ++ t).dropWhile p = t := by
  have hstop : t.takeWhile p = [] ∧ t.dropWhile p = t := by
    cases t with
    | nil => exact ⟨rfl, rfl⟩
    | cons c t =>
      have hc := ht c rfl
      simp [hc]
  rw [List.takeWhile_append_of_pos hs, List.dropWhile_append_of_pos hs, hstop.1, hstop.2]
  exact ⟨List.append_nil s, rfl⟩

/-- What goes up to a closing character does not hold it. -/
theorem eq_append_of_closed {q c : Char} (h : s.dropWhile (· != q) = c :: t) :
    s = s.takeWhile (· != q) ++ q :: t ∧ q ∉ s.takeWhile (· != q) := by
  obtain ⟨hs, hc⟩ := eq_append_of_dropWhile h
  simp only [bne_eq_false_iff_eq] at hc
  subst hc
  refine ⟨hs, ?_⟩
  intro hin
  simpa using List.mem_takeWhile_imp hin

theorem span_closed {q : Char} (h : q ∉ s) (t : List Char) :
    (s ++ q :: t).takeWhile (· != q) = s ∧ (s ++ q :: t).dropWhile (· != q) = q :: t := by
  apply span_append
  · intro c hc
    rw [bne_iff_ne]
    rintro rfl
    exact h hc
  · simp

theorem dropWhile_blank (hs : Blank s) (t : List Char) :
    (s ++ t).dropWhile isBlank = t.dropWhile isBlank :=
  List.dropWhile_append_of_pos hs

/-- White space at the end is white space, and all there is to it. -/
theorem exists_eq_trimRight_append (s : List Char) :
    ∃ w, Blank w ∧ s = trimRight s ++ w ∧ ∀ c ∈ (trimRight s).getLast?, isBlank c = false := by
  induction s with
  | nil => exact ⟨[], blank_nil, rfl, by simp [trimRight]⟩
  | cons c r ih =>
    obtain ⟨w, hw, hr, hlast⟩ := ih
    cases ht : trimRight r with
    | nil =>
      rw [ht, List.nil_append] at hr
      cases hc : isBlank c with
      | false => exact ⟨r, hr ▸ hw, by simp [trimRight, ht, hc], by simp [trimRight, ht, hc]⟩
      | true =>
        refine ⟨c :: r, ?_, by simp [trimRight, ht, hc], by simp [trimRight, ht, hc]⟩
        intro d hd
        rcases List.mem_cons.mp hd with rfl | hd
        · exact hc
        · exact hw d (hr ▸ hd)
    | cons d u =>
      rw [ht] at hr hlast
      refine ⟨w, hw, ?_, ?_⟩
      · simp only [trimRight, ht]
        rw [List.cons_append, ← hr]
      · simpa [trimRight, ht] using hlast

theorem trimRight_eq_self (h : ∀ c ∈ s.getLast?, isBlank c = false) : trimRight s = s := by
  obtain ⟨w, hw, hs, -⟩ := exists_eq_trimRight_append s
  cases w using List.reverseRecOn with
  | nil =>
    rw [List.append_nil] at hs
    exact hs.symm
  | append_singleton w c =>
    have hc : isBlank c = false := h c (by rw [hs]; simp)
    have hb : isBlank c = true := hw c (by simp)
    rw [hb] at hc
    cases hc

theorem trimRight_append_blank (s : List Char) (ht : Blank t) :
    trimRight (s ++ t) = trimRight s := by
  induction s with
  | nil => exact trimRight_eq_nil.mpr ht
  | cons c r ih => simp only [List.cons_append, trimRight, ih]

theorem trimRight_append_of_ne_nil (s : List Char) (h : trimRight t ≠ []) :
    trimRight (s ++ t) = s ++ trimRight t := by
  induction s with
  | nil => rfl
  | cons c r ih =>
    simp only [List.cons_append, trimRight, ih]
    cases hr : r ++ trimRight t with
    | nil => exact absurd (List.append_eq_nil_iff.mp hr).2 h
    | cons d u => rfl

/-- What is trimmed off the end of a text does not touch the text before, up to white space. -/
theorem exists_trimRight_append (s t : List Char) :
    ∃ u, trimRight (s ++ t) = trimRight s ++ u := by
  by_cases h : trimRight t = []
  · exact ⟨[], by rw [trimRight_append_blank s (trimRight_eq_nil.mp h), List.append_nil]⟩
  · obtain ⟨w, -, hs, -⟩ := exists_eq_trimRight_append s
    refine ⟨w ++ trimRight t, ?_⟩
    rw [trimRight_append_of_ne_nil s h, ← List.append_assoc, ← hs]

theorem trimRight_isPrefix (s : List Char) : trimRight s <+: s := by
  obtain ⟨w, -, hs, -⟩ := exists_eq_trimRight_append s
  exact ⟨w, hs.symm⟩

/-- A text without white space at its ends has none to be removed. -/
theorem trim_eq_self {s : String} (first : ∀ c ∈ s.toList.head?, isBlank c = false)
    (last : ∀ c ∈ s.toList.getLast?, isBlank c = false) : trim s = s := by
  have hleft : trimLeft s.toList = s.toList :=
    (span_append (s := []) (p := isBlank) (fun c hc => nomatch hc) first).2
  rw [trim, hleft, trimRight_eq_self last, String.ofList_toList]

theorem trim_trim (s : String) : trim (trim s) = trim s := by
  apply trim_eq_self
  · intro c hc
    rw [trim, String.toList_ofList] at hc
    obtain ⟨w, hw⟩ := trimRight_isPrefix (trimLeft s.toList)
    have hhead : (trimLeft s.toList).head? = some c := by
      rw [← hw, List.head?_append, Option.mem_def.mp hc, Option.some_or]
    have hnot := List.head?_dropWhile_not isBlank s.toList
    rw [← trimLeft, hhead] at hnot
    exact hnot
  · intro c hc
    rw [trim, String.toList_ofList] at hc
    obtain ⟨w, -, -, hlast⟩ := exists_eq_trimRight_append (trimLeft s.toList)
    exact hlast c hc

theorem mem_of_mem_trim {s : String} {c : Char} (h : c ∈ (trim s).toList) : c ∈ s.toList := by
  rw [trim, String.toList_ofList] at h
  exact (List.dropWhile_sublist isBlank).subset ((trimRight_isPrefix _).subset h)

end CommandConsole.Text
