import CommandConsole.Signature.Choice

/-! Which overload is chosen for a number of words. -/
namespace CommandConsole.Signature

variable {overloads : List Signature} {provided : Nat}

theorem mem_feasible_iff {m : Candidate} :
    m ∈ feasible overloads provided ↔
      ∃ s, overloads[m.index]? = some s ∧ s.accepts provided = true ∧ s.required = m.specificity := by
  simp only [feasible, List.mem_mergeSort, List.mem_map, List.mem_filter]
  constructor
  · rintro ⟨⟨s, i⟩, ⟨hmem, hacc⟩, rfl⟩
    exact ⟨s, List.mk_mem_zipIdx_iff_getElem?.mp hmem, hacc, rfl⟩
  · rintro ⟨s, hs, hacc, hreq⟩
    exact ⟨(s, m.index), ⟨List.mk_mem_zipIdx_iff_getElem?.mpr hs, hacc⟩, by simp [hreq]⟩

/-- What is chosen is among the overloads and accepts. -/
theorem accepts_of_select? {i : Nat} (h : select? overloads provided = some i) :
    ∃ s, overloads[i]? = some s ∧ s.accepts provided = true := by
  simp only [select?] at h
  obtain ⟨m, hm, rfl⟩ := Option.map_eq_some_iff.mp h
  obtain ⟨s, hs, hacc, _⟩ := mem_feasible_iff.mp (List.mem_of_head? hm)
  exact ⟨s, hs, hacc⟩

/-- An overload is chosen as soon as one accepts. -/
theorem exists_select?_iff :
    (∃ i, select? overloads provided = some i) ↔ ∃ s ∈ overloads, s.accepts provided = true := by
  constructor
  · rintro ⟨i, h⟩
    obtain ⟨s, hs, hacc⟩ := accepts_of_select? h
    exact ⟨s, List.mem_of_getElem? hs, hacc⟩
  · rintro ⟨s, hs, hacc⟩
    obtain ⟨i, hi⟩ := List.mem_iff_getElem?.mp hs
    have hm : (⟨i, s.required⟩ : Candidate) ∈ feasible overloads provided :=
      mem_feasible_iff.mpr ⟨s, hi, hacc, rfl⟩
    obtain ⟨m, hm⟩ := List.isSome_head?.mpr (List.ne_nil_of_mem hm) |> Option.isSome_iff_exists.mp
    exact ⟨m.index, by simp [select?, hm]⟩

end CommandConsole.Signature
