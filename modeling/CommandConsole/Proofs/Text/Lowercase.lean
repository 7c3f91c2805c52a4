import CommandConsole.Text.Lowercase

/-! Lower-casing once is enough: what it gives, it leaves alone. -/
namespace CommandConsole.Text

/-- A character that lower-casing leaves alone wherever it stands. -/
def IsLow (c : Char) : Prop := c.toNat ≠ 0x3A3 ∧ lowerChar c = [c]

instance : DecidablePred IsLow := fun _ => instDecidableAnd

namespace CaseRun

/-- The last upper-case letter of a run. -/
def last (r : CaseRun) : Nat := r.first + (r.count - 1) * r.stride

/-- The lower-case letter of the first letter of a run. -/
def lowest (r : CaseRun) : Nat := (r.first + r.shift).toNat

def highest (r : CaseRun) : Nat := r.lowest + (r.count - 1) * r.stride

/-- Neither of the two letters that have rules of their own is among those that a run gives. -/
def IsRegular (r : CaseRun) : Prop :=
  0 ≤ r.first + r.shift ∧ (r.highest < 0x130 ∨ 0x130 < r.lowest) ∧
    (r.highest < 0x3A3 ∨ 0x3A3 < r.lowest)

instance : DecidablePred IsRegular := fun _ => instDecidableAnd

/-- One way to see that no letter which a run gives is among the letters of another: they lie apart,
or the letters of the other are every second one and those given lie in between. -/
def spares (r q : CaseRun) : Bool :=
  Nat.blt r.highest q.first || Nat.blt q.last r.lowest ||
    (Nat.beq q.stride 2 && (Nat.beq r.stride 2 || Nat.beq r.count 1) &&
      Nat.beq ((r.lowest + q.first) % 2) 1)

variable {r q : CaseRun} {n m : Nat}

theorem lower?_eq_some (h : r.lower? n = some m) :
    ∃ i < r.count, n = r.first + i * r.stride ∧ m = (n + r.shift).toNat := by
  simp only [lower?] at h
  split at h
  · rename_i hin
    injection h with h
    simp only [Bool.and_eq_true, decide_eq_true_eq, beq_iff_eq] at hin
    obtain ⟨⟨hfirst, hlast⟩, hstride⟩ := hin
    obtain ⟨i, hi⟩ := Nat.dvd_of_mod_eq_zero hstride
    rw [Nat.mul_comm] at hi
    refine ⟨i, ?_, by omega, h.symm⟩
    exact Nat.lt_of_mul_lt_mul_right (a := r.stride) (by omega)
  · cases h

theorem mem_span (h : r.lower? n = some m) : r.first ≤ n ∧ n ≤ r.last := by
  obtain ⟨i, hi, rfl, -⟩ := lower?_eq_some h
  have hle : i * r.stride ≤ (r.count - 1) * r.stride := Nat.mul_le_mul_right _ (by omega)
  simp only [last]
  omega

theorem IsRegular.eq_lowest_add (regular : r.IsRegular) (h : r.lower? n = some m) :
    ∃ i < r.count, m = r.lowest + i * r.stride ∧ m ≤ r.highest := by
  obtain ⟨i, hi, rfl, rfl⟩ := lower?_eq_some h
  have hfirst := regular.1
  have hle : i * r.stride ≤ (r.count - 1) * r.stride := Nat.mul_le_mul_right _ (by omega)
  have hm : ((r.first + i * r.stride : Nat) + r.shift).toNat = r.lowest + i * r.stride := by
    simp only [lowest]
    omega
  exact ⟨i, hi, hm, by rw [hm, highest]; omega⟩

/-- A letter that one run gives is no letter of a run that is spared. -/
theorem IsRegular.lower?_eq_none (regular : r.IsRegular) (h : r.lower? n = some m)
    (spared : r.spares q = true) : q.lower? m = none := by
  apply Option.eq_none_iff_forall_ne_some.mpr
  intro k hk
  obtain ⟨i, hi, hm, hhighest⟩ := regular.eq_lowest_add h
  obtain ⟨j, hj, hq, -⟩ := lower?_eq_some hk
  obtain ⟨hfirst, hlast⟩ := mem_span hk
  simp only [spares, Bool.or_eq_true, Bool.and_eq_true, Nat.blt_eq, Nat.beq_eq] at spared
  rcases spared with (hbelow | habove) | ⟨⟨hstride, hsteps⟩, hparity⟩
  · omega
  · omega
  · rw [hstride] at hq
    rcases hsteps with hstep | hcount
    · rw [hstep] at hm
      omega
    · obtain rfl : i = 0 := by omega
      omega

end CaseRun

theorem isRegular_of_mem : ∀ r ∈ lowerRuns, r.IsRegular := by decide +kernel

theorem spares_of_mem : ∀ r ∈ lowerRuns, ∀ q ∈ lowerRuns, r.spares q = true := by
  have h : (lowerRuns.all fun r => lowerRuns.all r.spares) = true := by decide +kernel
  simpa only [List.all_eq_true] using h

variable {c : Char} {s : List Char}

theorem toLower_eq_self (h : ¬ (0x41 ≤ c.toNat ∧ c.toNat ≤ 0x5A)) : c.toLower = c := dif_neg h

theorem isLow_toLower (h : c.toNat < 128) : IsLow c.toLower := by
  have hall : ∀ n < 128, IsLow (Char.ofNat n).toLower := by decide
  rw [← Char.ofNat_toNat c]
  exact hall c.toNat h

/-- A character that is in no run is low, if it has no rules of its own. -/
theorem isLow_of_lower?_eq_none (hnone : ∀ r ∈ lowerRuns, r.lower? c.toNat = none)
    (hdotted : c.toNat ≠ 0x130) (hsigma : c.toNat ≠ 0x3A3) : IsLow c := by
  refine ⟨hsigma, ?_⟩
  have hrun : lowerRuns.findSome? (·.lower? c.toNat) = none :=
    List.findSome?_eq_none_iff.mpr hnone
  have hlatin : (⟨0x41, 26, 1, 32⟩ : CaseRun).lower? c.toNat = none :=
    hnone _ (by rw [lowerRuns]; exact List.mem_cons_self)
  have hlower : c.toLower = c := by
    apply toLower_eq_self
    rintro ⟨hfirst, hlast⟩
    simp [CaseRun.lower?] at hlatin
    omega
  simp only [lowerChar, hlower, hrun]
  split
  · rfl
  · rw [if_neg (by simpa using hdotted)]

/-- A letter that a run gives is low. -/
theorem isLow_of_lower? {r : CaseRun} {n m : Nat} (hr : r ∈ lowerRuns) (h : r.lower? n = some m) :
    IsLow (Char.ofNat m) := by
  have regular := isRegular_of_mem r hr
  obtain ⟨i, hi, hm, hhighest⟩ := regular.eq_lowest_add h
  obtain ⟨-, hdotted, hsigma⟩ := regular
  by_cases hvalid : m.isValidChar
  · have hnat : (Char.ofNat m).toNat = m := by
      rw [Char.ofNat, dif_pos hvalid]
      rfl
    apply isLow_of_lower?_eq_none
    · intro q hq
      rw [hnat]
      exact (isRegular_of_mem r hr).lower?_eq_none h (spares_of_mem r hr q hq)
    · omega
    · omega
  · rw [Char.ofNat, dif_neg hvalid]
    decide

/-- Whatever lower-casing makes of a character is low. -/
theorem isLow_of_mem_lowerChar (hc : c.toNat ≠ 0x3A3) : ∀ d ∈ lowerChar c, IsLow d := by
  simp only [lowerChar]
  split
  · rename_i hascii
    intro d hd
    rw [List.mem_singleton] at hd
    exact hd ▸ isLow_toLower hascii
  split
  · intro d hd
    simp only [List.mem_cons, List.not_mem_nil, or_false] at hd
    rcases hd with rfl | rfl <;> decide +kernel
  rename_i hdotted
  cases hrun : lowerRuns.findSome? (·.lower? c.toNat) with
  | some m =>
    obtain ⟨r, hr, hm⟩ := List.exists_of_findSome?_eq_some hrun
    intro d hd
    rw [List.mem_singleton] at hd
    exact hd ▸ isLow_of_lower? hr hm
  | none =>
    intro d hd
    rw [List.mem_singleton] at hd
    rw [hd]
    exact isLow_of_lower?_eq_none (List.findSome?_eq_none_iff.mp hrun) (by simpa using hdotted) hc

theorem isLow_of_mem_lowerAfter (before s : List Char) : ∀ d ∈ lowerAfter before s, IsLow d := by
  induction s generalizing before with
  | nil =>
    intro d hd
    cases hd
  | cons c s ih =>
    intro d hd
    rw [lowerAfter] at hd
    rcases List.mem_append.mp hd with hd | hd
    · split at hd
      · -- both forms of a small sigma are low
        split at hd <;> rw [List.mem_singleton] at hd <;> subst hd <;> decide +kernel
      · rename_i hsigma
        exact isLow_of_mem_lowerChar (by simpa using hsigma) d hd
    · exact ih (c :: before) d hd

theorem lowerAfter_of_isLow (h : ∀ c ∈ s, IsLow c) (before : List Char) :
    lowerAfter before s = s := by
  induction s generalizing before with
  | nil => rfl
  | cons c s ih =>
    obtain ⟨hsigma, hlower⟩ := h c List.mem_cons_self
    rw [lowerAfter, if_neg (by simpa using hsigma), hlower,
      ih fun d hd => h d (List.mem_cons_of_mem c hd)]
    rfl

/-- A text in lower case stays as it is. -/
theorem lowercase_lowercase (s : String) : lowercase (lowercase s) = lowercase s := by
  have hlow := isLow_of_mem_lowerAfter [] s.toList
  simp only [lowercase, String.toList_ofList, lowerAfter_of_isLow hlow]

end CommandConsole.Text
