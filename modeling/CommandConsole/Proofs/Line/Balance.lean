import CommandConsole.Line.Balance
import CommandConsole.Proofs.Line.Places

/-! Which texts need another line: those that leave a delimiter open, as long as no closer is
stray. -/
namespace CommandConsole.Line

open Delimiters

/-- The balance of a text without stray closers, by what it leaves open. -/
def Delimiters.balance (d : Delimiters) : Balance := ⟨.ofNat d.openers.length, d.quoted⟩

def isBracket (c : Char) : Bool := ['[', ']', '{', '}'].contains c

/-- How many brackets and braces a text holds, whether they delimit anything or not. -/
def brackets (s : List Char) : Nat := s.countP isBracket

variable {d : Delimiters} {s : List Char} {c : Char} {text : String} {e : ScanError}

theorem balance_close {o : Char} (h : (d.close o).stray = false) :
    (d.close o).balance = ⟨d.balance.depth - 1, d.quoted⟩ := by
  simp only [close] at h ⊢
  split at h
  · rename_i p r hopeners
    split at h
    · rename_i hp
      simp [hp, Delimiters.balance, hopeners, Int32.ofNat_add]
    · cases h
  · cases h

/-- The count follows the delimiters for as long as no closer is stray. -/
theorem balance_step (h : (d.step c).stray = false) : (d.step c).balance = d.balance.step c := by
  obtain ⟨quoted, openers, stray⟩ := d
  cases quoted with
  | true =>
    by_cases hc : c = '"'
    · simp [Delimiters.step, Balance.step, Delimiters.balance, hc]
    · simp [Delimiters.step, Balance.step, Delimiters.balance, hc]
  | false =>
    simp only [Delimiters.step, Bool.false_eq_true, if_false, take] at h ⊢
    split at h
    · rfl
    · simp [Delimiters.balance, Balance.step, Int32.ofNat_add]
    · simp [Delimiters.balance, Balance.step, Int32.ofNat_add]
    · rw [balance_close h]
      simp [Delimiters.balance, Balance.step]
    · rw [balance_close h]
      simp [Delimiters.balance, Balance.step]
    · simp_all [Delimiters.balance, Balance.step]

theorem balance_of_clear (h : (settled.reads s).stray = false) :
    balance s = (settled.reads s).balance := by
  induction s using List.reverseRecOn with
  | nil => rfl
  | append_singleton s c ih =>
    rw [reads_concat] at h ⊢
    have hbefore : (settled.reads s).stray = false := by
      by_contra hnot
      rw [stray_step (by simpa using hnot) c] at h
      cases h
    rw [balance_step h, ← ih hbefore, balance, List.foldl_append]
    rfl

theorem length_openers_step (d : Delimiters) (c : Char) :
    (d.step c).openers.length ≤ d.openers.length + if isBracket c then 1 else 0 := by
  have hclose : ∀ o, (d.close o).openers.length ≤ d.openers.length := by
    intro o
    simp only [close]
    split
    · rename_i p r hopeners
      split
      · simp [hopeners]
      · exact Nat.le_refl _
    · exact Nat.le_refl _
  simp only [Delimiters.step, take]
  split
  · split
    · exact Nat.le_add_right _ _
    · exact Nat.le_add_right _ _
  · split
    · exact Nat.le_add_right _ _
    · exact Nat.le_refl _
    · exact Nat.le_refl _
    · exact Nat.le_add_right_of_le (hclose '[')
    · exact Nat.le_add_right_of_le (hclose '{')
    · exact Nat.le_add_right _ _

/-- No more is left open than there are brackets and braces. -/
theorem length_openers_le (s : List Char) : (settled.reads s).openers.length ≤ brackets s := by
  induction s using List.reverseRecOn with
  | nil => exact Nat.le_refl 0
  | append_singleton s c ih =>
    have hle := length_openers_step (settled.reads s) c
    rw [reads_concat, brackets, List.countP_append, List.countP_singleton]
    rw [brackets] at ih
    omega

/-- A line that is cut without trouble needs no other line. -/
theorem isBalanced_of_untroubled (h : (cut text).problem = none) : isBalanced text = true := by
  rw [problem_cut_eq_none_iff] at h
  rw [isBalanced, balance_of_clear (by rw [h]; rfl), h]
  rfl

/-- A text that needs no other line may have closers too many, but leaves nothing open. -/
theorem stray_of_isBalanced (few : brackets text.toList < 2147483648) (h : isBalanced text = true)
    (trouble : (cut text).problem ≠ none) : (settled.reads text.toList).stray = true := by
  by_contra hnot
  have clear : (settled.reads text.toList).stray = false := by simpa using hnot
  have hle := length_openers_le text.toList
  simp only [isBalanced, balance_of_clear clear, Delimiters.balance, Bool.and_eq_true,
    decide_eq_true_eq, Bool.not_eq_true'] at h
  obtain ⟨hdepth, hquoted⟩ := h
  have hopeners : (settled.reads text.toList).openers.length ≤ 0 :=
    (Int32.ofNat_le_iff_le (by omega) (by omega)).mp hdepth
  apply trouble
  rw [problem_cut_eq_none_iff]
  generalize settled.reads text.toList = d at *
  obtain ⟨quoted, openers, stray⟩ := d
  simp_all [settled]

theorem unexpected_of_isBalanced (few : brackets text.toList < 2147483648)
    (h : isBalanced text = true) (he : (cut text).problem = some e) :
    ∃ c ∈ [']', '}'], e.problem = .unexpected c := by
  have hstray := stray_of_isBalanced few h (by simp [he])
  have hdelimiters : (Cut.initial.run 0 text.toList).delimiters = settled.reads text.toList :=
    delimiters_run .initial 0 text.toList
  rw [← hdelimiters] at hstray
  rcases problem_cases he with hsome | ⟨hnone, -⟩
  · obtain ⟨before, c, rest, -, hc, rfl⟩ := (placed_cut text).stray e hsome
    exact ⟨c, hc, rfl⟩
  · simp [Cut.delimiters, hnone] at hstray

end CommandConsole.Line
