import CommandConsole.Number.Decimal

/-! Integers that are written in decimal are read back. -/
namespace CommandConsole.Decimal

/-- The characters that integers are written with. -/
def IsNumeric (c : Char) : Prop := c = '-' ∨ c.isDigit = true

theorem toDigits_ne_nil (n : Nat) : Nat.toDigits 10 n ≠ [] :=
  List.ne_nil_of_length_pos Nat.length_toDigits_pos

theorem isDigit_of_mem_toDigits {n : Nat} {c : Char} (h : c ∈ Nat.toDigits 10 n) :
    c.isDigit = true :=
  Nat.isDigit_of_mem_toDigits (by decide) (by decide) h

theorem toList_integerText (z : Int) :
    (integerText z).toList =
      if z < 0 then '-' :: Nat.toDigits 10 z.natAbs else Nat.toDigits 10 z.natAbs := by
  simp only [integerText, naturalText]
  split
  · rw [String.toList_append, String.toList_ofList, String.toList_ofList, List.singleton_append]
  · rw [String.toList_ofList]

theorem numeric_of_mem_integerText {z : Int} {c : Char} (h : c ∈ (integerText z).toList) :
    IsNumeric c := by
  rw [toList_integerText] at h
  split at h
  · rcases List.mem_cons.mp h with rfl | h
    · exact .inl rfl
    · exact .inr (isDigit_of_mem_toDigits h)
  · exact .inr (isDigit_of_mem_toDigits h)

theorem integerText_ne_nil (z : Int) : (integerText z).toList ≠ [] := by
  rw [toList_integerText]
  split
  · exact List.cons_ne_nil _ _
  · exact toDigits_ne_nil _

/-- Digits have no sign before them. -/
theorem splitSign_toDigits (n : Nat) :
    splitSign (Nat.toDigits 10 n) = (false, Nat.toDigits 10 n) := by
  cases h : Nat.toDigits 10 n with
  | nil => rfl
  | cons c r =>
    have hc : c.isDigit = true := isDigit_of_mem_toDigits (h ▸ List.mem_cons_self)
    simp only [splitSign]
    split
    · rename_i heq
      injection heq with heq
      rw [heq] at hc
      cases hc
    · rename_i heq
      injection heq with heq
      rw [heq] at hc
      cases hc
    · rfl

theorem integer?_integerText (z : Int) : integer? (integerText z).toList = some z := by
  rw [toList_integerText]
  split
  · rename_i hneg
    have habs : -(z.natAbs : Int) = z := by omega
    simp only [integer?, splitSign, natural?_toDigits, Option.bind_eq_bind, Option.bind_some,
      Option.pure_def, Option.map_some, if_true, habs]
  · rename_i hneg
    have habs : (z.natAbs : Int) = z := by omega
    simp only [integer?, splitSign_toDigits, natural?_toDigits, Option.bind_eq_bind,
      Option.bind_some, Option.pure_def, Option.map_some, Bool.false_eq_true, if_false, habs]

theorem int64?_int64Text (n : Int64) : int64? (int64Text n).toList = some n := by
  have hrange : Int64.minValue.toInt ≤ n.toInt ∧ n.toInt ≤ Int64.maxValue.toInt :=
    ⟨n.minValue_le_toInt, n.toInt_le⟩
  rw [int64?, int64Text, integer?_integerText, Option.bind_eq_bind, Option.bind_some,
    if_pos hrange, Int64.ofInt_toInt]

end CommandConsole.Decimal
