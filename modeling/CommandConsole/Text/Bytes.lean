/-! Positions in a text, counted in bytes of its UTF-8 form. -/
namespace CommandConsole.Text

/-- The length of a text in bytes. -/
def width : List Char → Nat
  | [] => 0
  | c :: r => c.utf8Size + width r

/-- The part of a text from byte `n` on, if a character begins or the text ends there. -/
def dropBytes? : Nat → List Char → Option (List Char)
  | 0, s => some s
  | _ + 1, [] => none
  | n + 1, c :: r => if c.utf8Size ≤ n + 1 then dropBytes? (n + 1 - c.utf8Size) r else none

/-- The characters that lie within the first `n` bytes of a text. -/
def takeBytes : Nat → List Char → List Char
  | _, [] => []
  | n, c :: r => if c.utf8Size ≤ n then c :: takeBytes (n - c.utf8Size) r else []

@[simp] theorem width_append (s t : List Char) : width (s ++ t) = width s + width t := by
  induction s with
  | nil => simp [width]
  | cons c r ih => simp [width, ih, Nat.add_assoc]

theorem dropBytes?_append (s t : List Char) : dropBytes? (width s) (s ++ t) = some t := by
  induction s with
  | nil => simp [width, dropBytes?]
  | cons c r ih =>
    have hc := c.utf8Size_pos
    obtain ⟨k, hk⟩ : ∃ k, width (c :: r) = k + 1 := ⟨width (c :: r) - 1, by simp [width]; omega⟩
    have hw : c.utf8Size ≤ k + 1 ∧ k + 1 - c.utf8Size = width r := by
      simp only [width] at hk; omega
    simp [hk, dropBytes?, hw, ih]

theorem eq_nil_of_width {s : List Char} (h : width s = 0) : s = [] := by
  cases s with
  | nil => rfl
  | cons c r =>
    have := c.utf8Size_pos
    simp only [width] at h
    omega

/-- Of two parts that a text begins with, the narrower is how the other begins. -/
theorem append_eq_append_of_width {s t u v : List Char} (h : s ++ t = u ++ v)
    (hw : width s ≤ width u) : ∃ x, u = s ++ x ∧ t = x ++ v := by
  rcases List.append_eq_append_iff.mp h with ⟨x, hu, ht⟩ | ⟨x, hs, hv⟩
  · exact ⟨x, hu, ht⟩
  · have hx : x = [] := by
      apply eq_nil_of_width
      rw [hs, width_append] at hw
      omega
    rw [hx, List.append_nil] at hs
    rw [hx, List.nil_append] at hv
    exact ⟨[], by rw [hs, List.append_nil], hv.symm⟩

end CommandConsole.Text
