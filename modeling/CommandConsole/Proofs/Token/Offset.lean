import CommandConsole.Token.Scan

/-! The same text further on in a line is read as the same token, or fails in the same way further
on. -/
namespace CommandConsole

open Text

def ScanError.shift (n : Nat) (e : ScanError) : ScanError := { e with position := e.position + n }

namespace Cursor

/-- The place of a text that begins `n` bytes later. -/
def shift (n : Nat) (s : Cursor) : Cursor := { s with position := s.position + n }

variable (n : Nat) (s : Cursor)

@[simp] theorem rest_shift : (s.shift n).rest = s.rest := rfl

@[simp] theorem past_shift (taken rest : List Char) :
    (s.shift n).past taken rest = (s.past taken rest).shift n := by
  simp only [past, shift, Nat.add_right_comm]

@[simp] theorem skipBlanks_shift : (s.shift n).skipBlanks = s.skipBlanks.shift n :=
  past_shift n s _ _

@[simp] theorem skipWhile_shift (p : Char → Bool) :
    (s.shift n).skipWhile p = (s.skipWhile p).shift n :=
  past_shift n s _ _

@[simp] theorem next_shift : (s.shift n).next = s.next.shift n := by
  simp only [next, rest_shift]
  split
  · rfl
  · exact past_shift n s _ _

end Cursor

namespace Token

/-- What a scan comes to if its text begins `n` bytes later. -/
def shifted (n : Nat) : Except ScanError (Token × Cursor) → Except ScanError (Token × Cursor)
  | .error e => .error (e.shift n)
  | .ok (t, s) => .ok (t, s.shift n)

variable {n fuel : Nat} {properties : PropertySource}

@[simp] theorem shifted_ok (t : Token) (s : Cursor) :
    shifted n (.ok (t, s)) = .ok (t, s.shift n) := rfl

theorem scanPlain_shift (stops : List Char) (s : Cursor) :
    scanPlain stops (s.shift n) = shifted n (scanPlain stops s) := by
  simp only [scanPlain, Cursor.skipWhile_shift, Cursor.rest_shift]
  split
  · rfl
  · split
    · rfl
    · rfl

theorem scanLiteral_shift (s : Cursor) :
    scanLiteral (s.shift n) = shifted n (scanLiteral s) := by
  simp only [scanLiteral, Cursor.next_shift, Cursor.skipWhile_shift, Cursor.rest_shift]
  split
  · rfl
  · rfl

theorem scanProperty_shift (s : Cursor) :
    scanProperty properties (s.shift n) = shifted n (scanProperty properties s) := by
  simp only [scanProperty, Cursor.next_shift, Cursor.skipWhile_shift, Cursor.rest_shift]
  split
  · rfl
  · split
    · rfl
    · split
      · rfl
      · rfl

/-- A token is read alike at any offset. -/
def TokenShifts (n : Nat) (properties : PropertySource) (fuel : Nat) : Prop :=
  ∀ stops s, scanToken properties stops fuel (s.shift n) =
    shifted n (scanToken properties stops fuel s)

def ItemsShift (n : Nat) (properties : PropertySource) (fuel : Nat) : Prop :=
  ∀ start items s, scanItems properties (start.shift n) items fuel (s.shift n) =
    shifted n (scanItems properties start items fuel s)

def PairsShift (n : Nat) (properties : PropertySource) (fuel : Nat) : Prop :=
  ∀ start pairs s, scanPairs properties (start.shift n) pairs fuel (s.shift n) =
    shifted n (scanPairs properties start pairs fuel s)

theorem tokenShifts_succ (hitems : ItemsShift n properties fuel)
    (hpairs : PairsShift n properties fuel) : TokenShifts n properties (fuel + 1) := by
  intro stops s
  simp only [scanToken, Cursor.skipBlanks_shift, Cursor.next_shift, Cursor.rest_shift]
  split
  · rfl
  · exact scanLiteral_shift _
  · split
    · rfl
    · exact hitems _ _ _
  · split
    · rfl
    · exact hpairs _ _ _
  · exact scanProperty_shift _
  · split
    · rfl
    · exact scanPlain_shift stops _

theorem itemsShift_succ (htoken : TokenShifts n properties fuel)
    (hitems : ItemsShift n properties fuel) : ItemsShift n properties (fuel + 1) := by
  intro start items s
  simp only [scanItems, Cursor.skipBlanks_shift, Cursor.rest_shift]
  split
  · rfl
  · rw [htoken [',', ']'] s.skipBlanks]
    generalize scanToken properties [',', ']'] fuel s.skipBlanks = read
    obtain ⟨e⟩ | ⟨item, u⟩ := read
    · rfl
    · simp only [shifted_ok, Cursor.skipBlanks_shift, Cursor.rest_shift, Cursor.next_shift]
      split
      · rfl
      · split
        · exact hitems _ _ _
        · split
          · rfl
          · rfl

theorem pairsShift_succ (htoken : TokenShifts n properties fuel)
    (hpairs : PairsShift n properties fuel) : PairsShift n properties (fuel + 1) := by
  intro start pairs s
  simp only [scanPairs, Cursor.skipBlanks_shift, Cursor.rest_shift]
  split
  · rfl
  · rw [htoken [':', ',', '}'] s.skipBlanks]
    generalize scanToken properties [':', ',', '}'] fuel s.skipBlanks = read
    obtain ⟨e⟩ | ⟨key, u⟩ := read
    · rfl
    · simp only [shifted_ok, Cursor.skipBlanks_shift, Cursor.rest_shift, Cursor.next_shift]
      split
      · rfl
      · split
        · rfl
        · rw [htoken [',', '}'] u.skipBlanks.next]
          generalize scanToken properties [',', '}'] fuel u.skipBlanks.next = read
          obtain ⟨e⟩ | ⟨value, v⟩ := read
          · rfl
          · simp only [shifted_ok, Cursor.skipBlanks_shift, Cursor.rest_shift, Cursor.next_shift]
            split
            · rfl
            · split
              · exact hpairs _ _ _
              · split
                · rfl
                · rfl
      · rfl

theorem scan_shifts (n : Nat) (properties : PropertySource) (fuel : Nat) :
    TokenShifts n properties fuel ∧ ItemsShift n properties fuel ∧
      PairsShift n properties fuel := by
  induction fuel with
  | zero => exact ⟨fun _ _ => rfl, fun _ _ _ => rfl, fun _ _ _ => rfl⟩
  | succ fuel ih =>
    obtain ⟨htoken, hitems, hpairs⟩ := ih
    exact ⟨tokenShifts_succ hitems hpairs, itemsShift_succ htoken hitems,
      pairsShift_succ htoken hpairs⟩

/-- A text is read at an offset as it is read by itself, with its errors so much further on. -/
theorem scan_offset (source : String) (offset : Nat) (properties : PropertySource) :
    scan source offset properties = (scan source 0 properties).mapError (ScanError.shift offset) := by
  have hstart : (⟨source.toList, offset⟩ : Cursor) = Cursor.shift offset ⟨source.toList, 0⟩ := by
    rw [Cursor.shift, Nat.zero_add]
  have htoken := (scan_shifts offset properties (2 * source.toList.length + 2)).1
  simp only [scan, hstart]
  rw [htoken [] ⟨source.toList, 0⟩]
  generalize scanToken properties [] (2 * source.toList.length + 2) ⟨source.toList, 0⟩ = read
  obtain ⟨e⟩ | ⟨token, s⟩ := read
  · rfl
  · simp only [shifted_ok, Cursor.skipBlanks_shift, Cursor.rest_shift]
    split
    · rfl
    · rfl

end Token
end CommandConsole
