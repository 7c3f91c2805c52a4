/-! Whole numbers read and written in decimal. -/
namespace CommandConsole.Decimal

/-- The value of a non-empty run of decimal digits. -/
def natural? (s : List Char) : Option Nat :=
  if s ≠ [] ∧ s.all Char.isDigit then some (Nat.ofDigitChars 10 s 0) else none

/-- A sign, if there is one, and what it stands before. -/
def splitSign : List Char → Bool × List Char
  | '-' :: r => (true, r)
  | '+' :: r => (false, r)
  | s => (false, s)

/-- An optionally signed run of digits. -/
def integer? (s : List Char) : Option Int :=
  let (negative, digits) := splitSign s
  (natural? digits).map fun n => if negative then -(n : Int) else n

/-- A run of digits behind an optional plus. -/
def unsigned? : List Char → Option Nat
  | '+' :: r => natural? r
  | s => natural? s

/-- An integer of 64 bits. -/
def int64? (s : List Char) : Option Int64 := do
  let n ← integer? s
  if Int64.minValue.toInt ≤ n ∧ n ≤ Int64.maxValue.toInt then some (Int64.ofInt n) else none

def naturalText (n : Nat) : String := String.ofList (Nat.toDigits 10 n)

def integerText (n : Int) : String :=
  if n < 0 then "-" ++ naturalText n.natAbs else naturalText n.natAbs

def int64Text (n : Int64) : String := integerText n.toInt

/-- Every run of digits that is written can be read. -/
theorem natural?_toDigits (n : Nat) : natural? (Nat.toDigits 10 n) = some n := by
  have hne : Nat.toDigits 10 n ≠ [] := by
    intro h
    have := Nat.length_toDigits_pos (b := 10) (n := n)
    simp [h] at this
  have hd : (Nat.toDigits 10 n).all Char.isDigit = true := by
    rw [List.all_eq_true]
    intro c hc
    exact Nat.isDigit_of_mem_toDigits (by decide) (by decide) hc
  simp [natural?, hne, hd, Nat.ofDigitChars_ten_toDigits]

end CommandConsole.Decimal
