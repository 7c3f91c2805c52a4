/-! White space, and text with the white space around it removed. -/
namespace CommandConsole.Text

/-- The Unicode property White_Space: twenty-five code points, of which zero-width space, the byte
order mark and the information separators are not members. -/
def isBlank (c : Char) : Bool :=
  let n := c.toNat
  (9 ≤ n && n ≤ 13) || n == 0x20 || n == 0x85 || n == 0xA0 || n == 0x1680 ||
    (0x2000 ≤ n && n ≤ 0x200A) || n == 0x2028 || n == 0x2029 || n == 0x202F || n == 0x205F ||
    n == 0x3000

/-- What is left of a text once its leading white space is gone. -/
def trimLeft (s : List Char) : List Char := s.dropWhile isBlank

/-- What is left of a text once its trailing white space is gone. -/
def trimRight : List Char → List Char
  | [] => []
  | c :: r =>
    match trimRight r with
    | [] => if isBlank c then [] else [c]
    | d :: t => c :: d :: t

/-- A text without the white space around it. -/
def trim (s : String) : String := String.ofList (trimRight (trimLeft s.toList))

/-- A text without the white space at its end. -/
def trimEnd (s : String) : String := String.ofList (trimRight s.toList)

theorem trimRight_eq_nil {s : List Char} : trimRight s = [] ↔ ∀ c ∈ s, isBlank c = true := by
  induction s with
  | nil => simp [trimRight]
  | cons c r ih =>
    simp only [trimRight]
    split <;> simp_all

end CommandConsole.Text
