import CommandConsole.Text.CaseTable

/-! Lower-casing by the full Unicode rules. -/
namespace CommandConsole.Text

def inRanges (ranges : List (Nat × Nat)) (c : Char) : Bool :=
  ranges.any fun (a, b) => a ≤ c.toNat && c.toNat ≤ b

namespace CaseRun

/-- The lower-case letter that a run gives, if the letter is one of the run's. -/
def lower? (r : CaseRun) (n : Nat) : Option Nat :=
  if r.first ≤ n && n < r.first + r.count * r.stride && (n - r.first) % r.stride == 0 then
    some (n + r.shift).toNat
  else
    none

end CaseRun

/-- The lower-case form of one character other than capital sigma. Capital I with a dot keeps its
dot as a combining character; every other form is one character. -/
def lowerChar (c : Char) : List Char :=
  if c.toNat < 128 then [c.toLower]
  else if c.toNat == 0x130 then ['i', '\u0307']
  else
    match lowerRuns.findSome? (·.lower? c.toNat) with
    | some n => [Char.ofNat n]
    | none => [c]

/-- Whether the first character that is not case-ignorable is a cased one. -/
def meetsCased (s : List Char) : Bool :=
  match s.dropWhile (inRanges caseIgnorableRanges) with
  | [] => false
  | c :: _ => inRanges casedRanges c

/-- Lower-cases a text of which `before`, last character first, comes ahead. A capital sigma is
final, and so written ς, exactly where a cased letter comes before it and none after. -/
def lowerAfter (before : List Char) : List Char → List Char
  | [] => []
  | c :: r =>
    let form :=
      if c.toNat == 0x3A3 then
        if meetsCased before && !meetsCased r then ['\u03C2'] else ['\u03C3']
      else lowerChar c
    form ++ lowerAfter (c :: before) r

def lowercase (s : String) : String := String.ofList (lowerAfter [] s.toList)

end CommandConsole.Text
