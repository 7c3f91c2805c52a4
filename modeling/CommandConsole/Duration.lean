import CommandConsole.Number.Decimal

/-! Spans of time. -/
namespace CommandConsole

structure Duration where
  nanoseconds : Nat
  deriving DecidableEq, Inhabited

namespace Duration

def ofMilliseconds (n : Nat) : Duration := ⟨n * 1000000⟩

def ofSeconds (n : Nat) : Duration := ⟨n * 1000000000⟩

/-- A number with `places` digits after the point, written without the zeros at its end. -/
def fixedPoint (whole part places : Nat) : String :=
  let digits := Nat.toDigits 10 part
  let padded := List.replicate (places - digits.length) '0' ++ digits
  let kept := (padded.reverse.dropWhile (· == '0')).reverse
  Decimal.naturalText whole ++ (if kept = [] then "" else "." ++ String.ofList kept)

/-- A span in the largest unit of which it has at least one. -/
def text (d : Duration) : String :=
  let n := d.nanoseconds
  if 1000000000 ≤ n then fixedPoint (n / 1000000000) (n % 1000000000) 9 ++ "s"
  else if 1000000 ≤ n then fixedPoint (n / 1000000) (n % 1000000) 6 ++ "ms"
  else if 1000 ≤ n then fixedPoint (n / 1000) (n % 1000) 3 ++ "µs"
  else fixedPoint n 0 0 ++ "ns"

end Duration
end CommandConsole
