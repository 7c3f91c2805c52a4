import CommandConsole.Number.Binary64
import CommandConsole.Number.Decimal

/-! Binary64 numbers read and written in decimal. -/
namespace CommandConsole.Binary64

/-- The number of decimal digits before the point of `num / den`; none or fewer if the first
digits after the point are zeros. -/
def decimalPlaces (num den : Nat) : Int :=
  if den ≤ num then (Nat.toDigits 10 (num / den)).length
  else 1 - ((Nat.toDigits 10 ((den + num - 1) / num - 1)).length : Int)

/-- The decimal `digits * 10 ^ exponent`. -/
structure Numeral where
  digits : Nat
  exponent : Int

namespace Numeral

/-- Numerator over a power of ten, such that `digits * 10 ^ exponent` is the quotient. -/
def num (d : Numeral) : Nat := d.digits * Nat.pow 10 d.exponent.toNat

def den (d : Numeral) : Nat := Nat.pow 10 (-d.exponent).toNat

/-- Drops zeros at the end of the digits, at most `fuel` of them. -/
def shorten : Nat → Numeral → Numeral
  | 0, d => d
  | fuel + 1, d =>
    if d.digits ≠ 0 ∧ d.digits % 10 = 0 then shorten fuel ⟨d.digits / 10, d.exponent + 1⟩ else d

/-- Positional notation: no exponent is ever written, and a whole number has no point. -/
def positional (d : Numeral) : String :=
  let ds := Nat.toDigits 10 d.digits
  if 0 ≤ d.exponent then
    String.ofList (ds ++ List.replicate d.exponent.toNat '0')
  else
    let places := d.exponent.natAbs
    let padded := List.replicate (places + 1 - ds.length) '0' ++ ds
    let whole := padded.length - places
    String.ofList (padded.take whole ++ '.' :: padded.drop whole)

end Numeral

/-- The reals that round to a positive finite number, its value included, over one denominator. The
ends belong to it exactly if the significand is even. -/
structure Neighbourhood where
  low : Nat
  value : Nat
  high : Nat
  den : Nat
  closed : Bool

def neighbourhood (x : Binary64) : Neighbourhood :=
  let m := x.significand
  let k := Nat.pow 2 x.scale
  let below := if m = Nat.pow 2 52 ∧ 1 < x.biasedExponent then 1 else 2
  ⟨(4 * m - below) * k, 4 * m * k, (4 * m + 2) * k, 4 * Nat.pow 2 1074, m % 2 = 0⟩

def Neighbourhood.contains (n : Neighbourhood) (d : Numeral) : Bool :=
  let a := d.num * n.den
  let low := n.low * d.den
  let high := n.high * d.den
  if n.closed then low ≤ a && a ≤ high else low < a && a < high

/-- Of the two decimals around the value on the grid `10 ^ e`, the nearer one that reads back. -/
def Neighbourhood.onGrid? (n : Neighbourhood) (e : Int) : Option Numeral :=
  let step := Nat.pow 10 e.toNat
  let unit := Nat.pow 10 (-e).toNat
  let q := n.value * unit / (n.den * step)
  let r := n.value * unit % (n.den * step)
  let lower : Numeral := ⟨q, e⟩
  let upper : Numeral := ⟨q + 1, e⟩
  match q != 0 && n.contains lower, n.contains upper with
  | true, true => if 2 * r < n.den * step then some lower else some upper
  | true, false => some lower
  | false, true => some upper
  | false, false => none

/-- The decimal with the fewest digits that reads back as the number, and the nearest of those.
Seventeen digits always suffice. -/
def shortest (x : Binary64) : Numeral :=
  let n := x.neighbourhood
  let places := decimalPlaces n.value n.den
  match (List.range 17).findSome? fun (k : Nat) => n.onGrid? (places - 1 - k) with
  | some d => d.shorten 17
  | none => ⟨0, 0⟩

/-- The text of a number. A NaN shows no sign, a zero does. -/
def text (x : Binary64) : String :=
  if x.isNaN then "NaN"
  else
    let sign := if x.isNegative then "-" else ""
    if x.isInfinite then sign ++ "inf"
    else if x.magnitude = 0 then sign ++ "0"
    else sign ++ x.shortest.positional

/-- An exponent mark and its signed digits, or nothing. -/
def exponent? : List Char → Option Int
  | [] => some 0
  | c :: r => if c = 'e' ∨ c = 'E' then Decimal.integer? r else none

/-- The number nearest to `digits * 10 ^ e`. Exponents far outside the range are settled by the
number of digits, so no power that matters to nobody is computed. -/
def ofDecimal (negative : Bool) (digits : List Char) (e : Int) : Binary64 :=
  let n := Nat.ofDigitChars 10 digits 0
  if n = 0 then zero negative
  else
    let top : Int := (Nat.toDigits 10 n).length + e
    if 400 < top then infinity negative
    else if top < -400 then zero negative
    else ofRatio negative (n * Nat.pow 10 e.toNat) (Nat.pow 10 (-e).toNat)

/-- Digits with at most one point, and an exponent. A point needs a digit on one of its sides. -/
def readDecimal? (negative : Bool) (s : List Char) : Option Binary64 := do
  let whole := s.takeWhile Char.isDigit
  let (fraction, tail) :=
    match s.dropWhile Char.isDigit with
    | '.' :: r => (r.takeWhile Char.isDigit, r.dropWhile Char.isDigit)
    | r => ([], r)
  let e ← exponent? tail
  if whole ++ fraction = [] then none
  else some (ofDecimal negative (whole ++ fraction) (e - fraction.length))

/-- Reads a number: a sign if any, then a decimal or one of the words `inf`, `infinity` and `nan`
in either case. -/
def read? (s : List Char) : Option Binary64 :=
  let (negative, body) := Decimal.splitSign s
  let word := String.ofList (body.map Char.toLower)
  if word = "nan" then some (nan negative)
  else if word = "inf" ∨ word = "infinity" then some (infinity negative)
  else readDecimal? negative body

end CommandConsole.Binary64
