import CommandConsole.Text.GraphemeTable
import CommandConsole.Text.Lowercase

/-! Graphemes: what a reader takes for one character, a letter with its marks, a syllable, a flag or
a picture made of several. Text is divided by the rules of Unicode for extended graphemes. -/
namespace CommandConsole.Text

/-- How a character takes to its neighbours. -/
inductive GraphemeClass where
  | carriageReturn
  | lineFeed
  | control
  | extending
  | joiner
  | spacing
  | leaning
  | regional
  | initial
  | vowel
  | final
  /-- A Hangul syllable without a final consonant. -/
  | openSyllable
  /-- A Hangul syllable with one. -/
  | closedSyllable
  | pictograph
  | consonant
  | other
  deriving DecidableEq

namespace GraphemeClass

/-- Syllables come in blocks of twenty-eight, of which the first has no final consonant. -/
def ofSyllable (n : Nat) : GraphemeClass :=
  if (n - 0xAC00) % 28 = 0 then .openSyllable else .closedSyllable

def ofChar (c : Char) : GraphemeClass :=
  let n := c.toNat
  if c = '\r' then .carriageReturn
  else if c = '\n' then .lineFeed
  else if n = 0x200D then .joiner
  else if 0x1F1E6 ≤ n ∧ n ≤ 0x1F1FF then .regional
  else if 0xAC00 ≤ n ∧ n ≤ 0xD7A3 then ofSyllable n
  else if inRanges initialRanges c then .initial
  else if inRanges vowelRanges c then .vowel
  else if inRanges finalRanges c then .final
  else if inRanges controlRanges c then .control
  else if inRanges extendingRanges c then .extending
  else if inRanges spacingRanges c then .spacing
  else if inRanges leaningRanges c then .leaning
  else if inRanges pictographRanges c then .pictograph
  else if inRanges consonantRanges c then .consonant
  else .other

/-- Whether a character stands by itself whatever comes before or after it. -/
def standsAlone : GraphemeClass → Bool
  | .carriageReturn | .lineFeed | .control => true
  | _ => false

/-- Whether a character goes on a grapheme that ends in some part of a Hangul syllable. -/
def goesOnSyllable : GraphemeClass → GraphemeClass → Bool
  | .initial, .initial | .initial, .vowel | .initial, .openSyllable | .initial, .closedSyllable
  | .openSyllable, .vowel | .openSyllable, .final | .vowel, .vowel | .vowel, .final
  | .closedSyllable, .final | .final, .final => true
  | _, _ => false

end GraphemeClass

/-- What matters of a grapheme for the question whether it goes on. -/
structure GraphemeEnd where
  last : GraphemeClass
  /-- Its end is one half of a flag. -/
  halfFlag : Bool
  /-- Its end is a pictograph, with extending characters behind it and maybe one joiner. -/
  pictured : Bool
  /-- Its end is a consonant, with extending characters behind it. -/
  voiced : Bool
  /-- Among those characters is one that links consonants. -/
  linked : Bool

namespace GraphemeEnd

/-- The end of a grapheme that is one character so far. -/
def ofChar (c : Char) : GraphemeEnd :=
  let k := GraphemeClass.ofChar c
  ⟨k, k = .regional, k = .pictograph, k = .consonant, false⟩

/-- Whether a grapheme goes on with a character. -/
def takes (e : GraphemeEnd) (c : Char) : Bool :=
  match e.last, GraphemeClass.ofChar c with
  | .carriageReturn, .lineFeed => true
  | last, k =>
    if last.standsAlone || k.standsAlone then false
    else
      match k with
      | .extending | .joiner | .spacing => true
      | .consonant => last = .leaning || e.linked
      | .pictograph => last = .leaning || last = .joiner && e.pictured
      | .regional => last = .leaning || e.halfFlag
      | k => last = .leaning || last.goesOnSyllable k

/-- The end of a grapheme that goes on with a character. A non-joiner links nothing. -/
def push (e : GraphemeEnd) (c : Char) : GraphemeEnd :=
  let fresh := ofChar c
  if fresh.last = .extending ∨ fresh.last = .joiner then
    let voiced := e.voiced && c.toNat != 0x200C
    ⟨fresh.last, false, e.pictured && e.last != .joiner, voiced,
      voiced && (e.linked || inRanges linkerRanges c)⟩
  else { fresh with halfFlag := fresh.halfFlag && !e.halfFlag }

end GraphemeEnd

/-- The graphemes of a text from within one, whose characters so far are `done`, last first. -/
def graphemesFrom (e : GraphemeEnd) (done : List Char) : List Char → List (List Char)
  | [] => [done.reverse]
  | c :: r =>
    if e.takes c then graphemesFrom (e.push c) (c :: done) r
    else done.reverse :: graphemesFrom (.ofChar c) [c] r

/-- The graphemes of a text. -/
def graphemes : List Char → List (List Char)
  | [] => []
  | c :: r => graphemesFrom (.ofChar c) [c] r

end CommandConsole.Text
