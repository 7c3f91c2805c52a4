import CommandConsole.Line.Balance
import CommandConsole.Text.Bytes
import CommandConsole.Text.Grapheme

/-! Lines that come through a pipe. Lines are joined, with the breaks between them kept, until the
text is balanced. -/
namespace CommandConsole.Cli

/-- A text that is whole, or one that needs another line. -/
inductive Entry where
  | whole (text : String)
  | unfinished (text : String)
  deriving DecidableEq

namespace Entry

/-- A text without the line break at its end, and that break. -/
def cutBreak (s : List Char) : List Char × List Char :=
  match s.reverse with
  | '\n' :: '\r' :: r => (r.reverse, ['\r', '\n'])
  | '\n' :: r => (r.reverse, ['\n'])
  | _ => (s, [])

/-- Carries out the backspaces among the graphemes of a text. Each takes back as many bytes as the
last grapheme not yet taken back had, but that number is kept in a single byte. `done` is the text
so far, last character first, and `sizes` are the numbers kept, last first. -/
def takeBack (done : List Char) (sizes : List Nat) : List (List Char) → List Char
  | [] => done.reverse
  | ['\x08'] :: r =>
    match sizes with
    | [] => takeBack done [] r
    | size :: sizes => takeBack ((Text.dropBytes? size done).getD []) sizes r
  | g :: r => takeBack (g.reverse ++ done) (Text.width g % 256 :: sizes) r

/-- A text with its backspaces carried out. -/
def carryOutBackspaces (s : List Char) : List Char :=
  if s.contains '\x08' then takeBack [] [] (Text.graphemes s) else s

/-- Adds a line, together with its break, to an unfinished text. -/
def add (unfinished line : String) : Entry :=
  let (text, lineBreak) := cutBreak (unfinished ++ line).toList
  let text := carryOutBackspaces text
  if Line.isBalanced (String.ofList text) then .whole (String.ofList text)
  else .unfinished (String.ofList (text ++ lineBreak))

end Entry

/-- The lines of an input, each with its break. -/
def inputLines (input : String) : List String :=
  let pieces := input.toList.splitOn '\n'
  let last := pieces.getLast?.getD []
  pieces.dropLast.map (fun line => String.ofList (line ++ ['\n'])) ++
    if last = [] then [] else [String.ofList last]

end CommandConsole.Cli
