import CommandConsole.Text.Blank
import CommandConsole.Text.Bytes
import CommandConsole.Token.ScanError

/-! Cutting a line into words at the white space outside quotes, brackets and braces. Trouble with
delimiters does not stop the cutting: the first trouble is recorded beside the words. -/
namespace CommandConsole

/-- A word of a line, delimiters included, and the byte at which it starts. -/
structure Word where
  text : String
  start : Nat
  deriving DecidableEq, Inhabited

namespace Word

/-- The byte after the last of a word. -/
def stop (w : Word) : Nat := w.start + Text.width w.text.toList

end Word

namespace Line

/-- An opening delimiter that waits for its closer: the byte at which it stands, and the line from
there on. -/
structure Opening where
  delimiter : Char
  position : Nat
  rest : List Char

/-- The state of a cut: finished words (last first), the word begun (its start, and its characters
last first), the open quote, the open brackets and braces (innermost first), and the first closer
that fits no opener. -/
structure Cut where
  words : List Word
  word : Option (Nat × List Char)
  quote : Option Opening
  openers : List Opening
  stray : Option ScanError

def Cut.initial : Cut := ⟨[], none, none, [], none⟩

/-- Ends the word that has been begun, if any. -/
def Cut.endWord (s : Cut) : Cut :=
  match s.word with
  | none => s
  | some (start, chars) =>
    { s with words := ⟨String.ofList chars.reverse, start⟩ :: s.words, word := none }

/-- Adds a character to the word; one that stands at `position` begins it if there is none. -/
def Cut.keep (s : Cut) (c : Char) (position : Nat) : Cut :=
  match s.word with
  | none => { s with word := some (position, [c]) }
  | some (start, chars) => { s with word := some (start, c :: chars) }

/-- Closes the innermost opener if it is `opener`. Any other closer is stray text. -/
def Cut.close (s : Cut) (opener c : Char) (rest : List Char) (position : Nat) : Cut :=
  match s.openers with
  | o :: r =>
    if o.delimiter = opener then { s with openers := r }
    else { s with stray := s.stray <|> some (.here (.unexpected c) (c :: rest) position) }
  | [] => { s with stray := s.stray <|> some (.here (.unexpected c) (c :: rest) position) }

/-- Takes one character, which stands at `position` and has `rest` after it. -/
def Cut.step (s : Cut) (c : Char) (rest : List Char) (position : Nat) : Cut :=
  if s.quote.isSome then
    let s := s.keep c position
    if c = '"' then { s with quote := none } else s
  else if Text.isBlank c ∧ s.openers = [] then s.endWord
  else
    let s := s.keep c position
    let opening : Opening := ⟨c, position, c :: rest⟩
    match c with
    | '"' => { s with quote := some opening }
    | '[' | '{' => { s with openers := opening :: s.openers }
    | ']' => s.close '[' c rest position
    | '}' => s.close '{' c rest position
    | _ => s

def Cut.run (s : Cut) (position : Nat) : List Char → Cut
  | [] => s
  | c :: rest => (s.step c rest position).run (position + c.utf8Size) rest

/-- The trouble of a finished cut. A stray closer comes first, then an open quote, then the
outermost delimiter that was never closed. -/
def Cut.problem (s : Cut) : Option ScanError :=
  match s.stray, s.quote, s.openers.getLast? with
  | some e, _, _ => some e
  | none, some q, _ => some (.here (.unterminated "\"") q.rest q.position)
  | none, none, some o =>
    some (.here (.unterminated (String.singleton o.delimiter)) o.rest o.position)
  | none, none, none => none

/-- The words of a line, and the first trouble with its delimiters. -/
structure Pieces where
  words : List Word
  problem : Option ScanError
  deriving DecidableEq

def cut (line : String) : Pieces :=
  let s := Cut.initial.run 0 line.toList
  ⟨s.endWord.words.reverse, s.problem⟩

/-- The words of a line in which every delimiter is closed. -/
def words (line : String) : Except ScanError (List Word) :=
  match (cut line).problem with
  | some e => .error e
  | none => .ok (cut line).words

end Line
end CommandConsole
