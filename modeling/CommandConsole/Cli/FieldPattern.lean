import CommandConsole.Text.Blank
import CommandConsole.Text.Letter

/-! The regular expressions that a log filter compares fields with: which texts are such patterns.
They are matched as Unicode text unless a flag says otherwise, but no Unicode table comes with them.
So shorthands for classes and the folding of case are there for ASCII patterns only, and those in
turn must not match a part of a character. -/
namespace CommandConsole.Cli

inductive PatternProblem where
  | malformed
  | wordBoundary
  deriving DecidableEq

def PatternProblem.message : PatternProblem → String
  | .malformed => "error building NFA"
  | .wordBoundary =>
    "unsupported regex feature for DFAs: cannot build DFAs for regexes with Unicode word " ++
      "boundaries; switch to ASCII word boundaries, or heuristically enable Unicode word " ++
      "boundaries or use a different regex engine"

/-- The flags that matter for the question whether a text is a pattern. -/
structure PatternFlags where
  ignoresCase : Bool := false
  unicode : Bool := true
  /-- Blanks are of no account, and a hash sign begins a comment. -/
  spaced : Bool := false
  deriving DecidableEq

namespace PatternFlags

def letters : List Char := ['i', 'm', 's', 'U', 'u', 'R', 'x', '-']

/-- Flags after a change as it is written, where those behind a minus are taken away. -/
def change (f : PatternFlags) (written : List Char) : PatternFlags :=
  let given := written.takeWhile (· ≠ '-')
  let taken := written.dropWhile (· ≠ '-')
  let set (old : Bool) (c : Char) := (old || given.contains c) && !taken.contains c
  ⟨set f.ignoresCase 'i', set f.unicode 'u', set f.spaced 'x'⟩

/-- Whether a character may stand for itself outside of a class. -/
def takes (f : PatternFlags) (c : Char) : Bool :=
  !f.ignoresCase || !f.unicode && c.toNat < 128

/-- Whether a character may be a member of a class. -/
def takesMember (f : PatternFlags) (c : Char) : Bool := f.unicode || c.toNat < 128

end PatternFlags

/-- What an escape stands for. -/
inductive PatternAtom where
  | literal (c : Char)
  | shorthand
  | boundary
  | edge
  deriving DecidableEq

/-- What a character stands for behind a backslash, where it does not begin a number. -/
def PatternAtom.escape? (f : PatternFlags) : Char → Option PatternAtom
  | 'd' | 's' | 'w' => if f.unicode then none else some .shorthand
  | 'b' | 'B' | '<' | '>' => some .boundary
  | 'A' | 'z' => some .edge
  | 'a' => some (.literal '\x07')
  | 'f' => some (.literal '\x0c')
  | 't' => some (.literal '\t')
  | 'n' => some (.literal '\n')
  | 'r' => some (.literal '\r')
  | 'v' => some (.literal '\x0b')
  | c => if c.toNat < 128 ∧ !c.isAlphanum then some (.literal c) else none

/-- Where an escape stands. -/
inductive EscapePlace where
  | outside
  | member
  | rangeEnd (first : PatternAtom)
  deriving DecidableEq

/-- What is being read. -/
inductive PatternMode where
  /-- An item. A repetition sign may come if there is something that it repeats. -/
  | item (repeatable : Bool)
  | opened
  | question
  | named
  /-- The name of a group, of which these characters have come, last first. -/
  | name (done : List Char)
  | flags (done : List Char)
  | classOpened
  /-- The hyphens that may come first in a class, or a closing bracket that is a member. -/
  | classLead (any : Bool)
  | classItems
  | classOperator
  | classAfter (first : PatternAtom)
  | classRange (first : PatternAtom)
  | escape (place : EscapePlace)
  /-- A number in hexadecimal, with so many digits to come. -/
  | number (place : EscapePlace) (isByte : Bool) (left value : Nat)
  deriving DecidableEq

/-- Whether blanks can be left out of account. -/
def PatternMode.skipsBlanks : PatternMode → Bool
  | .question | .named | .name _ | .flags _ | .classOperator | .escape _ => false
  | _ => true

structure PatternReader where
  mode : PatternMode := .item false
  flags : PatternFlags := {}
  /-- The flags that hold again when the open groups end, innermost first. -/
  groups : List PatternFlags := []
  names : List (List Char) := []
  openClasses : Nat := 0
  inComment : Bool := false
  /-- There is a word boundary in the sense of Unicode. -/
  boundary : Bool := false

namespace PatternReader

/-- Opens a group. -/
def group (s : PatternReader) (flags : PatternFlags) : PatternReader :=
  { s with mode := .item false, flags := flags, groups := s.flags :: s.groups }

def item (s : PatternReader) (repeatable : Bool) (c : Char) : Option PatternReader :=
  match c with
  | '(' => some { s with mode := .opened }
  | ')' =>
    match s.groups with
    | [] => none
    | flags :: groups => some { s with mode := .item true, flags := flags, groups := groups }
  | '|' => some { s with mode := .item false }
  | '*' | '+' | '?' => if repeatable then some { s with mode := .item true } else none
  | '{' => none
  | '[' =>
    if s.flags.unicode && s.flags.ignoresCase then none
    else some { s with mode := .classOpened, openClasses := 1 }
  | '\\' => some { s with mode := .escape .outside }
  | '.' => if s.flags.unicode then some { s with mode := .item true } else none
  | '^' | '$' => some { s with mode := .item true }
  | c => if s.flags.takes c then some { s with mode := .item true } else none

def name (s : PatternReader) (done : List Char) (c : Char) : Option PatternReader :=
  if c = '>' then
    if done = [] ∨ done ∈ s.names then none
    else some (group { s with names := done :: s.names } s.flags)
  else if c = '_' ∨ Text.isAlphabetic c ∨ done ≠ [] ∧ (c ∈ ['.', '[', ']'] ∨ Text.isNumeric c) then
    some { s with mode := .name (c :: done) }
  else none

/-- The flags of a group or, without one, of what remains of the group around. -/
def changeFlags (s : PatternReader) (done : List Char) (c : Char) : Option PatternReader :=
  let flags := s.flags.change done.reverse
  if c = ':' then
    if done.head? = some '-' then none else some (s.group flags)
  else if c = ')' then
    if done = [] ∨ done.head? = some '-' then none
    else some { s with mode := .item false, flags := flags }
  else if c ∈ PatternFlags.letters ∧ c ∉ done then some { s with mode := .flags (c :: done) }
  else none

/-- The names of the classes that are written between colons. -/
def classNames : List String :=
  ["alnum", "alpha", "ascii", "blank", "cntrl", "digit", "graph", "lower", "print", "punct",
    "space", "upper", "word", "xdigit"]

/-- Whether the complement of a named class follows an opening bracket. -/
def beginsComplement (s : List Char) : Bool :=
  classNames.any fun name => (":^" ++ name ++ ":]").toList.isPrefixOf s

def member (s : PatternReader) (first : PatternAtom) : Option PatternReader :=
  match first with
  | .literal c =>
    if s.flags.takesMember c then some { s with mode := .classAfter first } else none
  | .shorthand => some { s with mode := .classAfter first }
  | _ => none

def range (s : PatternReader) (first last : PatternAtom) : Option PatternReader :=
  match first, last with
  | .literal a, .literal b =>
    if a ≤ b ∧ s.flags.takesMember b then some { s with mode := .classItems } else none
  | _, _ => none

def classItem (s : PatternReader) (c : Char) (rest : List Char) : Option PatternReader :=
  if c = '[' then
    if !s.flags.unicode && beginsComplement rest then none
    else some { s with mode := .classOpened, openClasses := s.openClasses + 1 }
  else if c = ']' then
    some { s with
      mode := if s.openClasses ≤ 1 then .item true else .classItems
      openClasses := s.openClasses - 1 }
  else if c ∈ ['&', '-', '~'] ∧ rest.head? = some c then some { s with mode := .classOperator }
  else if c = '\\' then some { s with mode := .escape .member }
  else s.member (.literal c)

def classLead (s : PatternReader) (any : Bool) (c : Char) (rest : List Char) :
    Option PatternReader :=
  if c = '-' then some { s with mode := .classLead true }
  else if c = ']' ∧ !any then some { s with mode := .classItems }
  else s.classItem c rest

/-- A hyphen behind a member makes a range, unless it ends the class or begins an operator. -/
def classAfter (s : PatternReader) (first : PatternAtom) (c : Char) (rest : List Char) :
    Option PatternReader :=
  let next := if s.flags.spaced then Text.trimLeft rest else rest
  if c = '-' ∧ next.head? ≠ some ']' ∧ next.head? ≠ some '-' then
    some { s with mode := .classRange first }
  else s.classItem c rest

/-- Puts what an escape stands for into its place. -/
def settle (s : PatternReader) (place : EscapePlace) (atom : PatternAtom) : Option PatternReader :=
  match place, atom with
  | .member, atom => s.member atom
  | .rangeEnd first, atom => s.range first atom
  | .outside, .literal c =>
    if s.flags.takes c then some { s with mode := .item true } else none
  | .outside, .boundary =>
    some { s with mode := .item true, boundary := s.boundary || s.flags.unicode }
  | .outside, _ => some { s with mode := .item true }

def escape (s : PatternReader) (place : EscapePlace) (c : Char) : Option PatternReader :=
  match c with
  | 'x' => some { s with mode := .number place true 2 0 }
  | 'u' => some { s with mode := .number place false 4 0 }
  | 'U' => some { s with mode := .number place false 8 0 }
  | c => (PatternAtom.escape? s.flags c).bind (s.settle place)

def hexDigit? (c : Char) : Option Nat :=
  if c.isDigit then some (c.toNat - 48)
  else if 'a' ≤ c ∧ c ≤ 'f' then some (c.toNat - 87)
  else if 'A' ≤ c ∧ c ≤ 'F' then some (c.toNat - 55)
  else none

/-- One more digit of a number. The number of a character is complete with its last digit; as a byte
it must not be a part of a character. -/
def number (s : PatternReader) (place : EscapePlace) (isByte : Bool) (left value : Nat) (c : Char) :
    Option PatternReader := do
  let digit ← hexDigit? c
  let value := 16 * value + digit
  if 1 < left then some { s with mode := .number place isByte (left - 1) value }
  else if value.isValidChar ∧ (s.flags.unicode ∨ !isByte ∨ value < 128) then
    s.settle place (.literal (Char.ofNat value))
  else none

/-- Reads a character that counts, before `rest`. -/
def push (s : PatternReader) (c : Char) (rest : List Char) : Option PatternReader :=
  match s.mode with
  | .item repeatable => s.item repeatable c
  | .opened =>
    if c = '?' then some { s with mode := .question } else (s.group s.flags).item false c
  | .question =>
    if c = 'P' then some { s with mode := .named }
    else if c = '<' then some { s with mode := .name [] }
    else s.changeFlags [] c
  | .named => if c = '<' then some { s with mode := .name [] } else none
  | .name done => s.name done c
  | .flags done => s.changeFlags done c
  | .classOpened =>
    if c = '^' then
      if s.flags.unicode then some { s with mode := .classLead false } else none
    else s.classLead false c rest
  | .classLead any => s.classLead any c rest
  | .classItems => s.classItem c rest
  | .classOperator => some { s with mode := .classItems }
  | .classAfter first => s.classAfter first c rest
  | .classRange first =>
    if c = '\\' then some { s with mode := .escape (.rangeEnd first) }
    else s.range first (.literal c)
  | .escape place => s.escape place c
  | .number place isByte left value => s.number place isByte left value c

/-- Reads a character before `rest`. -/
def step (s : PatternReader) (c : Char) (rest : List Char) : Option PatternReader :=
  let skips := s.flags.spaced && s.mode.skipsBlanks
  if s.inComment then some { s with inComment := c ≠ '\n' }
  else if skips && Text.isBlank c then some s
  else if skips && c = '#' then some { s with inComment := true }
  else s.push c rest

def read (s : PatternReader) : List Char → Option PatternReader
  | [] => some s
  | c :: rest => (s.step c rest).bind fun s => s.read rest

/-- Whether a pattern may end here. -/
def isComplete (s : PatternReader) : Bool :=
  match s.mode with
  | .item _ => s.groups.isEmpty
  | _ => false

end PatternReader

/-- Whether a text is a pattern, and one that can be matched. -/
def checkPattern (s : List Char) : Except PatternProblem Unit :=
  match PatternReader.read {} s with
  | none => .error .malformed
  | some r =>
    if !r.isComplete then .error .malformed
    else if r.boundary then .error .wordBoundary
    else .ok ()

end CommandConsole.Cli
