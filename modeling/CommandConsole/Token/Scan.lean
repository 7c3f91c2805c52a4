import CommandConsole.Text.Blank
import CommandConsole.Token
import CommandConsole.Token.ScanError

/-! Reading one token from a text. -/
namespace CommandConsole

/-- Where the values of properties come from. -/
abbrev PropertySource := String → Option String

/-- A place in a text: what is left of it, and the byte position. -/
structure Cursor where
  rest : List Char
  position : Nat

namespace Cursor

def error (s : Cursor) (problem : ScanProblem) : ScanError := .here problem s.rest s.position

/-- Moves past the characters that make up `taken`, of which `rest` is what follows. -/
def past (s : Cursor) (taken rest : List Char) : Cursor := ⟨rest, s.position + Text.width taken⟩

/-- Moves past one character. -/
def next (s : Cursor) : Cursor :=
  match s.rest with
  | [] => s
  | c :: r => s.past [c] r

def skipBlanks (s : Cursor) : Cursor :=
  s.past (s.rest.takeWhile Text.isBlank) (s.rest.dropWhile Text.isBlank)

/-- Moves to the first character that fails a test. -/
def skipWhile (s : Cursor) (p : Char → Bool) : Cursor :=
  s.past (s.rest.takeWhile p) (s.rest.dropWhile p)

end Cursor

namespace Token

/-- Characters that may not stand in a plain text. -/
def isDelimiter (c : Char) : Bool := c == '"' || c == '[' || c == ']' || c == '{' || c == '}'

/-- A plain text runs up to the next of `stops`. -/
def scanPlain (stops : List Char) (s : Cursor) : Except ScanError (Token × Cursor) :=
  let p := fun c => !stops.contains c && !isDelimiter c
  let body := s.rest.takeWhile p
  let after := s.skipWhile p
  match after.rest with
  | [] => .ok (.plain (String.ofList (Text.trimRight body)), after)
  | c :: _ =>
    if stops.contains c then .ok (.plain (String.ofList (Text.trimRight body)), after)
    else .error (after.error (.unexpected c))

/-- A text in quotes, from its opening quote on. Nothing in it is escaped. -/
def scanLiteral (s : Cursor) : Except ScanError (Token × Cursor) :=
  let body := s.next.rest.takeWhile (· != '"')
  let after := s.next.skipWhile (· != '"')
  match after.rest with
  | [] => .error (s.error (.unterminated "\""))
  | _ :: _ => .ok (.literal (String.ofList body), after.next)

/-- A property, from its dollar sign on. -/
def scanProperty (properties : PropertySource) (s : Cursor) : Except ScanError (Token × Cursor) :=
  let body := s.next.next.rest.takeWhile (· != '}')
  let after := s.next.next.skipWhile (· != '}')
  match after.rest with
  | [] => .error (s.error (.unterminated "$\x7b"))
  | _ :: _ =>
    let name := Text.trim (String.ofList body)
    if name = "" then .error (s.error .emptyPropertyName)
    else
      match properties name with
      | some value => .ok (.property name value, after.next)
      | none => .error (s.error (.unknownProperty name))

mutual

/-- Reads one token, which ends before any of `stops` outside delimiters. Every call reads on or
goes one level down, so twice the length of the text is enough `fuel`. -/
def scanToken (properties : PropertySource) (stops : List Char) :
    Nat → Cursor → Except ScanError (Token × Cursor)
  | 0, s => .error (s.error .expectedValue)
  | fuel + 1, s =>
    let s := s.skipBlanks
    match s.rest with
    | [] => .error (s.error .expectedValue)
    | '"' :: _ => scanLiteral s
    | '[' :: _ =>
      let inside := s.next.skipBlanks
      match inside.rest with
      | ']' :: _ => .ok (.collection [], inside.next)
      | _ => scanItems properties s [] fuel inside
    | '{' :: _ =>
      let inside := s.next.skipBlanks
      match inside.rest with
      | '}' :: _ => .ok (.dictionary [], inside.next)
      | _ => scanPairs properties s [] fuel inside
    | '$' :: '{' :: _ => scanProperty properties s
    | c :: _ =>
      if stops.contains c then .error (s.error .expectedValue) else scanPlain stops s

/-- Reads the items of the collection that begins at `start`; those before are in `items`, last
first. -/
def scanItems (properties : PropertySource) (start : Cursor) (items : List Token) :
    Nat → Cursor → Except ScanError (Token × Cursor)
  | 0, s => .error (s.error .expectedValue)
  | fuel + 1, s =>
    let s := s.skipBlanks
    if s.rest = [] then .error (start.error (.unterminated "["))
    else
      match scanToken properties [',', ']'] fuel s with
      | .error e => .error e
      | .ok (item, s) =>
        let s := s.skipBlanks
        match s.rest with
        | [] => .error (start.error (.unterminated "["))
        | c :: _ =>
          if c = ',' then scanItems properties start (item :: items) fuel s.next
          else if c = ']' then .ok (.collection (item :: items).reverse, s.next)
          else .error (s.error (.expectedSeparator ']' c))

/-- Reads the pairs of the dictionary that begins at `start`, those before in `pairs`, last first.
A key is compared with the earlier ones once its colon is read. -/
def scanPairs (properties : PropertySource) (start : Cursor) (pairs : List (Token × Token)) :
    Nat → Cursor → Except ScanError (Token × Cursor)
  | 0, s => .error (s.error .expectedValue)
  | fuel + 1, s =>
    let s := s.skipBlanks
    if s.rest = [] then .error (start.error (.unterminated "\x7b"))
    else
      match scanToken properties [':', ',', '}'] fuel s with
      | .error e => .error e
      | .ok (key, t) =>
        let t := t.skipBlanks
        match t.rest with
        | [] => .error (start.error (.unterminated "\x7b"))
        | ':' :: _ =>
          if pairs.any (·.1.keyText == key.keyText) then
            .error (s.error (.duplicateKey key.keyText))
          else
            match scanToken properties [',', '}'] fuel t.next with
            | .error e => .error e
            | .ok (value, t) =>
              let t := t.skipBlanks
              match t.rest with
              | [] => .error (start.error (.unterminated "\x7b"))
              | c :: _ =>
                if c = ',' then scanPairs properties start ((key, value) :: pairs) fuel t.next
                else if c = '}' then
                  .ok (.dictionary ((key, value) :: pairs).reverse, t.next)
                else .error (t.error (.expectedSeparator '}' c))
        | _ :: _ => .error (t.error .expectedColon)

end

/-- Reads a text, which begins at byte `offset` of its line, as exactly one token. -/
def scan (source : String) (offset : Nat) (properties : PropertySource) :
    Except ScanError Token :=
  match scanToken properties [] (2 * source.toList.length + 2) ⟨source.toList, offset⟩ with
  | .error e => .error e
  | .ok (token, s) =>
    let s := s.skipBlanks
    match s.rest with
    | [] => .ok token
    | c :: _ => .error (s.error (.unexpectedAfter c token.kind))

end Token
end CommandConsole
