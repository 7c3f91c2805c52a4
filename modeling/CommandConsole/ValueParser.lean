import CommandConsole.Refusal
import CommandConsole.Token
import CommandConsole.Value.Equality

/-! Parsers: they make a value of a token, or say why they cannot. -/
namespace CommandConsole

/-- A parser, and the short description of what it takes. It is told the place its token comes from,
which is the identity of a foreign value that it makes. -/
structure ValueParser where
  expected : String
  parse : Identity → Token → Except Refusal Value

namespace ValueParser

/-- A parser for a single piece of text. -/
def scalar (expected : String) (read : Identity → String → Except Refusal Value) : ValueParser where
  expected := expected
  parse place token :=
    match token.scalar? with
    | some s => read place s
    | none => .error (.notScalar expected token.kind)

/-- Parses item by item. The first item that is refused is named. -/
def parseItems (element : ValueParser) (place : Identity) :
    Nat → List Token → Except Refusal (List Value)
  | _, [] => .ok []
  | index, t :: r =>
    match element.parse (place ++ [index]) t with
    | .error reason => .error (.item index t.display reason)
    | .ok v =>
      match parseItems element place (index + 1) r with
      | .error reason => .error reason
      | .ok vs => .ok (v :: vs)

/-- Parses pair by pair, the key before its value. A key that equals an earlier one is refused once
its value is read. -/
def parsePairs (key value : ValueParser) (place : Identity) :
    Nat → List (Value × Value) → List (Token × Token) → Except Refusal (List (Value × Value))
  | _, done, [] => .ok done
  | index, done, (k, v) :: r =>
    match key.parse (place ++ [index, 0]) k with
    | .error reason => .error (.key k.display reason)
    | .ok kv =>
      match value.parse (place ++ [index, 1]) v with
      | .error reason => .error (.valueOf k.display reason)
      | .ok vv =>
        if done.any (kv == ·.1) then .error (.duplicateKey k.display)
        else parsePairs key value place (index + 1) (done ++ [(kv, vv)]) r

/-- Takes `[…]`, each item by the same parser. -/
def list (element : ValueParser) : ValueParser where
  expected := "list<" ++ element.expected ++ ">"
  parse place token :=
    match token with
    | .collection items => (parseItems element place 0 items).map .list
    | other => .error (.notCollection other.kind)

/-- Takes `{…}`, whose keys have to differ also as values. -/
def map (key value : ValueParser) : ValueParser where
  expected := "map<" ++ key.expected ++ ", " ++ value.expected ++ ">"
  parse place token :=
    match token with
    | .dictionary pairs => (parsePairs key value place 0 [] pairs).map .map
    | other => .error (.notDictionary other.kind)

end ValueParser
end CommandConsole
