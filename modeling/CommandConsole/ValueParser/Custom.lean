import CommandConsole.ValueParser.Builtin

/-! Parsers of a host's own types. Those for a single piece of text are made for the key under which
they are registered, which is also what they say they expect. -/
namespace CommandConsole.ValueParser

def refuse {α : Type} (words : String) : Except Refusal α := .error (.other words)

/-- Text with the letters a to z made capitals. -/
def capitals (key : String) : ValueParser :=
  scalar key fun _ s => .ok (.text (String.ofList (s.toList.map Char.toUpper)))

/-- Takes nothing. -/
def rejecting (key : String) : ValueParser :=
  scalar key fun _ s => refuse ("rejected `" ++ s ++ "`")

/-- An integer with any number of percent signs behind it. -/
def percent (key : String) : ValueParser :=
  scalar key fun _ s =>
    match Decimal.int64? (s.toList.reverse.dropWhile (· == '%')).reverse with
    | some n => .ok (.int n)
    | none => refuse "expected a percentage"

/-- An integer of 32 bits. -/
def int32? (s : List Char) : Option Int := do
  let n ← Decimal.integer? s
  if Int32.minValue.toInt ≤ n ∧ n ≤ Int32.maxValue.toInt then some n else none

/-- Two integers of 32 bits with a semicolon between them. -/
def point (key : String) : ValueParser :=
  scalar key fun place s =>
    let x := s.toList.takeWhile (· != ';')
    match s.toList.dropWhile (· != ';') with
    | [] => refuse "expected x;y"
    | _ :: y =>
      match int32? x, int32? y with
      | none, _ => refuse "bad x"
      | some _, none => refuse "bad y"
      | some x, some y =>
        .ok (.foreign ⟨"point", Decimal.integerText x ++ ";" ++ Decimal.integerText y, place⟩)

/-- Any token; the value is its kind and its notation. -/
def describing : ValueParser where
  expected := "anything"
  parse _ token := .ok (.text (token.kind ++ ": " ++ token.display))

/-- Any token; the value is nil. -/
def nothing : ValueParser where
  expected := "nothing"
  parse _ _ := .ok .nil

def coordinate? (t : Token) : Option Int64 := t.scalar? >>= fun s => Decimal.int64? s.toList

/-- A collection of three integers. -/
def vector : ValueParser where
  expected := "vec3"
  parse place token :=
    match token with
    | .collection items =>
      match items.mapM coordinate? with
      | none => refuse "bad coordinate"
      | some [x, y, z] =>
        .ok (.foreign ⟨"vec3", "/".intercalate ([x, y, z].map Decimal.int64Text), place⟩)
      | some _ => refuse "expected three coordinates"
    | _ => refuse "expected [x,y,z]"

/-- The parsers of this module and the built-in ones by the names of their kinds, for use under a
key. -/
def ofKind? (kind key : String) : Option ValueParser :=
  match kind with
  | "bool" => some bool
  | "int" => some int
  | "float" => some float
  | "string" => some text
  | "upper" => some (capitals key)
  | "reject" => some (rejecting key)
  | "percent" => some (percent key)
  | "point" => some (point key)
  | "kind" => some describing
  | "nil" => some nothing
  | "vec3" => some vector
  | _ => none

end CommandConsole.ValueParser
