import CommandConsole.Bindings.Pool
import CommandConsole.Error
import CommandConsole.Line.Words
import CommandConsole.Signature.Choice
import CommandConsole.Token.Scan

/-! Binding the words of a line to the parameters of the overload that fits them. -/
namespace CommandConsole

/-- A line to be bound: the command's name, the whole line, the words after the first, who typed it,
and the trouble with its delimiters if there is any. -/
structure BindRequest where
  command : String
  line : String
  words : List Word
  invoker : Invoker
  trouble : Option ScanError

/-- The bindings made, and which overload they are for. -/
structure Bound where
  overload : Nat
  arguments : Bindings

namespace BindRequest

/-- The text that a remainder takes from its first word on. -/
def remainderFrom (q : BindRequest) (w : Word) : String :=
  match Text.dropBytes? w.start q.line.toList with
  | some rest => Text.trimEnd (String.ofList rest)
  | none => Text.trimEnd w.text

/-- Whether the remainder of a signature begins at or before a position. What a remainder takes
verbatim needs no delimiters in order. -/
def remainderCovers (q : BindRequest) (s : Signature) (position : Nat) : Bool :=
  s.hasRemainder &&
    match q.words[s.parameters.length - 1]? with
    | some w => w.start ≤ position
    | none => false

/-- The trouble with delimiters that stands against a signature. -/
def standingTrouble (q : BindRequest) (s : Signature) : Option ScanError :=
  q.trouble.filter fun e => !q.remainderCovers s e.position

/-- The value that a word gives a parameter, before its constraints, and the text it is known by in
messages. -/
def read (q : BindRequest) (p : Parameter) (w : Word) : Except ErrorKind (Value × String) :=
  if p.isRemainder then .ok (.text (q.remainderFrom w), q.remainderFrom w)
  else
    match Token.scan w.text w.start q.invoker.property with
    | .error e => .error (.scan e)
    | .ok token =>
      match p.parser.parser.parse [w.start] token with
      | .error reason => .error (.bind p.name p.expected w.text reason)
      | .ok v => .ok (v, w.text)

/-- The value that a parameter is bound to by a word, its constraints checked. -/
def valueOf (q : BindRequest) (p : Parameter) (w : Word) : Except ErrorKind Value :=
  match q.read p w with
  | .error e => .error e
  | .ok (v, raw) =>
    match Constraint.firstRefusal p.constraints v ⟨q.invoker, p.name, q.line⟩ with
    | some reason => .error (.bind p.name p.expected raw reason)
    | none => .ok v

/-- Binds parameters to words one by one. Where the words have run out the defaults stand. -/
def fill (q : BindRequest) : List Parameter → List Word → Bindings → Except ErrorKind Bindings
  | [], _, b => .ok b
  | p :: ps, [], b =>
    match p.default with
    | none => .error (.internal ("required argument `" ++ p.name ++ "` left unbound"))
    | some v => q.fill ps [] (b.insert p.name v p.type)
  | p :: ps, w :: ws, b =>
    match q.valueOf p w with
    | .error e => .error e
    | .ok v => q.fill ps ws (b.insert p.name v p.type)

def context (q : BindRequest) : ErrorContext := { command := some q.command, input := some q.line }

/-- Binds to one signature. The storage goes back to the pool on failure. -/
def bindTo (q : BindRequest) (s : Signature) (pool : Pool) : Except ErrorKind Bindings × Pool :=
  match q.standingTrouble s with
  | some e => (.error (.scan e), pool)
  | none =>
    let (storage, pool) := pool.rent
    match q.fill s.parameters q.words storage with
    | .ok b => (.ok b, pool)
    | .error e => (.error e, pool.giveBack storage)

/-- Binds to the overload that fits the number of words best. Errors name the command and the line,
and the usage of the overload once one is chosen. -/
def bind (q : BindRequest) (overloads : List Signature) (pool : Pool) :
    Except Error Bound × Pool :=
  let chosen := Signature.select? overloads q.words.length
  match chosen, chosen.bind (overloads[·]?) with
  | some i, some s =>
    match q.bindTo s pool with
    | (.ok b, pool) => (.ok ⟨i, b⟩, pool)
    | (.error e, pool) =>
      (.error ⟨e, some { q.context with notes := ["usage: " ++ s.usage q.command] }⟩, pool)
  | _, _ =>
    let kind :=
      match q.trouble with
      | some e => .scan e
      | none => .noOverload q.words.length (Signature.usageLines overloads q.command)
    (.error ⟨kind, some q.context⟩, pool)

end BindRequest
end CommandConsole
