import CommandConsole.Text.Lowercase
import CommandConsole.Value.Text
import CommandConsole.ValueType

/-! The arguments of one invocation, bound to their names. -/
namespace CommandConsole

/-- A value, and the type it was declared with. -/
structure Binding where
  value : Value
  type : ValueType

/-- Bindings under lower-case names, in the order in which they were made. -/
structure Bindings where
  entries : Table String Binding

namespace Bindings

def empty : Bindings := ⟨[]⟩

/-- Binds a name, in place of an earlier binding. -/
def insert (b : Bindings) (name : String) (value : Value) (type : ValueType) : Bindings :=
  ⟨b.entries.insert (Text.lowercase name) ⟨value, type⟩⟩

/-- What a name, given in any case, is bound to. -/
def binding? (b : Bindings) (name : String) : Option Binding :=
  b.entries.find? (Text.lowercase name)

def value? (b : Bindings) (name : String) : Option Value := (b.binding? name).map (·.value)

def contains (b : Bindings) (name : String) : Bool := (b.binding? name).isSome

def size (b : Bindings) : Nat := b.entries.length

def text? (b : Bindings) (name : String) : Option String := b.value? name >>= (·.text?)

def int? (b : Bindings) (name : String) : Option Int64 := b.value? name >>= (·.int?)

def float? (b : Bindings) (name : String) : Option Binary64 := b.value? name >>= (·.float?)

def bool? (b : Bindings) (name : String) : Option Bool := b.value? name >>= (·.bool?)

def list? (b : Bindings) (name : String) : Option (List Value) := b.value? name >>= (·.list?)

def map? (b : Bindings) (name : String) : Option (List (Value × Value)) :=
  b.value? name >>= (·.map?)

def variant? (b : Bindings) (name : String) : Option EnumValue := b.value? name >>= (·.variant?)

/-- Whether the same names are bound to equal values of equal types, in any order. -/
def same (a b : Bindings) : Bool :=
  a.size == b.size && a.entries.all fun (name, x) =>
    match b.entries.find? name with
    | some y => x.value == y.value && x.type == y.type
    | none => false

def inspect (b : Bindings) : String :=
  Text.association (b.entries.map fun (name, x) => (Text.quoted name, x.value.inspect))

end Bindings
end CommandConsole
