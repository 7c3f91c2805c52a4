import CommandConsole.Value

/-! Equality of values, and what a value contributes to a hash. Floats are compared by their bits,
maps without regard to order, foreign values by identity. -/
namespace CommandConsole

mutual

/-- Whether two values are equal. -/
def Value.same : Value → Value → Bool
  | .nil, .nil => true
  | .bool a, .bool b => a == b
  | .int a, .int b => a == b
  | .float a, .float b => a == b
  | .text a, .text b => a == b
  | .variant a, .variant b => a == b
  | .list a, .list b => sameItems a b
  | .map a, .map b => a.length == b.length && entriesWithin a b
  | .foreign a, .foreign b => a.identity == b.identity
  | _, _ => false

/-- Equality item by item. -/
def sameItems : List Value → List Value → Bool
  | [], [] => true
  | x :: a, y :: b => x.same y && sameItems a b
  | _, _ => false

/-- Whether every key of the first map has an equal value under an equal key of the second. -/
def entriesWithin : List (Value × Value) → List (Value × Value) → Bool
  | [], _ => true
  | (k, v) :: r, b =>
    (match b.find? fun e => k.same e.1 with
      | some e => v.same e.2
      | none => false) && entriesWithin r b

end

instance : BEq Value := ⟨Value.same⟩

namespace Value

/-- A map of the given pairs. Of equal keys the first keeps its place and the last its value. -/
def ofPairs (pairs : List (Value × Value)) : Value := .map (Table.ofPairs pairs)

/-- One thing that a hasher is fed. -/
inductive Atom where
  | number (n : Nat)
  | text (s : String)
  deriving DecidableEq

end Value

mutual

/-- The atoms that a value feeds to a hasher. An entry of a map counts by its `digest` alone, and
the digests are added up, so that order has no part in it. A list feeds its items one after the
other, behind whatever atoms stand for its `size`. -/
def Value.feed (digest : List Value.Atom → UInt64) (size : Nat → List Value.Atom) :
    Value → List Value.Atom
  | .nil => [.number 0]
  | .bool b => [.number 1, .number b.toNat]
  | .int n => [.number 2, .number n.toUInt64.toNat]
  | .float x => [.number 3, .number x.bits.toNat]
  | .text s => [.number 4, .text s]
  | .variant e => [.number 5, .text e.typeName, .text e.variant, .number e.ordinal]
  | .list items => .number 6 :: (size items.length ++ feedItems digest size items)
  | .map entries =>
    [.number 7, .number entries.length, .number (feedEntries digest size entries).toNat]
  | .foreign f => .number 8 :: .number f.identity.length :: f.identity.map .number

def feedItems (digest : List Value.Atom → UInt64) (size : Nat → List Value.Atom) :
    List Value → List Value.Atom
  | [] => []
  | x :: r => x.feed digest size ++ feedItems digest size r

/-- The sum of the digests of the entries, modulo two to the sixty-fourth. -/
def feedEntries (digest : List Value.Atom → UInt64) (size : Nat → List Value.Atom) :
    List (Value × Value) → UInt64
  | [] => 0
  | (k, v) :: r => digest (k.feed digest size ++ v.feed digest size) + feedEntries digest size r

end

namespace Value

/-- A digest of atoms for looking values up. -/
def mix (atoms : List Atom) : UInt64 :=
  atoms.foldl (fun h a =>
    match a with
    | .number n => mixHash h (hash n)
    | .text s => mixHash h (hash s)) 7

/-- The hash by which values are looked up. -/
def mixed (x : Value) : UInt64 := mix (x.feed mix fun n => [.number n])

/-- Finds a value among others by its hash first, and by equality among those of the same hash. -/
def findHashed? (x : Value) (others : List (Nat × Value)) : Option Nat :=
  let h := x.mixed
  (others.find? fun e => e.2.mixed == h && x == e.2).map Prod.fst

end Value
end CommandConsole
