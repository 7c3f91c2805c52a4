import CommandConsole.Bindings

/-! Where the storage of bindings comes from and goes back to. -/
namespace CommandConsole

/-- Idle storage, at most `capacity` pieces of it, and how many pieces are out. -/
structure Pool where
  capacity : Nat
  free : List Bindings
  outstanding : Nat

namespace Pool

def ofCapacity (capacity : Nat) : Pool := ⟨capacity, [], 0⟩

/-- A pool for hosts that do not choose a capacity. -/
def standard : Pool := ofCapacity 64

def available (p : Pool) : Nat := p.free.length

/-- Hands out storage: a piece that was given back, or a new one. -/
def rent (p : Pool) : Bindings × Pool :=
  match p.free with
  | [] => (.empty, { p with outstanding := p.outstanding + 1 })
  | b :: r => (b, { p with free := r, outstanding := p.outstanding + 1 })

/-- Takes storage back, emptied. What there is no room for is thrown away. -/
def giveBack (p : Pool) (b : Bindings) : Pool :=
  { p with
    free := if p.free.length < p.capacity then { b with entries := [] } :: p.free else p.free
    outstanding := p.outstanding - 1 }

def inspect (p : Pool) : String :=
  Text.record "ArgumentPool"
    [("capacity", Decimal.naturalText p.capacity), ("available", Decimal.naturalText p.available),
      ("outstanding", Decimal.naturalText p.outstanding)]

end Pool
end CommandConsole
