import CommandConsole.Bindings.Pool

/-! Bindings held by name. Several names may hold the same bindings; their storage goes back to the
pool when the last of them lets go. -/
namespace CommandConsole

/-- Bindings that are held, whether their storage is the pool's, and the names that hold them. -/
structure Holding where
  bindings : Bindings
  pooled : Bool
  holders : List String

structure Holdings where
  pool : Pool
  held : List Holding

namespace Holdings

def ofPool (pool : Pool) : Holdings := ⟨pool, []⟩

def find? (h : Holdings) (name : String) : Option Holding :=
  h.held.find? (·.holders.contains name)

/-- Takes a name off what it holds. -/
def release (h : Holdings) (name : String) : Holdings :=
  match h.find? name with
  | none => h
  | some x =>
    let others := h.held.filter fun y => !y.holders.contains name
    match x.holders.filter (· != name) with
    | [] => { pool := if x.pooled then h.pool.giveBack x.bindings else h.pool, held := others }
    | rest => { h with held := { x with holders := rest } :: others }

/-- Rents new bindings for a name, and then lets go of what it held. -/
def rent (h : Holdings) (name : String) : Holdings :=
  let (b, pool) := h.pool.rent
  let h := { h with pool }.release name
  { h with held := ⟨b, true, [name]⟩ :: h.held }

/-- Gives a name new bindings of no pool. -/
def detach (h : Holdings) (name : String) : Holdings :=
  let h := h.release name
  { h with held := ⟨.empty, false, [name]⟩ :: h.held }

/-- Lets another name hold what a name holds. -/
def share (h : Holdings) (name other : String) : Holdings :=
  if name = other then h
  else
    let h := h.release other
    { h with held := h.held.map fun x =>
        if x.holders.contains name then { x with holders := other :: x.holders } else x }

/-- Binds a name in held bindings, unless others hold them too. -/
def insert (h : Holdings) (holder name : String) (value : Value) (type : ValueType) :
    Option (Nat × Holdings) :=
  match h.find? holder with
  | some x =>
    if x.holders.length = 1 then
      let b := x.bindings.insert name value type
      some (b.size, { h with held := h.held.map fun y =>
        if y.holders.contains holder then { y with bindings := b } else y })
    else none
  | none => none

end Holdings
end CommandConsole
