import CommandConsole.Invoker
import CommandConsole.Refusal
import CommandConsole.Text.Ascii
import CommandConsole.Value.Text

/-! Conditions on the value of an argument. -/
namespace CommandConsole

/-- What a constraint may look at beside the value. -/
structure Circumstance where
  invoker : Invoker
  argument : String
  line : String

def Circumstance.inspect (c : Circumstance) : String :=
  Text.openRecord "ValidationContext"
    [("invoker", Text.quoted c.invoker.name), ("argument", Text.quoted c.argument)]

/-- A condition on a value. Values of other kinds than it speaks of satisfy it. -/
inductive Constraint where
  /-- The number of characters of a text. -/
  | textLength (least most : Nat)
  | integerRange (least most : Int64)
  | floatRange (least most : Binary64)
  /-- One of several texts, in either case. -/
  | among (choices : List String)
  /-- The number of items of a list or of entries of a map; no bound above is `none`. -/
  | size (least : Nat) (most : Option Nat)
  /-- The invoker has to hold a permission, whatever the value. -/
  | permission (name : String)
  /-- A condition of the host's own. -/
  | custom (check : Value → Circumstance → Option Refusal)

namespace Constraint

def checkSize (least : Nat) (most : Option Nat) (n : Nat) : Option Refusal :=
  if n < least then some (.tooFew least)
  else
    match most with
    | some m => if m < n then some (.tooMany m) else none
    | none => none

/-- Why a value is refused, if it is. -/
def check : Constraint → Value → Circumstance → Option Refusal
  | .textLength least most, .text s, _ =>
    if s.length < least then some (.tooShort least)
    else if most < s.length then some (.tooLong most)
    else none
  | .integerRange least most, .int n, _ =>
    if n < least ∨ most < n then some (.outsideIntegers least most) else none
  | .floatRange least most, v, _ =>
    match v.float? with
    | some x => if x.lt least || most.lt x then some (.outsideFloats least most) else none
    | none => none
  | .among choices, .text s, _ =>
    if choices.any (Text.sameIgnoringCase · s) then none else some (.notAmong choices)
  | .size least most, .list items, _ => checkSize least most items.length
  | .size least most, .map entries, _ => checkSize least most entries.length
  | .permission name, _, c =>
    if c.invoker.hasPermission name then none else some (.lacksPermission name)
  | .custom f, v, c => f v c
  | _, _, _ => none

/-- The refusal of the first constraint that refuses. -/
def firstRefusal (constraints : List Constraint) (v : Value) (c : Circumstance) : Option Refusal :=
  constraints.findSome? (·.check v c)

end Constraint
end CommandConsole
