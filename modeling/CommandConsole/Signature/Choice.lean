import CommandConsole.Signature

/-! Choosing among the overloads of a command by the number of words. -/
namespace CommandConsole.Signature

/-- An overload that accepts: its place among the overloads, and how many parameters it requires. -/
structure Candidate where
  index : Nat
  specificity : Nat
  deriving DecidableEq

/-- The overloads that accept so many words, those that require more first, and of equals the one
declared first. -/
def feasible (overloads : List Signature) (provided : Nat) : List Candidate :=
  let accepting := (overloads.zipIdx).filter fun (s, _) => s.accepts provided
  (accepting.map fun (s, i) => ⟨i, s.required⟩).mergeSort
    fun a b => b.specificity ≤ a.specificity

/-- The best overload for so many words. -/
def select? (overloads : List Signature) (provided : Nat) : Option Nat :=
  (feasible overloads provided).head?.map (·.index)

/-- The usage of every overload, one a line. -/
def usageLines (overloads : List Signature) (command : String) : String :=
  "\n".intercalate (overloads.map fun s => "usage: " ++ s.usage command)

end CommandConsole.Signature
