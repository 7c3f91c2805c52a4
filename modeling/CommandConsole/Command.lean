import CommandConsole.Script
import CommandConsole.Signature.Choice

/-! Commands, as their authors declare them and as they are registered. -/
namespace CommandConsole

/-- A command as declared. One without overloads takes no arguments. -/
structure CommandDeclaration (κ : Type) where
  name : String
  execution : Execution κ
  aliases : List String := []
  description : Option String := none
  overloads : List Signature.Draft := []
  permission : Option String := none

/-- A command in use. Name and aliases are in lower case; `registration` tells one registration from
every other, also of the same name. -/
structure Command (κ : Type) where
  name : String
  aliases : List String
  description : Option String
  overloads : List Signature
  permission : Option String
  execution : Execution κ
  registration : Nat

namespace Command

variable {κ : Type}

def usage (c : Command κ) : String := Signature.usageLines c.overloads c.name

/-- The lines about a command in the help text: its usages, its description, its aliases. -/
def helpLines (c : Command κ) : List String :=
  c.overloads.map (·.usage c.name) ++
  (match c.description with
    | some text => ["    " ++ text]
    | none => []) ++
  (if c.aliases = [] then [] else ["    aliases: " ++ ", ".intercalate c.aliases])

end Command
end CommandConsole
