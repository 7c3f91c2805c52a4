import CommandConsole.Command
import CommandConsole.Event

/-! The registered commands under their names and aliases. -/
namespace CommandConsole

/-- Commands by name, names by alias, and the number of registrations so far. -/
structure Catalogue (κ : Type) where
  commands : Table String (Command κ)
  aliases : Table String String
  registrations : Nat

namespace Catalogue

variable {κ : Type}

def empty : Catalogue κ := ⟨[], [], 0⟩

/-- A name as it is registered and looked up. -/
def canonical (name : String) : String := Text.lowercase (Text.trim name)

/-- The signatures of drafts. The first draft that is wrong is named by its place. -/
def buildAll (parsers : ParserRegistry) :
    Nat → List Signature.Draft → Except CommandProblem (List Signature)
  | _, [] => .ok []
  | index, d :: rest =>
    match d.build parsers with
    | .error e => .error (.overload index e)
    | .ok s =>
      match buildAll parsers (index + 1) rest with
      | .error e => .error e
      | .ok ss => .ok (s :: ss)

def buildOverloads (parsers : ParserRegistry) (drafts : List Signature.Draft) :
    Except CommandProblem (List Signature) :=
  if drafts = [] then .ok [.empty] else buildAll parsers 0 drafts

/-- Aliases that are blank or repeat the name do not count. -/
def aliasesOf (name : String) (declared : List String) : List String :=
  (declared.map canonical).filter fun a => a ≠ "" ∧ a ≠ name

/-- Whether an alias for `name` belongs to another command, as its name or as its alias. -/
def isTaken (c : Catalogue κ) (name : String) (a : String) : Bool :=
  c.commands.contains a ||
    match c.aliases.find? a with
    | some owner => owner != name
    | none => false

/-- Removes a command with its aliases. -/
def remove (c : Catalogue κ) (old : Command κ) : Catalogue κ :=
  { c with
    commands := c.commands.erase old.name
    aliases := old.aliases.foldl (fun t a => t.erase a) c.aliases }

/-- Adds a command with its aliases, in place of an earlier one of the same name. -/
def put (c : Catalogue κ) (new : Command κ) : Catalogue κ :=
  let c :=
    match c.commands.find? new.name with
    | some old => c.remove old
    | none => c
  { commands := c.commands.insert new.name new
    aliases := new.aliases.foldl (fun t a => t.insert a new.name) c.aliases
    registrations := c.registrations + 1 }

/-- Checks a declaration under its canonical name. -/
def build (c : Catalogue κ) (d : CommandDeclaration κ) (parsers : ParserRegistry) (name : String) :
    Except CommandProblem (Command κ) :=
  match buildOverloads parsers d.overloads with
  | .error e => .error e
  | .ok overloads =>
    let aliases := aliasesOf name d.aliases
    match aliases.find? (c.isTaken name) with
    | some a => .error (.aliasTaken a)
    | none =>
      if c.aliases.contains name then .error .nameIsAlias
      else .ok {
        name, aliases, overloads
        description := d.description, permission := d.permission, execution := d.execution
        registration := c.registrations }

/-- Registers a command. Nothing changes if that fails. -/
def register (c : Catalogue κ) (d : CommandDeclaration κ) (parsers : ParserRegistry) :
    Reported (Except Error (Command κ × Catalogue κ)) :=
  let name := canonical d.name
  if name = "" ∨ name.toList.any Text.isBlank then
    pure (.error { kind := .schema d.name .notOneWord })
  else
    match c.build d parsers name with
    | .error e => pure (.error { kind := .schema name e })
    | .ok command => do
      Reported.event (.commandRegistered name command.overloads.length command.execution.strategy)
      pure (.ok (command, c.put command))

/-- Removes the command of a name, in any case. An alias is no name. -/
def unregister (c : Catalogue κ) (name : String) : Option (Command κ) × Catalogue κ :=
  match c.commands.find? (Text.lowercase name) with
  | some old => (some old, c.remove old)
  | none => (none, c)

/-- A change that may be asked of a catalogue. -/
inductive Change (κ : Type) where
  | register (d : CommandDeclaration κ) (parsers : ParserRegistry)
  | unregister (name : String)

/-- Makes a change. One that is refused leaves the catalogue as it was. -/
def change (c : Catalogue κ) : Change κ → Reported (Catalogue κ)
  | .register d parsers => do
    match ← c.register d parsers with
    | .ok (_, changed) => pure changed
    | .error _ => pure c
  | .unregister name => pure (c.unregister name).2

/-- Makes some changes, one after another. -/
def changeAll (c : Catalogue κ) : List (Change κ) → Reported (Catalogue κ)
  | [] => pure c
  | x :: rest => do
    let c ← c.change x
    c.changeAll rest

/-- The command of a name or an alias, in any case. -/
def find? (c : Catalogue κ) (name : String) : Option (Command κ) :=
  let key := Text.lowercase name
  c.commands.find? ((c.aliases.find? key).getD key)

/-- The commands in the order of their names. -/
def sorted (c : Catalogue κ) : List (Command κ) :=
  (c.commands.map Prod.snd).mergeSort fun a b => a.name ≤ b.name

def names (c : Catalogue κ) : List String := c.sorted.map (·.name)

def size (c : Catalogue κ) : Nat := c.commands.length

/-- The help text of all commands. -/
def describe (c : Catalogue κ) : String :=
  String.join ((c.sorted.flatMap (·.helpLines)).map (· ++ "\n"))

def inspect (c : Catalogue κ) : String :=
  Text.record "CommandRegistry" [("commands", Text.sequence (c.names.map Text.quoted))]

end Catalogue
end CommandConsole
