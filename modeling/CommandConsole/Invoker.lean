import CommandConsole.Table
import CommandConsole.Token.Scan

/-! Whoever types a line. -/
namespace CommandConsole

/-- The name, the permissions held (`none` is every permission), the values of properties, and the
key of the conversation if it is not the name. -/
structure Invoker where
  name : String
  permissions : Option (List String)
  properties : Table String String
  conversation : Option String
  deriving DecidableEq, Inhabited

namespace Invoker

/-- An invoker with every permission and no properties. -/
def named (name : String) : Invoker := ⟨name, none, [], none⟩

/-- The key under which a conversation waits for the invoker's next line. -/
def conversationKey (i : Invoker) : String := i.conversation.getD i.name

def hasPermission (i : Invoker) (permission : String) : Bool :=
  match i.permissions with
  | none => true
  | some held => held.contains permission

def property (i : Invoker) : PropertySource := fun name => i.properties.find? name

end Invoker
end CommandConsole
