import CommandConsole.Text.Quoted
import CommandConsole.Text.Record

/-! The one answer that an invocation gives. -/
namespace CommandConsole

inductive ResponseKind where
  | ok
  | fail
  /-- The invocation waits for the next line of the conversation. -/
  | continued
  deriving DecidableEq, Inhabited

def ResponseKind.inspect : ResponseKind → String
  | .ok => "Ok"
  | .fail => "Fail"
  | .continued => "Continued"

structure Response where
  kind : ResponseKind
  message : String
  deriving DecidableEq, Inhabited

namespace Response

def ok (message : String) : Response := ⟨.ok, message⟩

def fail (message : String) : Response := ⟨.fail, message⟩

def continued (message : String) : Response := ⟨.continued, message⟩

/-- The answer of a handler that gave none. -/
def empty : Response := ok ""

def isOk (r : Response) : Bool := r.kind = .ok

def isFail (r : Response) : Bool := r.kind = .fail

def isContinued (r : Response) : Bool := r.kind = .continued

/-- A response as a user reads it. -/
def display (r : Response) : String :=
  match r.kind with
  | .ok => r.message
  | .fail => "error: " ++ r.message
  | .continued => r.message ++ " ..."

def inspect (r : Response) : String :=
  Text.record "Response" [("kind", r.kind.inspect), ("message", Text.quoted r.message)]

end Response
end CommandConsole
