/-! Whether a text needs another line. -/
namespace CommandConsole.Line

/-- How many more brackets and braces are open than closed, in a count of 32 bits, and whether a
quote is open. -/
structure Balance where
  depth : Int32
  quoted : Bool
  deriving DecidableEq

def Balance.step (b : Balance) (c : Char) : Balance :=
  if c = '"' then { b with quoted := !b.quoted }
  else if b.quoted then b
  else if c = '[' ∨ c = '{' then { b with depth := b.depth + 1 }
  else if c = ']' ∨ c = '}' then { b with depth := b.depth - 1 }
  else b

def balance (text : List Char) : Balance := text.foldl Balance.step ⟨0, false⟩

/-- A text is balanced if no quote is open and nothing more is opened than closed. Closers too many
do not count: another line would not mend them. -/
def isBalanced (text : String) : Bool :=
  let b := balance text.toList
  b.depth ≤ 0 && !b.quoted

end CommandConsole.Line
