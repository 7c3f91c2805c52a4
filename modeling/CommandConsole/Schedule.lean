import CommandConsole.Runner

/-! Suspended invocations, and the ticks that advance them. -/
namespace CommandConsole

/-- A runner under way, with whatever its host wants to remember of it. -/
structure Suspended (κ τ : Type) where
  id : RunId
  origin : τ
  runner : Runner κ

/-- Runners in the order of submission, and the number of ticks so far. -/
structure Schedule (κ τ : Type) where
  pending : List (Suspended κ τ)
  ticks : Nat

/-- A runner that a tick found finished, and the context that it handed over, if it did so in that
tick. -/
structure Finished (κ τ : Type) where
  id : RunId
  origin : τ
  runner : Runner κ
  context : Option (Context κ)

namespace Schedule

variable {κ τ : Type}

def empty : Schedule κ τ := ⟨[], 0⟩

def submit (s : Schedule κ τ) (id : RunId) (origin : τ) (runner : Runner κ) : Schedule κ τ :=
  { s with pending := s.pending ++ [⟨id, origin, runner⟩] }

/-- Changes every runner. -/
def mapRunners (s : Schedule κ τ) (f : Runner κ → Runner κ) : Schedule κ τ :=
  { s with pending := s.pending.map fun p => { p with runner := f p.runner } }

def size (s : Schedule κ τ) : Nat := s.pending.length

def inspect (s : Schedule κ τ) : String :=
  Text.record "Scheduler"
    [("in_flight", Text.sequence (s.pending.map fun p =>
        "(RunId(" ++ Decimal.naturalText p.id.number ++ "), " ++ p.runner.inspect ++ ")")),
      ("ticks", Decimal.naturalText s.ticks)]

/-- Polls runners in order: those that go on, and those that are finished. -/
def pollAll [Code κ] (help : String) :
    List (Suspended κ τ) → Reported (List (Suspended κ τ) × List (Finished κ τ))
  | [] => pure ([], [])
  | p :: rest => do
    let (runner, posted) ← p.runner.poll help
    let (going, finished) ← pollAll help rest
    if runner.isFinished then
      pure (going, ⟨p.id, p.origin, runner, posted.map (·.context)⟩ :: finished)
    else pure ({ p with runner } :: going, finished)

/-- Polls every runner once, the oldest first. Those that are finished leave the schedule. -/
def tick [Code κ] (s : Schedule κ τ) (help : String) :
    Reported (Schedule κ τ × List (Finished κ τ)) := do
  let (going, finished) ← pollAll help s.pending
  pure (⟨going, s.ticks + 1⟩, finished)

end Schedule
end CommandConsole
