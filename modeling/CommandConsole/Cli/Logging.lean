import CommandConsole.Event

/-! What the program takes from the library that it logs with. -/
namespace CommandConsole.Cli

/-- A log: the line that it gets of an event, if the event is worth one. -/
abbrev Log := Event → Option String

structure Logging where
  /-- Reads the filter that the arguments ask for, or says what is wrong with it. -/
  read : String → Except String Log
  /-- What is logged if the arguments ask for nothing, by the environment. -/
  standard : Log

/-- What is seen of a note from outside the program. What handlers say is output; the lines of the
log are among the errors. -/
def Log.seen (log : Log) : Note → Option Note
  | .event e => (log e).map .errors
  | .said text => some (.output (text ++ "\n"))
  | note => some note

end CommandConsole.Cli
