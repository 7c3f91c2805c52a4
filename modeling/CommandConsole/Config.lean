import CommandConsole.Duration
import CommandConsole.Value.Text

/-! The settings of an engine. -/
namespace CommandConsole

structure Config where
  workerThreads : Nat := 2
  /-- How many idle collections of bindings are kept. -/
  argumentPoolCapacity : Nat := 64
  /-- How many idle runners are kept for each command. -/
  runnerPoolCapacity : Nat := 8
  /-- How long a worker may run before a warning. -/
  slowTaskThreshold : Duration := .ofSeconds 5
  /-- How many conversations may be open. At least one always may. -/
  maxConversations : Nat := 256
  logUnknownCommands : Bool := false
  deriving DecidableEq, Inhabited

namespace Config

/-- For local development: small pools, early warnings, and unknown commands logged. -/
def development : Config where
  workerThreads := 1
  argumentPoolCapacity := 16
  runnerPoolCapacity := 2
  slowTaskThreshold := .ofMilliseconds 500
  maxConversations := 16
  logUnknownCommands := true

/-- For a server with many invokers at once. -/
def headless : Config where
  workerThreads := 4
  argumentPoolCapacity := 256
  runnerPoolCapacity := 32
  slowTaskThreshold := .ofSeconds 10
  maxConversations := 4096

def inspect (c : Config) : String :=
  Text.record "EngineConfig"
    [("worker_threads", Decimal.naturalText c.workerThreads),
      ("argument_pool_capacity", Decimal.naturalText c.argumentPoolCapacity),
      ("runner_pool_capacity", Decimal.naturalText c.runnerPoolCapacity),
      ("slow_task_threshold", c.slowTaskThreshold.text),
      ("max_conversations", Decimal.naturalText c.maxConversations),
      ("log_unknown_commands", boolText c.logUnknownCommands)]

end Config
end CommandConsole
