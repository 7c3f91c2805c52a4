/-! The options of the command line. -/
namespace CommandConsole.Cli

structure Options where
  scripts : List String := []
  batch : Bool := false
  help : Bool := false
  version : Bool := false
  log : Option String := none
  invoker : Option String := none
  development : Bool := false
  deriving DecidableEq

inductive OptionProblem where
  | noValue (flag : String)
  | unknown (flag : String)
  deriving DecidableEq

def OptionProblem.message : OptionProblem → String
  | .noValue flag => flag ++ " requires a value"
  | .unknown flag => "unknown option: " ++ flag

/-- Reads arguments into options. Of a value given twice the last counts; what is no option is a
script. -/
def Options.parse : Options → List String → Except OptionProblem Options
  | o, [] => .ok o
  | o, "-h" :: r => { o with help := true }.parse r
  | o, "--help" :: r => { o with help := true }.parse r
  | o, "-V" :: r => { o with version := true }.parse r
  | o, "--version" :: r => { o with version := true }.parse r
  | o, "-b" :: r => { o with batch := true }.parse r
  | o, "--batch" :: r => { o with batch := true }.parse r
  | o, "--dev" :: r => { o with development := true }.parse r
  | o, "--log" :: v :: r => { o with log := some v }.parse r
  | o, "--name" :: v :: r => { o with invoker := some v }.parse r
  | _, ["--log"] => .error (.noValue "--log")
  | _, ["--name"] => .error (.noValue "--name")
  | o, a :: r =>
    if a.startsWith "-" then .error (.unknown a)
    else { o with scripts := o.scripts ++ [a] }.parse r

def helpText : String :=
  "\x1b[1mParley\x1b[0m - Command console

\x1b[1mUSAGE:\x1b[0m
    parley [OPTIONS] [SCRIPTS...]

\x1b[1mARGUMENTS:\x1b[0m
    [SCRIPTS...]    Files of command lines to run before the console starts

\x1b[1mOPTIONS:\x1b[0m
    -h, --help         Print help information
    -V, --version      Print version information
    -b, --batch        Run scripts and exit (no console)
    --log FILTER       Log filter, e.g. debug or parley_runtime=trace
    --name NAME        Invoker name (default: console)
    --dev              Use the development engine configuration

\x1b[1mEXAMPLES:\x1b[0m
    parley                          Start the console
    parley -b setup.txt             Run setup.txt and exit
    parley --log debug              Show dispatch and binding logs

\x1b[1mCONSOLE:\x1b[0m
    help                 List commands
    Ctrl+C               Cancel input or an open conversation
    Ctrl+D               Exit
"

def versionText : String := "parley 0.1.0\n"

end CommandConsole.Cli
