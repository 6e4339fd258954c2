import ApprovalGate.CommandLine.Arguments
/-!
# Commands

What the program can be told to do, and the arguments that say so.  How much it logs is said before the command.
-/
namespace ApprovalGate.CommandLine

inductive Command where
  | serve (config host : Option String) (port : Option Nat)
  | validate (config : String)
  | waits (server : String)
  | deliver (token result : String) (comments : Option String) (server : String)
  | cancel (execution server : String)
  | version
deriving DecidableEq, Repr

namespace Command

def program : String := "changegate"

def defaultServer : String := "http://localhost:8080"

def serverSetting : Setting :=
  { long := "server", short := 's', about := "Server base URL", default := some defaultServer }

def configSetting (required : Bool) : Setting :=
  { long := "config", short := 'c', about := "Path to the YAML configuration file", required }

def shapes : List Shape := [
  { name := "serve", about := "Start the gate: callback API plus timeout processor"
    settings := [configSetting false,
      { long := "host", short := 'H', about := "Host to bind to (overrides the configuration)" },
      { long := "port", short := 'p', about := "Port to listen on (overrides the configuration)", isPort := true }] },
  { name := "validate", about := "Validate a configuration file", settings := [configSetting true] },
  { name := "waits", about := "List pending waits on a running server", settings := [serverSetting] },
  { name := "deliver", about := "Deliver a decision for a token, as the change-control system would"
    operands := [("TOKEN", "Correlation token")]
    settings := [
      { long := "result", short := 'r', about := "Decision (approved, rejected, canceled, comm_failure, pending)"
        required := true },
      { long := "comments", short := 'c', about := "Optional comments" }, serverSetting] },
  { name := "cancel", about := "Cancel an execution's pending waits", operands := [("EXECUTION_ID", "Execution ID")]
    settings := [serverSetting] },
  { name := "version", about := "Show version information" }]

def ofGiven? (name : String) (g : Given) : Option Command :=
  let value? := fun setting : String => g.values.lookup setting
  let server := (value? "server").getD defaultServer
  match name, g.operands with
  | "serve", [] => some (serve (value? "config") (value? "host") ((value? "port").bind readPort?))
  | "validate", [] => (value? "config").map validate
  | "waits", [] => some (waits server)
  | "deliver", [token] => (value? "result").map fun result => deliver token result (value? "comments") server
  | "cancel", [execution] => some (cancel execution server)
  | "version", [] => some version
  | _, _ => none

/-- Reads the flags in one argument: how much is logged, or a wish for help or for the version. -/
def readFlags : (verbosity : Nat) → List Char → Except Refusal Nat
  | n, [] => .ok n
  | n, 'v' :: cs => readFlags (n + 1) cs
  | _, 'h' :: _ => .error (.help none)
  | _, 'V' :: _ => .error .version
  | _, _ :: _ => .error .usage

def helpOn (topics : List String) : Refusal :=
  match topics with
  | [] | ["help"] => .help none
  | [name] => match shapes.find? fun s => s.name == name with
    | some s => .help (some s)
    | none => .usage
  | _ => .usage

def readFrom : (verbosity : Nat) → List String → Except Refusal (Nat × Command)
  | _, [] => .error .usage
  | n, a :: rest =>
    match Word.ofString a with
    | .hyphens => .error .usage
    | .long "verbose" none => readFrom (n + 1) rest
    | .long "help" none => .error (.help none)
    | .long "version" none => .error .version
    | .long _ _ => .error .usage
    | .short letter cs => (readFlags n (letter :: cs)).bind fun n => readFrom n rest
    | .plain "help" => .error (helpOn rest)
    | .plain name =>
      match shapes.find? fun s => s.name == name with
      | none => .error .usage
      | some shape => (shape.read rest).bind fun g =>
        match ofGiven? name g with
        | some c => .ok (n, c)
        | none => .error .usage

def read (args : List String) : Except Refusal (Nat × Command) := readFrom 0 args

def help : List String :=
  ["changegate - suspend pipeline executions until a change is approved", "",
    "Usage: " ++ program ++ " [OPTIONS] <COMMAND>", "", "Commands:"] ++
  Shape.columns ((shapes.map fun s => (s.name, s.about)) ++
    [("help", "Print this message or the help of the given subcommand(s)")]) ++
  ["", "Options:"] ++
  Shape.columns [("-v, --verbose...", "Increase verbosity (-v, -vv, -vvv)"), Shape.helpEntry,
    ("-V, --version", "Print version")]

end Command

/-! ## How the program ends -/

structure Ending where
  lines : List String
  failure : Option String := none
deriving DecidableEq, Repr

def Ending.failed (reason : String) : Ending := { lines := [], failure := some reason }

def Ending.status (e : Ending) : Nat := if e.failure.isSome then 1 else 0

def versionText : String := "0.1.0"

namespace Refusal

def status : Refusal → Nat
  | help _ | version => 0
  | usage => 2

def lines : Refusal → List String
  | help none => Command.help
  | help (some shape) => shape.help Command.program
  | version => [Command.program ++ " " ++ versionText]
  | usage => []

end Refusal
end ApprovalGate.CommandLine
