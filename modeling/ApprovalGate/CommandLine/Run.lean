import ApprovalGate.Client.Basic
import ApprovalGate.CommandLine.Command
import ApprovalGate.CommandLine.Validation
/-!
# Running commands

What each command prints, over the files of the working directory, the environment and a network.
-/
namespace ApprovalGate.CommandLine

def versionLines : List String := [
  "changegate - Change-approval gate for CI pipelines", "",
  "Version:     " ++ versionText, "",
  "Components:",
  "  changegate-core      Tokens, decisions, correlation registry",
  "  changegate-executor  Issuer, orchestrator, callback API, timeouts",
  "  changegate-client    HTTP transport and API client",
  "  changegate-cli       Command-line interface"]

/-! ## Starting a gate -/

/-- The configuration that a gate is to be started with: that of a file or the default one, then the environment, then
what was said on the command line. -/
def serveConfig (config host : Option String) (port : Option Nat) (disk : Disk) (env : Environment) :
    Except String Config := do
  let c ← match config with
    | some path => (Config.load path disk env).mapError fun _ => "Failed to load configuration from " ++ path
    | none =>
      let (result, c) := ({} : Config).withEnvironment env
      (result.map fun () => c).mapError Failure.message
  let c := match host with
    | some host => c.withHost host
    | none => c
  let c := match port with
    | some port => c.withPort port
    | none => c
  c.validate.mapError fun _ => "Invalid configuration"
  return c

def prepare (config host : Option String) (port : Option Nat) (disk : Disk) (env : Environment) :
    Except String (Config × Gate) := do
  let c ← serveConfig config host port disk env
  let store ← (c.openStore disk).mapError fun _ => "Failed to open registry store"
  let gate ← (c.openGate store).mapError fun _ => "Failed to load registry"
  return (c, gate)

def startLines (c : Config) : List String :=
  let base := "http://" ++ c.server.host ++ ":" ++ toString c.server.port
  ["Starting changegate...", "",
    "Server: " ++ base,
    "Callbacks: " ++ c.publicBaseUrl ++ "/api/v1/callbacks/<token>", "",
    "Endpoints:",
    "  POST " ++ base ++ "/api/v1/callbacks/<token>  - Deliver a decision",
    "  GET  " ++ base ++ "/api/v1/waits              - List pending waits",
    "  GET  " ++ base ++ "/api/v1/health             - Health check", "",
    "Press Ctrl+C to stop.", ""]

/-- Starts a gate, which ends at once for want of a listener. -/
def serve (config host : Option String) (port : Option Nat) (disk : Disk) (env : Environment) : Ending :=
  match prepare config host port disk env with
  | .error reason => .failed reason
  | .ok (c, _) => { lines := startLines c, failure := some "Server stopped" }

/-! ## Asking a server -/

section
variable {m : Type → Type} [Monad m]

def askServer {α : Type} (network : Http.Network m) (server context : String) (call : Client.Call α)
    (lines : α → List String) : m Ending := do
  match Client.ofUrl server with
  | .error fault => return .failed fault.message
  | .ok client => match ← client.ask network call with
    | .ok a => return { lines := lines a }
    | .error _ => return .failed context

def padded (width : Nat) (s : String) : String := s ++ "".pushn ' ' (width - s.length)

def waitLine (token execution job expires : String) : String :=
  padded 40 token ++ " " ++ padded 44 execution ++ " " ++ padded 24 job ++ " " ++ expires

/-- A time with an offset of zero instead of the mark for it. -/
def offsetText (t : Instant) : String :=
  match Text.stripSuffix? "Z" t.write with
  | some s => s ++ "+00:00"
  | none => t.write

def waitsLines (ws : List Wait) : List String :=
  ["Pending Waits", "=============", ""] ++
  if ws.isEmpty then ["(no pending waits)"]
  else [waitLine "TOKEN" "EXECUTION" "JOB" "EXPIRES"] ++
    (ws.map fun w => waitLine w.token.text w.execution.text (w.job.getD "-")
      ((w.expiresAt.map offsetText).getD "never")) ++
    ["", toString ws.length ++ " pending"]

def deliveryLines (token : String) (verdict : Verdict) (r : DeliveryReport) : List String :=
  if r.isAccepted then ["✓ Decision '" ++ verdict.text ++ "' accepted for " ++ token]
  else ["⚠ Delivery " ++ r.status ++ ": " ++ r.reason.getD ""]

def cancelLines (r : CancelReport) : List String :=
  if r.tokens.isEmpty then ["No pending waits for " ++ r.execution.text]
  else ("✓ Cancelled " ++ toString r.tokens.length ++ " wait(s) for " ++ r.execution.text) ::
    r.tokens.map fun t => "  - " ++ t.text

def deliveryBody (verdict : Verdict) (comments : Option String) : Json := .obj (
  (match comments with
    | some s => [("comments", .str s)]
    | none => []) ++ [("result", .str verdict.text)])

def deliver (network : Http.Network m) (token result : String) (comments : Option String) (server : String) :
    m Ending :=
  match Verdict.read? result with
  | none => return .failed (Verdict.unknownMessage result)
  | some verdict => askServer network server ("Failed to deliver decision for " ++ token)
      (.deliver token (deliveryBody verdict comments)) (deliveryLines token verdict)

def cancel (network : Http.Network m) (execution server : String) : m Ending :=
  match ExecutionId.parse? execution with
  | none => return .failed ("Invalid execution ID: " ++ execution)
  | some e => askServer network server ("Failed to cancel " ++ e.text) (.cancel e) cancelLines

def Command.run (network : Http.Network m) (disk : Disk) (env : Environment) : Command → m Ending
  | .serve config host port => return CommandLine.serve config host port disk env
  | .validate config => return Validation.report config disk env
  | .waits server => askServer network server ("Failed to list waits on " ++ server) .waits waitsLines
  | .deliver token result comments server => CommandLine.deliver network token result comments server
  | .cancel execution server => CommandLine.cancel network execution server
  | .version => return { lines := versionLines }

end

end ApprovalGate.CommandLine
