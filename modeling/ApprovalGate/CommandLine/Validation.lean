import ApprovalGate.CommandLine.Command
import ApprovalGate.Config.Setup
/-!
# Reports on configurations

What an operator is told about a configuration file: whether it can be read, whether its values are in order, what they
come to, and what is allowed but perhaps not meant.
-/
namespace ApprovalGate.CommandLine

namespace Validation

/-- Whether an endpoint's credentials can be read on the way to it. -/
def isExposed (e : Endpoint) : Bool := Text.startsWith "http://" e.url && e.auth != .none

def endpoints (t : EndpointTable) : List (String × Endpoint) :=
  (t.default.map fun e => ("default", e)).toList ++ t.jobs

def warnings (c : Config) : List String :=
  (if c.endpoints.default.isNone ∧ c.endpoints.jobs.isEmpty then
    ["No change-control endpoints configured; submissions will fail"] else []) ++
  (if c.store.kind = .memory then ["Memory store loses pending waits on restart"] else []) ++
  (if c.wait.defaultTimeout.isNone then ["Waits without an explicit timeout never expire"] else []) ++
  ((endpoints c.endpoints).filter fun (_, e) => isExposed e).map fun (name, _) =>
    "Endpoint '" ++ name ++ "' sends credentials over plain http"

def rule (file : String) : String := "".pushn '=' (24 + Text.byteLength file)

def summary (c : Config) : List String := [
  "Gate Summary:",
  "  Listen: " ++ c.server.host ++ ":" ++ toString c.server.port,
  "  Callback base: " ++ c.publicBaseUrl,
  "  Tool ID: " ++ c.tool,
  "  Default timeout: " ++ (match c.wait.defaultTimeout with
    | some timeout => toString timeout.seconds ++ "s"
    | none => "none"),
  "  Store: " ++ c.store.kind.title,
  "  Job routes: " ++ toString c.endpoints.jobs.length]

def reportOn (file : String) (c : Config) : Ending :=
  let warnings := warnings c
  let check := match c.validate with
    | .ok () => ["✓ Configuration values are valid"]
    | .error failure => ["✗ Configuration check failed:", "  - " ++ failure.message]
  let lines := ["✓ YAML syntax is valid", ""] ++ check ++ [""] ++ summary c ++
    (warnings.flatMap fun w => ["", "⚠ WARNING: " ++ w]) ++ ["", rule file]
  match c.validate with
  | .error _ => { lines := lines ++ ["✗ Validation FAILED"], failure := some "Configuration validation failed" }
  | .ok () =>
    { lines := lines ++ [if warnings.isEmpty then "✓ Validation PASSED" else "⚠ Validation passed with warnings"] }

def report (file : String) (disk : Disk) (env : Environment) : Ending :=
  if file = "" ∨ !disk.contains (Path.ofString file) then
    { lines := [], failure := some ("Configuration file not found: " ++ file) }
  else
    let title := ["Validation Results for: " ++ file, rule file, ""]
    match Config.load file disk env with
    | .error failure =>
      { lines := title ++ ["✗ YAML PARSE ERROR:", "  " ++ failure.message], failure := some "YAML parsing failed" }
    | .ok c =>
      let rest := reportOn file c
      { rest with lines := title ++ rest.lines }

end Validation
end ApprovalGate.CommandLine
