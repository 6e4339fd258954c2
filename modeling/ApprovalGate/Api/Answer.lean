import ApprovalGate.Api.Request
import ApprovalGate.Api.Response
import ApprovalGate.Api.Route
import ApprovalGate.Callback.Receiver
import ApprovalGate.Gate.Attach
/-!
# Answering requests

The answer of a gate to a request, and the gate afterwards.  Only a delivery and a cancellation change anything.
-/
namespace ApprovalGate

/-- What a job is waiting for: whether it is tracked, its current token and the decision there. -/
def Registry.jobJson (g : Registry) (job : JobId) : List (String × Json) :=
  [("tracked", .bool (g.isTracked job)),
   ("token", Json.ofString? ((g.jobToken? job).map Token.text)),
   ("decision", Decision.optionToJson (g.jobDecision? job))]

namespace Api

def serviceName : String := "changegate"

def healthJson : Json := .obj [("status", .str "healthy"), ("service", .str serviceName)]

def statusJson (g : Gate) (uptime : Nat) : Json := .obj
  [("status", .str "running"),
   ("service", .str serviceName),
   ("uptime_seconds", .int uptime),
   ("registry", .obj [("records", .int g.registry.size), ("pending", .int g.registry.pendingCount)]),
   ("executions", .obj [("waiting", .int g.waitingCount)])]

def waitsJson (g : Gate) : Json :=
  let waits := g.registry.pending
  .obj [("count", .int waits.length), ("waits", .arr (waits.map Wait.toJson))]

def deliver (g : Gate) (address : String) (r : Request) (now : Instant) : Response × Gate :=
  match r.readBody Callback.maxBody with
  | .error problem => (.ofProblem problem, g)
  | .ok body =>
    let (receipt, g) := g.receive address body r.contentText? now
    (.ofJson receipt.status receipt.toJson, g)

def inspect (g : Gate) (address : String) : Response :=
  match Token.parse address with
  | .error failure => .ofProblem (.ofFailure failure)
  | .ok t => match g.registry.get? t with
    | some r => .ok r.toJson
    | none => .ofProblem (.ofFailure (.unknownToken t.text))

def executionId (name : String) : Except Problem ExecutionId :=
  match ExecutionId.parse? name with
  | some e => .ok e
  | none => .error (.badRequest Problem.requestCode ("Invalid execution ID '" ++ name ++ "'"))

def execution (g : Gate) (name : String) : Response :=
  match executionId name with
  | .error problem => .ofProblem problem
  | .ok e => match g.execution? e with
    | some x => .ok x.toJson
    | none => .ofProblem (.ofFailure (.executionNotFound e))

def cancelJson (e : ExecutionId) (tokens : List Token) : Json :=
  .obj [("execution_id", e.toJson), ("cancelled_tokens", .arr (tokens.map Token.toJson))]

def cancel (g : Gate) (name : String) (now : Instant) : Response × Gate :=
  match executionId name with
  | .error problem => (.ofProblem problem, g)
  | .ok e => match g.cancelExecution e "cancelled via API" now with
    | (.error failure, g) => (.ofProblem (.ofFailure failure), g)
    | (.ok tokens, g) => (.okValue (cancelJson e tokens), g)

def answerOn (g : Gate) (route : Route) (r : Request) (now : Instant) (uptime : Nat) : Response × Gate :=
  if !route.methods.contains r.method then (.wrongMethod route.methods, g)
  else match route with
    | .health => (.okValue healthJson, g)
    | .status => (.okValue (statusJson g uptime), g)
    | .waits => (.okValue (waitsJson g), g)
    | .callback address => if r.method = "POST" then deliver g address r now else (inspect g address, g)
    | .jobDecision job => (.okValue (.obj (("job_id", .str job) :: g.registry.jobJson job)), g)
    | .execution name => if r.method = "DELETE" then cancel g name now else (execution g name, g)

/-- The answer to a request, `uptime` seconds after the service was started. -/
def answer (g : Gate) (r : Request) (now : Instant) (uptime : Nat) : Response × Gate :=
  match Route.ofPath? r.path with
  | none => (.notFound, g)
  | some route => answerOn g route r now uptime

end Api
end ApprovalGate
