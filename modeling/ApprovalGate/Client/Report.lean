import ApprovalGate.Wait.Codec
/-!
# Reports

What a gate's API tells its clients, as they see it.
-/
namespace ApprovalGate

structure Health where
  status : String
  service : String
deriving DecidableEq, Repr

namespace Health

def ofJson? (v : Json) : Option Health := do
  let parts ← v.parts? ["status", "service"] 2
  return {
    status := ← Json.required? Json.string? "status" parts
    service := ← Json.required? Json.string? "service" parts }

def toJson (h : Health) : Json := .obj [("status", .str h.status), ("service", .str h.service)]

end Health

structure DeliveryReport where
  status : String
  execution : Option ExecutionId
  verdict : Option Verdict
  reason : Option String
deriving DecidableEq, Repr

namespace DeliveryReport

def ofJson? (v : Json) : Option DeliveryReport := do
  let parts ← v.parts? ["status", "execution_id", "result", "reason"] 1
  return {
    status := ← Json.required? Json.string? "status" parts
    execution := ← Json.optional? ExecutionId.ofJson? "execution_id" parts
    verdict := ← Json.optional? Verdict.ofJson? "result" parts
    reason := ← Json.optional? Json.string? "reason" parts }

def isAccepted (r : DeliveryReport) : Bool := r.status == "accepted"

def toJson (r : DeliveryReport) : Json := .obj [
  ("status", .str r.status),
  ("execution_id", match r.execution with
    | none => .null
    | some e => e.toJson),
  ("result", Json.ofString? (r.verdict.map Verdict.text)),
  ("reason", Json.ofString? r.reason)]

end DeliveryReport

structure JobDecision where
  job : JobId
  tracked : Bool
  token : Option Token
  decision : Option Decision
deriving DecidableEq, Repr

namespace JobDecision

def ofJson? (v : Json) : Option JobDecision := do
  let parts ← v.parts? ["job_id", "tracked", "token", "decision"] 4
  return {
    job := ← Json.required? Json.string? "job_id" parts
    tracked := ← Json.required? Json.bool? "tracked" parts
    token := ← Json.optional? Token.ofJson? "token" parts
    decision := ← Json.optional? Decision.ofJson? "decision" parts }

def toJson (d : JobDecision) : Json := .obj [
  ("job_id", .str d.job),
  ("tracked", .bool d.tracked),
  ("token", Json.ofString? (d.token.map Token.text)),
  ("decision", Decision.optionToJson d.decision)]

end JobDecision

structure ExecutionReport where
  execution : ExecutionId
  state : String
  token : Option Token
  job : Option JobId
  updatedAt : String
deriving DecidableEq, Repr

namespace ExecutionReport

def ofJson? (v : Json) : Option ExecutionReport := do
  let parts ← v.parts? ["execution_id", "state", "token", "job_id", "updated_at"] 5
  return {
    execution := ← Json.required? ExecutionId.ofJson? "execution_id" parts
    state := ← Json.required? Json.string? "state" parts
    token := ← Json.optional? Token.ofJson? "token" parts
    job := ← Json.optional? Json.string? "job_id" parts
    updatedAt := ← Json.required? Json.string? "updated_at" parts }

def toJson (x : ExecutionReport) : Json := .obj [
  ("execution_id", x.execution.toJson),
  ("state", .str x.state),
  ("token", Json.ofString? (x.token.map Token.text)),
  ("job_id", Json.ofString? x.job),
  ("updated_at", .str x.updatedAt)]

end ExecutionReport

structure CancelReport where
  execution : ExecutionId
  tokens : List Token
deriving DecidableEq, Repr

namespace CancelReport

def ofJson? (v : Json) : Option CancelReport := do
  let parts ← v.parts? ["execution_id", "cancelled_tokens"] 2
  return {
    execution := ← Json.required? ExecutionId.ofJson? "execution_id" parts
    tokens := ← Json.required? (Json.listOf? Token.ofJson?) "cancelled_tokens" parts }

def toJson (r : CancelReport) : Json := .obj [
  ("execution_id", r.execution.toJson),
  ("cancelled_tokens", .arr (r.tokens.map Token.toJson))]

end CancelReport

def Wait.listOfJson? (v : Json) : Option (List Wait) :=
  (v.parts? ["waits"] 1).bind (Json.required? (Json.listOf? Wait.ofJson?) "waits")

end ApprovalGate
