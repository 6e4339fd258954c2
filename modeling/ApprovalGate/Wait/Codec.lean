import ApprovalGate.Wait.Basic
/-!
# Waits in JSON

The members of a wait and of its record, in their order.  The members of a record are those of its wait and what came
of it in one object; an alias is left out when there is none.
-/
namespace ApprovalGate

namespace Wait

def members (w : Wait) : List (String × Json) :=
  [("token", w.token.toJson),
   ("execution_id", w.execution.toJson),
   ("job_id", Json.ofString? w.job),
   ("created_at", w.createdAt.toJson),
   ("expires_at", Instant.optionToJson w.expiresAt),
   ("status", .str w.status.text),
   ("metadata", w.metadata)] ++
  match w.aliasToken with
  | none => []
  | some a => [("alias", a.toJson)]

def toJson (w : Wait) : Json := .obj w.members

def names : List String :=
  ["token", "execution_id", "job_id", "created_at", "expires_at", "status", "metadata", "alias"]

/-- Reads a wait from its members, the status among them in its own way. -/
def ofParts? (readStatus : Json → Option WaitStatus) (parts : List (String × Json)) : Option Wait := do
  return {
    token := ← Json.required? Token.ofJson? "token" parts
    execution := ← Json.required? ExecutionId.ofJson? "execution_id" parts
    job := ← Json.optional? Json.string? "job_id" parts
    createdAt := ← Json.required? Instant.ofJson? "created_at" parts
    expiresAt := ← Json.optional? Instant.ofJson? "expires_at" parts
    status := ← Json.required? readStatus "status" parts
    metadata := (← Json.required? some "metadata" parts).normal
    aliasToken := ← Json.optional? Token.ofJson? "alias" parts }

/-- Reads a wait from an object, or from an array of all its parts with or without the alias. -/
def ofJson? (v : Json) : Option Wait := (v.parts? names 7).bind (ofParts? WaitStatus.ofJson?)

end Wait

namespace WaitRecord

def toJson (r : WaitRecord) : Json := .obj (r.wait.members ++
  [("decision", Decision.optionToJson r.decision),
   ("decision_delivered", .bool r.delivered),
   ("last_update", Decision.optionToJson r.lastUpdate),
   ("finished_at", Instant.optionToJson r.finishedAt)])

def optionToJson : Option WaitRecord → Json
  | none => .null
  | some r => r.toJson

def names : List String := Wait.names ++ ["decision", "decision_delivered", "last_update", "finished_at"]

/-- Reads the status in a record, where a choice may also have an empty object for `null`. -/
def readStatus? : Json → Option WaitStatus
  | .obj [(name, .obj [])] => WaitStatus.ofName? name
  | v => WaitStatus.ofJson? v

def ofJson? (v : Json) : Option WaitRecord := do
  let parts ← v.members? names
  return {
    wait := ← Wait.ofParts? readStatus? parts
    decision := ← Json.optional? Decision.ofJson? "decision" parts
    delivered := ← Json.defaulted? Json.bool? false "decision_delivered" parts
    lastUpdate := ← Json.optional? Decision.ofJson? "last_update" parts
    finishedAt := ← Json.optional? Instant.ofJson? "finished_at" parts }

end WaitRecord
end ApprovalGate
