import ApprovalGate.Json.Record
import ApprovalGate.Time.Timestamp
import ApprovalGate.Token
/-!
# Decisions

What a delivery says about a change: its verdict, with the payload it came in.  Every verdict but `pending` is final.
-/
namespace ApprovalGate

inductive Verdict where
  | approved
  | rejected
  | canceled
  | commFailure
  | pending
deriving DecidableEq, Repr, Inhabited

namespace Verdict

def isTerminal : Verdict → Bool
  | pending => false
  | _ => true

def text : Verdict → String
  | approved => "approved"
  | rejected => "rejected"
  | canceled => "canceled"
  | commFailure => "comm_failure"
  | pending => "pending"

def ofName? : String → Option Verdict
  | "approved" => some approved
  | "rejected" => some rejected
  | "canceled" => some canceled
  | "comm_failure" => some commFailure
  | "pending" => some pending
  | _ => none

/-- The words for each verdict, as they read after trimming, in lower case and with underscores. -/
def words : Verdict → List String
  | approved => ["approved", "approve", "accepted", "accept"]
  | rejected => ["rejected", "reject", "denied"]
  | canceled => ["canceled", "cancelled", "cancel"]
  | commFailure => ["comm_failure", "communication_failure", "commfailure"]
  | pending => ["pending", "requested", "in_progress"]

/-- Hyphens and blanks become underscores, capitals small letters. -/
def normalize (s : String) : String :=
  String.ofList ((Text.trim s).toList.map fun c => if c = '-' ∨ c = ' ' then '_' else c.toLower)

/-- Reads any of the words, whatever its case and its separators. -/
def read? (s : String) : Option Verdict :=
  [approved, rejected, canceled, commFailure, pending].find? fun v => v.words.contains (normalize s)

def unknownMessage (s : String) : String := "unknown decision result '" ++ s ++ "'"

def ofJson? (v : Json) : Option Verdict := v.choice?.bind ofName?

end Verdict

structure Decision where
  token : Token
  payload : Json
  verdict : Verdict
  comments : Option String
  receivedAt : Instant
deriving DecidableEq, Repr

namespace Token

def toJson (t : Token) : Json := .str t.text

def ofJson? (v : Json) : Option Token := v.string?.bind parse?

end Token

namespace Instant

def toJson (t : Instant) : Json := .str t.write

def ofJson? (v : Json) : Option Instant := v.string?.bind read?

def optionToJson : Option Instant → Json
  | none => .null
  | some t => t.toJson

end Instant

namespace ExecutionId

def toJson (e : ExecutionId) : Json := .str e.uuid.text

def ofJson? (v : Json) : Option ExecutionId := (v.string?.bind Uuid.read?).map ExecutionId.mk

end ExecutionId

namespace Decision

def toJson (d : Decision) : Json := .obj [
  ("token", d.token.toJson),
  ("raw_payload", d.payload),
  ("result", .str d.verdict.text),
  ("comments", Json.ofString? d.comments),
  ("received_at", d.receivedAt.toJson)]

def optionToJson : Option Decision → Json
  | none => .null
  | some d => d.toJson

def names : List String := ["token", "raw_payload", "result", "comments", "received_at"]

def ofJson? (v : Json) : Option Decision := do
  let parts ← v.parts? names 5
  return {
    token := ← Json.required? Token.ofJson? "token" parts
    payload := (← Json.required? some "raw_payload" parts).normal
    verdict := ← Json.required? Verdict.ofJson? "result" parts
    comments := ← Json.optional? Json.string? "comments" parts
    receivedAt := ← Json.required? Instant.ofJson? "received_at" parts }

end Decision
end ApprovalGate
