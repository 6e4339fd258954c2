import ApprovalGate.Failure
import ApprovalGate.Json.Record
import ApprovalGate.Text.Split
import ApprovalGate.Time.Span
import ApprovalGate.Wait.Basic
/-!
# Change requests

What a pipeline asks the change-control system to approve, when a request is in order, and the payload that is sent for
it.  The payload's own fields stand over attributes of the same name.
-/
namespace ApprovalGate

structure ChangeRequest where
  job : JobId
  buildNumber : String
  shortDescription : String
  description : Option String
  changeType : Option String
  /-- Further fields, in ascending order of their names. -/
  attributes : List (String × Json)
  timeout : Option Span
deriving DecidableEq, Repr

namespace ChangeRequest

def changeTypes : List String := ["normal", "standard", "emergency"]

def maxTimeout : Span := .ofSeconds 3153600000

/-- A kind of change without blanks around it and in small letters. -/
def normalizeType (s : String) : String := (Text.trim s).map Char.toLower

def require (field value : String) : Outcome Unit :=
  if Text.blank value then .error (.validation field "required field is empty") else .ok ()

def checkTimeout : Option Span → Outcome Unit
  | some t =>
    if maxTimeout < t then
      .error (.validation "timeout" (toString t.seconds ++ "s exceeds the maximum of 3153600000s"))
    else .ok ()
  | none => .ok ()

def checkType : Option String → Outcome Unit
  | some s =>
    if changeTypes.contains (normalizeType s) then .ok ()
    else .error (.validation "change_type" ("'" ++ s ++ "' is not one of normal, standard, emergency"))
  | none => .ok ()

/-- Whether the request is in order; the first thing wrong with it is the answer. -/
def validate (r : ChangeRequest) : Outcome Unit := do
  require "job_id" r.job
  require "build_number" r.buildNumber
  require "short_description" r.shortDescription
  checkTimeout r.timeout
  checkType r.changeType

/-- The fields that the request puts over its attributes, in the order in which they are put. -/
def ownFields (r : ChangeRequest) (tool callback : String) : List (String × Json) :=
  [("tool_id", .str tool), ("job_id", .str r.job), ("build_number", .str r.buildNumber),
   ("short_description", .str r.shortDescription)] ++
  (match r.description with
   | some s => [("description", .str s)]
   | none => []) ++
  (match r.changeType with
   | some s => [("change_type", .str (normalizeType s))]
   | none => []) ++
  [("callback_url", .str callback)]

def toPayload (r : ChangeRequest) (tool callback : String) : Json :=
  .obj (Ordered.putAll (r.ownFields tool callback) r.attributes)

def toJson (r : ChangeRequest) : Json := .obj [
  ("job_id", .str r.job),
  ("build_number", .str r.buildNumber),
  ("short_description", .str r.shortDescription),
  ("description", Json.ofString? r.description),
  ("change_type", Json.ofString? r.changeType),
  ("attributes", .obj r.attributes)]

def names : List String :=
  ["job_id", "build_number", "short_description", "description", "change_type", "attributes"]

/-- Reads a request without a timeout, from an object or from an array of at least the three texts it must have. -/
def ofJson? (v : Json) : Option ChangeRequest := do
  let parts ← v.parts? names 3
  let attributes ← match Json.lookup "attributes" parts with
    | none => some []
    | some v => match v.normal with
      | .obj members => some members
      | _ => none
  return {
    job := ← Json.required? Json.string? "job_id" parts
    buildNumber := ← Json.required? Json.string? "build_number" parts
    shortDescription := ← Json.required? Json.string? "short_description" parts
    description := ← Json.optional? Json.string? "description" parts
    changeType := ← Json.optional? Json.string? "change_type" parts
    attributes
    timeout := none }

end ChangeRequest
end ApprovalGate
