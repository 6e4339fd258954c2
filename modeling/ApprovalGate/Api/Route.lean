import ApprovalGate.Text.Percent
import ApprovalGate.Text.Split
/-!
# Routes

Where the paths of the API lead, and with which methods.  A path leads to one route at most, whatever the method.
-/
namespace ApprovalGate.Api

inductive Route where
  | health
  | status
  | waits
  | callback (address : String)
  | jobDecision (job : String)
  | execution (name : String)
deriving DecidableEq, Repr

namespace Route

def root : List Char := "/api/v1".toList

def segment? (cs : List Char) : Option String :=
  if cs.isEmpty ∨ cs.contains '/' then none else some (String.ofList cs)

def before? (ending cs : List Char) : Option (List Char) := (Text.after? ending.reverse cs.reverse).map List.reverse

/-- A job's name, which may contain slashes, between its collection and its decision. -/
def job? (cs : List Char) : Option String :=
  match before? "/decision".toList cs with
  | none | some [] => none
  | some name => Text.Percent.decodeChars? name

def ofRest? (cs : List Char) : Option Route :=
  if cs = "/health".toList then some health
  else if cs = "/status".toList then some status
  else if cs = "/waits".toList then some waits
  else match Text.after? "/callbacks/".toList cs with
    | some rest => (segment? rest).map callback
    | none => match Text.after? "/jobs/".toList cs with
      | some rest => (job? rest).map jobDecision
      | none => match Text.after? "/executions/".toList cs with
        | some rest => (segment? rest).map execution
        | none => none

def ofPath? (path : List Char) : Option Route := (Text.after? root path).bind ofRest?

def methods : Route → List String
  | health | status | waits | jobDecision _ => ["GET"]
  | callback _ => ["GET", "POST"]
  | execution _ => ["GET", "DELETE"]

end Route
end ApprovalGate.Api
