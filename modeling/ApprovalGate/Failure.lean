import ApprovalGate.Uuid
/-!
# Failures

Everything that can go wrong, by cause.  Each cause has a code of its own and a message that starts with the code;
the codes of one family share their first digit.
-/
namespace ApprovalGate

inductive Failure where
  | duplicateToken (token : String)
  | invalidToken (token cause : String)
  | validation (field cause : String)
  | submissionFailed (job cause : String)
  | submissionRejected (job message : String)
  | authentication (endpoint cause : String)
  | endpointNotConfigured (job : String)
  | malformedPayload (token cause : String)
  | unknownToken (token : String)
  | duplicateDelivery (token : String)
  | cancelled (execution : ExecutionId) (reason : String)
  | executionNotFound (execution : ExecutionId)
  | waitAbandoned (token : String)
  | store (path cause : String)
  | serialization (cause : String)
  | configValue (field cause : String)
  | yamlParse (path cause : String)
  | io (path cause : String)
  | network (cause : String)
deriving DecidableEq, Repr, Inhabited

namespace Failure

def code : Failure → String
  | duplicateToken _ => "E101"
  | invalidToken _ _ => "E102"
  | validation _ _ => "E201"
  | submissionFailed _ _ => "E202"
  | submissionRejected _ _ => "E203"
  | authentication _ _ => "E204"
  | endpointNotConfigured _ => "E205"
  | malformedPayload _ _ => "E301"
  | unknownToken _ => "E302"
  | duplicateDelivery _ => "E303"
  | cancelled _ _ => "E401"
  | executionNotFound _ => "E402"
  | waitAbandoned _ => "E403"
  | store _ _ => "E501"
  | serialization _ => "E502"
  | configValue _ _ => "E801"
  | yamlParse _ _ => "E802"
  | io _ _ => "E901"
  | network _ => "E902"

def description : Failure → String
  | duplicateToken t => "Token '" ++ t ++ "' already has a pending wait"
  | invalidToken t cause => "Invalid token '" ++ t ++ "': " ++ cause
  | validation field cause => "Invalid change request field '" ++ field ++ "': " ++ cause
  | submissionFailed job cause => "Submission failed for job '" ++ job ++ "': " ++ cause
  | submissionRejected job message => "Submission rejected for job '" ++ job ++ "': " ++ message
  | authentication endpoint cause => "Authentication failed against " ++ endpoint ++ ": " ++ cause
  | endpointNotConfigured job => "No change-control endpoint configured for job '" ++ job ++ "'"
  | malformedPayload t cause => "Malformed callback payload for token '" ++ t ++ "': " ++ cause
  | unknownToken t => "Unknown token '" ++ t ++ "'"
  | duplicateDelivery t => "Duplicate delivery for token '" ++ t ++ "'"
  | cancelled e reason => "Execution " ++ e.text ++ " cancelled: " ++ reason
  | executionNotFound e => "Execution " ++ e.text ++ " not found"
  | waitAbandoned t => "Wait for token '" ++ t ++ "' abandoned"
  | store path cause => "Registry store error at " ++ path ++ ": " ++ cause
  | serialization cause => "Serialization error: " ++ cause
  | configValue field cause => "Invalid configuration '" ++ field ++ "': " ++ cause
  | yamlParse path cause => "Failed to parse YAML at " ++ path ++ ": " ++ cause
  | io path cause => "I/O error at " ++ path ++ ": " ++ cause
  | network cause => "Network error: " ++ cause

def message (f : Failure) : String := f.code ++ ": " ++ f.description

def isSubmission : Failure → Bool
  | validation _ _ | submissionFailed _ _ | submissionRejected _ _ | authentication _ _ | endpointNotConfigured _ =>
    true
  | _ => false

end Failure

abbrev Outcome (α : Type) := Except Failure α

end ApprovalGate
