import ApprovalGate.Config.Basic
import ApprovalGate.Http
import ApprovalGate.Submission.Request
/-!
# Checking configurations

What a configuration must satisfy before a gate is set up with it.  The first setting that does not is the answer.
-/
namespace ApprovalGate.Config

def require (met : Bool) (setting cause : String) : Outcome Unit :=
  if met then .ok () else .error (.configValue setting cause)

def checkEndpoint (setting : String) (e : Endpoint) : Outcome Unit :=
  require (Http.isUrl e.url) setting ("endpoint URL '" ++ e.url ++ "' must be an http(s) URL")

def checkJobs : List (String × Endpoint) → Outcome Unit
  | [] => .ok ()
  | (p, e) :: jobs => do
    checkEndpoint ("endpoints.jobs." ++ p) e
    checkJobs jobs

def maxTimeoutSecs : Nat := ChangeRequest.maxTimeout.seconds

def isStorePlaced (s : StoreSettings) : Bool := s.kind != .file || s.path.isSome

def storeUnplaced : Failure := .configValue "store.path" "required when store.kind is 'file'"

def validate (c : Config) : Outcome Unit := do
  require (Http.isUrl c.publicBaseUrl) "public_base_url" ("'" ++ c.publicBaseUrl ++ "' must be an http(s) URL")
  require (!Text.blank c.tool) "tool_id" "must not be empty"
  require (c.wait.defaultTimeoutSecs ≤ maxTimeoutSecs) "wait.default_timeout_secs"
    ("must not exceed " ++ toString maxTimeoutSecs)
  require (0 < c.wait.checkIntervalMillis) "wait.check_interval_ms" "must be positive"
  if !isStorePlaced c.store then throw storeUnplaced
  match c.endpoints.default with
  | some e => checkEndpoint "endpoints.default" e
  | none => pure ()
  checkJobs c.endpoints.jobs

end ApprovalGate.Config
