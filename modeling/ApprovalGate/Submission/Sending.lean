import ApprovalGate.Endpoint.Table
import ApprovalGate.Http
import ApprovalGate.Json.Printer
import ApprovalGate.Registry.Change
import ApprovalGate.Submission.Request
/-!
# Submitting change requests

A submission has two halves with the exchange between them.  The first checks the request and writes what is sent; the
second reads the answer and registers the wait.  The advertised callback address carries a token of our own; when the
other side answers with a token of its own, ours becomes its alias.  In between the payload is carried to its endpoint,
with the endpoint's credentials.
-/
namespace ApprovalGate

structure Reply where
  status : Nat
  body : Json
deriving DecidableEq, Repr

namespace Reply

def isSuccess (r : Reply) : Bool := 200 ≤ r.status && r.status < 300

def isAuthFailure (r : Reply) : Bool := r.status == 401 || r.status == 403

def statusText (r : Reply) : String := "HTTP " ++ toString r.status

/-- The text in one field of an error body: the field itself, or the message of an object there. -/
def messageAt? (field : String) (body : Json) : Option String :=
  match body.member? field with
  | some (.str s) => some s
  | some v => (v.member? "message").bind Json.string?
  | none => none

def message? (r : Reply) : Option String := ["message", "error", "detail"].findSome? fun f => messageAt? f r.body

/-- Whether the body says that the request was refused, whatever the status. -/
def refuses (r : Reply) : Bool :=
  match r.body.member? "status" with
  | some (.str s) => s.map Char.toLower == "error"
  | _ => false

/-- The first text under the names of a token, if it is not empty. -/
def token? (r : Reply) : Option String :=
  (["token", "callback_token"].findSome? fun f => (r.body.member? f).bind Json.string?).filter fun s => s ≠ ""

end Reply

structure Issuer where
  endpoints : EndpointTable
  baseUrl : String
  tool : String
  defaultTimeout : Option Span
deriving DecidableEq, Repr, Inhabited

structure Draft where
  request : ChangeRequest
  endpoint : Endpoint
  token : Token
  callbackUrl : String
  timeout : Option Span
  payload : Json
deriving DecidableEq, Repr

structure Submission where
  token : Token
  callbackUrl : String
  timeout : Option Span
  response : Json
  superseded : Superseded
deriving DecidableEq, Repr

namespace Issuer

def callbackPath : String := "/api/v1/callbacks"

def callbackUrl (i : Issuer) (t : Token) : String :=
  Text.trimEndOf '/' i.baseUrl ++ callbackPath ++ "/" ++ t.text

/-- The first half: a request in order, for which there is an endpoint, is given a fresh token and written out. -/
def draft (i : Issuer) (r : ChangeRequest) (random : Uuid) : Outcome Draft := do
  r.validate
  let timeout := r.timeout <|> i.defaultTimeout
  ChangeRequest.checkTimeout timeout
  let endpoint ← i.endpoints.resolve r.job
  let token := Token.mint i.tool r.job random
  let callbackUrl := i.callbackUrl token
  return { request := r, endpoint, token, callbackUrl, timeout, payload := r.toPayload i.tool callbackUrl }

/-- The body of an answer that accepts the submission. -/
def accepted (d : Draft) (reply : Reply) : Outcome Json :=
  if reply.isAuthFailure then .error (.authentication d.endpoint.url reply.statusText)
  else if reply.refuses then .error (.submissionRejected d.request.job (reply.message?.getD reply.statusText))
  else if reply.isSuccess then .ok reply.body
  else .error (.submissionFailed d.request.job (match reply.message? with
    | some message => reply.statusText ++ ": " ++ message
    | none => reply.statusText))

/-- The token that addresses the wait, and our own as its alias if it is another. -/
def address (d : Draft) (reply : Reply) : Token × Option Token :=
  match reply.token?.bind Token.parse? with
  | some t => if t = d.token then (d.token, none) else (t, some d.token)
  | none => (d.token, none)

/-- The wait for the decision on an accepted submission. -/
def waitFor (d : Draft) (reply : Reply) (e : ExecutionId) (now : Instant) : Wait :=
  let (token, aliasToken) := address d reply
  let w := { Wait.start token e now with
    job := some d.request.job
    metadata := .obj [("build_number", .str d.request.buildNumber), ("callback_url", .str d.callbackUrl),
      ("endpoint", .str d.endpoint.url)]
    aliasToken }
  match d.timeout with
  | some timeout => w.withTimeout timeout
  | none => w

/-- The second half: an answer that accepts the submission registers the wait. -/
def complete (g : Registry) (d : Draft) (e : ExecutionId) (now : Instant) (reply : Outcome Reply) :
    Outcome Submission × Registry :=
  match reply with
  | .error failure => (.error (.submissionFailed d.request.job failure.message), g)
  | .ok reply => match accepted d reply with
    | .error failure => (.error failure, g)
    | .ok response =>
      let w := waitFor d reply e now
      match g.register w with
      | (.error failure, g) => (.error failure, g)
      | (.ok superseded, g) =>
        (.ok { token := w.token, callbackUrl := d.callbackUrl, timeout := d.timeout, response, superseded }, g)

end Issuer

/-! ## The exchange -/

namespace Endpoint

def request (e : Endpoint) (method : Method) (payload : Json) : Http.Request := {
  method, url := e.url, credentials := e.auth, accept := some Http.jsonType
  body := if method.hasBody then some (Http.jsonType, payload.compact) else none }

/-- What a response answers; a body that is not JSON counts as `null`. -/
def reply (r : Http.Response) : Reply := ⟨r.status, (Json.parse? r.text).getD .null⟩

/-- Sends a payload.  Any response counts as an answer. -/
def send {m : Type → Type} [Monad m] (network : Http.Network m) (e : Endpoint) (method : Method) (payload : Json) :
    m (Outcome Reply) :=
  if Http.isUrl e.url then do
    match ← network (e.request method payload) with
    | some r => return .ok (reply r)
    | none => return .error (.network Http.Fault.unanswered.message)
  else return .error (.network (Http.Fault.invalidUrl e.url).message)

end Endpoint
end ApprovalGate
