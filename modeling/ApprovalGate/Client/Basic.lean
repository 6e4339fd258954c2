import ApprovalGate.Client.Report
import ApprovalGate.Http
import ApprovalGate.Json.Printer
import ApprovalGate.Text.Percent
import ApprovalGate.Text.Split
/-!
# Clients

A client of a gate's API.  A call says what is requested and how the response is read; what is asked for may not be
there, and a delivery that was turned down still has its report.
-/
namespace ApprovalGate

structure Client where
  baseUrl : String
deriving DecidableEq, Repr

namespace Client

def ofUrl (url : String) : Except Http.Fault Client :=
  if Http.isUrl url then .ok ⟨url⟩ else .error (.invalidUrl url)

def root : String := "/api/v1/"

/-- The message in a body that reports a failure, or else the body itself. -/
def errorMessage (body : String) : String :=
  let message? : Option String := do
    let v ← Json.parse? body
    let error := (v.member? "error").getD .null
    ((error.member? "message").bind Json.string?) <|> error.string? <|> (v.member? "message").bind Json.string?
  message?.getD body

def readValue {α : Type} (ofJson? : Json → Option α) (r : Http.Response) : Except Http.Fault α :=
  if r.isSuccess then
    match (Json.read? r.text).bind ofJson? with
    | some a => .ok a
    | none => .error .unreadable
  else .error (.refused r.status (errorMessage r.text))

def readOptional {α : Type} (ofJson? : Json → Option α) (r : Http.Response) : Except Http.Fault (Option α) :=
  if r.status = 404 then .ok none else (readValue ofJson? r).map some

/-- Reads the report of a delivery, which may come with a status of failure. -/
def readDelivery (r : Http.Response) : Except Http.Fault DeliveryReport :=
  if r.status = 404 ∨ r.status = 400 then
    match (Json.read? r.text).bind DeliveryReport.ofJson? with
    | some report => .ok report
    | none => .error (.refused r.status r.text)
  else readValue DeliveryReport.ofJson? r

structure Call (α : Type) where
  method : Method
  path : String
  body : Option Json
  read : Http.Response → Except Http.Fault α

namespace Call

def health : Call Health := ⟨.get, "health", none, readValue Health.ofJson?⟩

def waits : Call (List Wait) := ⟨.get, "waits", none, readValue Wait.listOfJson?⟩

def callbackPath (address : String) : String := "callbacks/" ++ Text.Percent.encode address

def record (address : String) : Call (Option WaitRecord) :=
  ⟨.get, callbackPath address, none, readOptional WaitRecord.ofJson?⟩

def deliver (address : String) (body : Json) : Call DeliveryReport :=
  ⟨.post, callbackPath address, some body, readDelivery⟩

def jobDecision (job : JobId) : Call JobDecision :=
  ⟨.get, "jobs/" ++ Text.Percent.encode job ++ "/decision", none, readValue JobDecision.ofJson?⟩

def executionPath (e : ExecutionId) : String := "executions/" ++ e.text

def execution (e : ExecutionId) : Call (Option ExecutionReport) :=
  ⟨.get, executionPath e, none, readOptional ExecutionReport.ofJson?⟩

def cancel (e : ExecutionId) : Call CancelReport := ⟨.delete, executionPath e, none, readValue CancelReport.ofJson?⟩

def target {α : Type} (call : Call α) : String := root ++ call.path

end Call

def request {α : Type} (c : Client) (call : Call α) : Http.Request := {
  method := call.method, url := Text.trimEndOf '/' c.baseUrl ++ call.target
  credentials := .none, accept := none, body := call.body.map fun v => (Http.jsonType, v.compact) }

def ask {m : Type → Type} [Monad m] {α : Type} (network : Http.Network m) (c : Client) (call : Call α) :
    m (Except Http.Fault α) := do
  match ← network (c.request call) with
  | some r => return call.read r
  | none => return .error .unanswered

end Client
end ApprovalGate
