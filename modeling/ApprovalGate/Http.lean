import ApprovalGate.Endpoint.Basic
import ApprovalGate.Json.Reader
import ApprovalGate.Text.Bytes
import ApprovalGate.Text.Split
/-!
# Exchanges over HTTP

Requests to other services, what comes back, and what can go wrong on the way.  The network itself is a function from
requests to responses, which has none for a request that does not arrive.
-/
namespace ApprovalGate.Http

def isUrl (url : String) : Bool := Text.startsWith "http://" url || Text.startsWith "https://" url

structure Request where
  method : Method
  url : String
  credentials : Credentials
  accept : Option String
  body : Option (String × String)
deriving DecidableEq, Repr

def jsonType : String := "application/json"

structure Response where
  status : Nat
  body : ByteArray
deriving DecidableEq, Inhabited

namespace Response

def isSuccess (r : Response) : Bool := 200 ≤ r.status && r.status < 300

/-- The text of the body, without a mark of byte order in front. -/
def text (r : Response) : String :=
  let s := Text.decodeLenient r.body
  (Text.stripPrefix? "\ufeff" s).getD s

end Response

/-- What answers requests, or lets them go unanswered. -/
abbrev Network (m : Type → Type) := Request → m (Option Response)

inductive Fault where
  | unanswered
  | refused (status : Nat) (message : String)
  | unreadable
  | invalidUrl (url : String)
deriving DecidableEq, Repr

def Fault.message : Fault → String
  | unanswered => "HTTP request failed: no response"
  | refused status message => "API error (status " ++ toString status ++ "): " ++ message
  | unreadable => "Failed to deserialize response: unexpected body"
  | invalidUrl url => "Invalid URL: URL must start with http:// or https://, got: " ++ url

end ApprovalGate.Http
