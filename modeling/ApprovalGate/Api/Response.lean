import ApprovalGate.Failure
import ApprovalGate.Json.Basic
import ApprovalGate.Json.Printer
/-!
# Responses

Every response has a JSON body.  When a request fails its client is told of a problem: a code, a message and an HTTP
status.
-/
namespace ApprovalGate.Api

structure Problem where
  code : String
  message : String
  status : Nat
deriving DecidableEq, Repr

namespace Problem

def requestCode : String := "E000"

def badRequest (code message : String) : Problem := ⟨code, message, 400⟩

def notFound (code message : String) : Problem := ⟨code, message, 404⟩

def internal (code message : String) : Problem := ⟨code, message, 500⟩

def payloadTooLarge (limit : Nat) : Problem :=
  ⟨"E301", "Request body exceeds " ++ toString limit ++ " bytes", 413⟩

def noRoute : Problem := notFound requestCode "Not found"

def wrongMethod (allowed : String) : Problem := ⟨requestCode, "Method not allowed. Allowed: " ++ allowed, 405⟩

/-- The status that stands for a failure: 404 for what is unknown, 409 for what clashes, 400 for what the client could
mend, 502 for the change-control system and 500 for everything else. -/
def statusOf : Failure → Nat
  | .unknownToken _ | .executionNotFound _ => 404
  | .duplicateToken _ | .duplicateDelivery _ | .cancelled _ _ => 409
  | .invalidToken _ _ | .validation _ _ | .malformedPayload _ _ | .endpointNotConfigured _ | .configValue _ _
  | .yamlParse _ _ => 400
  | .submissionFailed _ _ | .submissionRejected _ _ | .authentication _ _ | .network _ => 502
  | .waitAbandoned _ | .store _ _ | .serialization _ | .io _ _ => 500

def ofFailure (f : Failure) : Problem := ⟨f.code, f.message, statusOf f⟩

def text (p : Problem) : String := p.code ++ ": " ++ p.message

def toJson (p : Problem) : Json := .obj
  [("error", .obj [("code", .str p.code), ("message", .str p.message), ("status", .int p.status)])]

end Problem

structure Response where
  status : Nat
  body : Json
  /-- The methods that the route has, when the request had another. -/
  allow : Option String
deriving DecidableEq, Repr

namespace Response

def contentType : String := "application/json"

def ofJson (status : Nat) (body : Json) : Response := ⟨status, body, none⟩

def ok (body : Json) : Response := ofJson 200 body

/-- A response whose body was put together as a value, so that its objects are in order. -/
def okValue (body : Json) : Response := ok body.normal

def ofProblem (p : Problem) : Response := ofJson p.status p.toJson

def notFound : Response := ofProblem .noRoute

def wrongMethod (methods : List String) : Response :=
  let allowed := String.intercalate ", " methods
  { ofProblem (.wrongMethod allowed) with allow := some allowed }

def text (r : Response) : String := r.body.compact

end Response
end ApprovalGate.Api
