import ApprovalGate.Json.Record
import ApprovalGate.Text.Quoted
/-!
# Endpoints

Where change requests are sent and with which credentials.  The printed form of an endpoint hides its secrets.
-/
namespace ApprovalGate

inductive Method where
  | get
  | post
  | put
  | delete
deriving DecidableEq, Repr, Inhabited

namespace Method

def text : Method → String
  | get => "GET"
  | post => "POST"
  | put => "PUT"
  | delete => "DELETE"

def ofName? : String → Option Method
  | "GET" => some get
  | "POST" => some post
  | "PUT" => some put
  | "DELETE" => some delete
  | _ => none

def hasBody : Method → Bool
  | post | put => true
  | get | delete => false

def ofJson? (v : Json) : Option Method := v.choice?.bind ofName?

end Method

inductive Credentials where
  | none
  | basic (username password : String)
  | token (secret : String)
deriving DecidableEq, Repr, Inhabited

namespace Credentials

/-- The printed form, with stars for secrets. -/
def text : Credentials → String
  | none => "None"
  | basic username _ => Text.labelled "Basic" [("username", Text.quote username), ("password", "\"***\"")]
  | token _ => Text.labelled "Token" [("token", "\"***\"")]

def toJson : Credentials → Json
  | none => .obj [("type", .str "none")]
  | basic username password =>
    .obj [("type", .str "basic"), ("username", .str username), ("password", .str password)]
  | token secret => .obj [("type", .str "token"), ("token", .str secret)]

def kind? : Json → Option (String × Json)
  | .arr (kind :: items) => kind.string?.map (·, .arr items)
  | v => do
    let members ← v.members? ["type"]
    let kind ← Json.required? Json.string? "type" members
    return (kind, .obj (members.filter fun (k, _) => k != "type"))

/-- Reads credentials by their `type`; an array gives the type and the parts in order. -/
def ofJson? (v : Json) : Option Credentials := do
  match ← kind? v with
  | ("none", parts) =>
    match parts with
    | .arr (_ :: _) => failure
    | _ => return none
  | ("basic", parts) =>
    let parts ← parts.parts? ["username", "password"] 2
    return basic (← Json.required? Json.string? "username" parts) (← Json.required? Json.string? "password" parts)
  | ("token", parts) =>
    let parts ← parts.parts? ["token"] 1
    return token (← Json.required? Json.string? "token" parts)
  | _ => failure

end Credentials

structure Endpoint where
  url : String
  auth : Credentials
deriving DecidableEq, Repr, Inhabited

namespace Endpoint

def text (e : Endpoint) : String :=
  Text.labelled "Endpoint" [("url", Text.quote e.url), ("auth", e.auth.text)]

def toJson (e : Endpoint) : Json := .obj [("url", .str e.url), ("auth", e.auth.toJson)]

def ofJson? (v : Json) : Option Endpoint := do
  let parts ← v.parts? ["url", "auth"] 1
  return {
    url := ← Json.required? Json.string? "url" parts
    auth := ← Json.defaulted? Credentials.ofJson? .none "auth" parts }

def withBasicAuth (e : Endpoint) (username password : String) : Endpoint :=
  { e with auth := .basic username password }

def withToken (e : Endpoint) (secret : String) : Endpoint := { e with auth := .token secret }

end Endpoint
end ApprovalGate
