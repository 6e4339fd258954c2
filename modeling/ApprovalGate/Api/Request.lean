import ApprovalGate.Api.Response
import ApprovalGate.Callback.Body
/-!
# Requests

A request as it comes off the wire.  Its body can be too long, or break off.
-/
namespace ApprovalGate.Api

structure Request where
  method : String
  target : String
  /-- The bytes of the header that names the body's content type. -/
  contentType : Option (List UInt8)
  body : ByteArray
  /-- Why the body broke off, if it did. -/
  broken : Option String
deriving DecidableEq

namespace Request

/-- A header's text, if it is all visible ASCII, blanks and tabs. -/
def headerText? (bytes : List UInt8) : Option String :=
  if bytes.all fun b => (32 ≤ b.toNat && b.toNat < 127) || b == 9 then
    some (String.ofList (bytes.map fun b => Char.ofNat b.toNat))
  else none

def contentText? (r : Request) : Option String := r.contentType.bind headerText?

def afterScheme? : List Char → Option (List Char)
  | [] => none
  | ':' :: '/' :: '/' :: rest => some rest
  | _ :: rest => afterScheme? rest

def endsPath (c : Char) : Bool := c == '?' || c == '#'

/-- The path in a request target: the target itself, or what follows the host of an absolute URL, up to a query. -/
def pathOf (target : List Char) : List Char :=
  match target with
  | '/' :: _ => target.takeWhile fun c => !endsPath c
  | _ => match afterScheme? target with
    | none => []
    | some rest => match (rest.dropWhile fun c => c != '/' && !endsPath c).takeWhile fun c => !endsPath c with
      | [] => ['/']
      | path => path

def path (r : Request) : List Char := pathOf r.target.toList

def readBody (r : Request) (limit : Nat) : Except Problem ByteArray :=
  if limit < r.body.size then .error (.payloadTooLarge limit)
  else match r.broken with
    | some cause => .error (.badRequest Problem.requestCode ("Failed to read request body: " ++ cause))
    | none => .ok r.body

end Request
end ApprovalGate.Api
