import ApprovalGate.Callback.Form
import ApprovalGate.Decision
import ApprovalGate.Json.Reader
/-!
# Callback bodies

The decision in the body of a callback: a JSON object or a form, as its content type says.  Without a telling content
type a body is a form only if it is not JSON.
-/
namespace ApprovalGate

namespace Callback

def maxBody : Nat := 65536

def verdictFields : List String := ["result", "status", "state", "approval"]

def commentFields : List String := ["comments", "comment", "message", "reason"]

inductive Fault where
  | tooLong
  | notText
  | empty
  | notObject (kind : String)
  | badJson
  | badForm (fault : Form.Fault)
  | noVerdict
  | badVerdict (field text : String)
deriving DecidableEq, Repr

def Fault.message : Fault → String
  | .tooLong => "body exceeds 65536 bytes"
  | .notText => "body is not UTF-8"
  | .empty => "body is empty"
  | .notObject kind => "expected a JSON object, got " ++ kind
  | .badJson => "invalid JSON: not a value"
  | .badForm fault => fault.message
  | .noVerdict => "none of result, status, state, approval present"
  | .badVerdict field text => "field '" ++ field ++ "': " ++ Verdict.unknownMessage text

def kindOf : Json → String
  | .null => "null"
  | .bool _ => "a boolean"
  | .int _ | .real _ => "a number"
  | .str _ => "a string"
  | .arr _ => "an array"
  | .obj _ => "an object"

abbrev Fields := List (String × Json)

def readJson (body : String) : Except Fault Fields :=
  match Json.parse? body with
  | some (.obj fields) => .ok fields
  | some v => .error (.notObject (kindOf v))
  | none => .error .badJson

def readForm (body : String) : Except Fault Fields := (Form.read body).mapError .badForm

def readFields (body : String) (contentType : Option String) : Except Fault Fields :=
  let kind := ((contentType.getD "").map Char.toLower).toList
  if Text.occursIn "application/x-www-form-urlencoded".toList kind then readForm body
  else if Text.occursIn "json".toList kind then readJson body
  else match readJson body with
    | .ok fields => .ok fields
    | .error fault => match readForm body with
      | .ok fields => .ok fields
      | .error _ => .error fault

def firstText? (names : List String) (fields : Fields) : Option (String × String) :=
  names.findSome? fun n => ((Json.lookup n fields).bind Json.string?).map fun s => (n, s)

def ofFields (t : Token) (fields : Fields) (now : Instant) : Except Fault Decision :=
  match firstText? verdictFields fields with
  | none => .error .noVerdict
  | some (field, text) => match Verdict.read? text with
    | none => .error (.badVerdict field text)
    | some verdict => .ok {
        token := t
        payload := .obj fields
        verdict
        comments := ((firstText? commentFields fields).map Prod.snd).filter fun s => s ≠ ""
        receivedAt := now }

def readDecision (t : Token) (body : ByteArray) (contentType : Option String) (now : Instant) :
    Except Fault Decision :=
  if maxBody < body.size then .error .tooLong
  else match String.fromUTF8? body with
    | none => .error .notText
    | some text =>
      if Text.blank text then .error .empty
      else (readFields text contentType).bind fun fields => ofFields t fields now

/-- Reads the decision in a body for a token; a failure says whose body it was. -/
def parseDecision (t : Token) (body : ByteArray) (contentType : Option String) (now : Instant) : Outcome Decision :=
  (readDecision t body contentType now).mapError fun fault => .malformedPayload t.text fault.message

end Callback
end ApprovalGate
