import ApprovalGate.Json.Basic
import ApprovalGate.Text.Percent
import ApprovalGate.Text.Split
/-!
# Form bodies

Bodies of pairs `key=value` joined by `&`, in which a plus stands for a blank and other characters are
percent-encoded.  Of a repeated key the last value counts.
-/
namespace ApprovalGate.Form

inductive Fault where
  | noEquals (pair : String)
  | badEncoding
  | noFields
deriving DecidableEq, Repr

def Fault.message : Fault → String
  | .noEquals pair => "form pair '" ++ pair ++ "' has no '='"
  | .badEncoding => "invalid percent-encoding: bytes that are no text"
  | .noFields => "form body has no fields"

def decode? (cs : List Char) : Option String := Text.Percent.decodeChars? (cs.map fun c => if c = '+' then ' ' else c)

def readPair (pair : List Char) : Except Fault (String × String) :=
  match Text.cut? '=' pair with
  | none => .error (.noEquals (String.ofList pair))
  | some (key, value) => match decode? key, decode? value with
    | some key, some value => .ok (key, value)
    | _, _ => .error .badEncoding

/-- The fields in ascending order of their keys, all of them texts. -/
def read (body : String) : Except Fault (List (String × Json)) := do
  let pairs := (Text.splitOn '&' (Text.trim body).toList).filter fun p => !p.isEmpty
  let fields ← pairs.mapM readPair
  if fields.isEmpty then .error .noFields
  else return Ordered.ofList (fields.map fun (k, v) => (k, .str v))

end ApprovalGate.Form
