import ApprovalGate.Endpoint.Basic
import ApprovalGate.Failure
import ApprovalGate.Text.Bytes
/-!
# Endpoint tables

Which endpoint a job's change requests go to: the one whose prefix of the job's name is the longest, else the default.
-/
namespace ApprovalGate

/-- A default endpoint and endpoints by prefix of the job's name, no prefix twice. -/
structure EndpointTable where
  default : Option Endpoint
  jobs : List (String × Endpoint)
deriving DecidableEq, Repr, Inhabited

namespace EndpointTable

def empty : EndpointTable := ⟨none, []⟩

/-- The entries by falling length of their prefixes, those of one length as they stood. -/
def ranked (t : EndpointTable) : List (String × Endpoint) :=
  t.jobs.mergeSort fun a b => Text.byteLength b.1 ≤ Text.byteLength a.1

def hasPrefix (p job : String) : Bool := p.toList.isPrefixOf job.toList

def lookup? (t : EndpointTable) (job : String) : Option Endpoint :=
  match t.ranked.find? fun (p, _) => hasPrefix p job with
  | some (_, e) => some e
  | none => t.default

def resolve (t : EndpointTable) (job : String) : Outcome Endpoint :=
  match t.lookup? job with
  | some e => .ok e
  | none => .error (.endpointNotConfigured job)

def optionText : Option Endpoint → String
  | none => "None"
  | some e => "Some(" ++ e.text ++ ")"

def text (t : EndpointTable) : String :=
  Text.labelled "ConfiguredEndpoints" [("default", optionText t.default),
    ("by_prefix",
      "[" ++ ", ".intercalate (t.ranked.map fun (p, e) => "(" ++ Text.quote p ++ ", " ++ e.text ++ ")") ++ "]")]

end EndpointTable
end ApprovalGate
