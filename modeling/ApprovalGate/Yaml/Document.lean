import ApprovalGate.Yaml.Lexer
import ApprovalGate.Yaml.Node
/-!
# YAML documents

The one document of a YAML text.  A text with several documents is not read.
-/
namespace ApprovalGate.Yaml

inductive Document where
  | void
  | root (node : Node)
deriving Repr, Inhabited

namespace Document

/-- What tag handles stand for, and the tokens after the start of the document.  The version is given at most once and
is 1.1 or 1.2, and no handle is defined twice. -/
def readDirectives? : (versioned : Bool) → (handles : List (String × String)) → List Token →
    Option (List (String × String) × List Token)
  | versioned, handles, .version major minor :: rest =>
    if versioned ∨ major ≠ 1 ∨ (minor ≠ 1 ∧ minor ≠ 2) then none else readDirectives? true handles rest
  | versioned, handles, .tagHandle handle expansion :: rest =>
    if (handles.lookup handle).isSome then none
    else readDirectives? versioned ((handle, expansion) :: handles) rest
  | _, handles, .documentStart :: rest => some (handles, rest)
  | _, _, _ => none

def isFrame : Token → Bool
  | .version .. | .tagHandle .. | .documentStart | .documentEnd => true
  | _ => false

/-- Whether a document may begin with this token without a mark for its start. -/
def startsBare : Token → Bool
  | .documentEnd => true
  | t => !isFrame t

/-- The node of a document; one whose start is marked may be empty. -/
def readRoot? (bare : Bool) (s : Source) : Option (Node × Source) :=
  if !bare ∧ s.tokens.head?.all isFrame then some (.absent, s)
  else Node.read? (3 * s.tokens.length + 3) true false s

def ofTokens? (ts : List Token) : Option Document :=
  match ts with
  | [] => some .void
  | t :: _ => do
    let bare := startsBare t
    let (handles, rest) ← if bare then some ([], ts) else readDirectives? false [] ts
    let (node, s) ← readRoot? bare ⟨rest, handles, []⟩
    if s.tokens.all (· == .documentEnd) then return .root node else failure

def read? (s : String) : Option Document := (Token.read? s).bind ofTokens?

end Document
end ApprovalGate.Yaml
