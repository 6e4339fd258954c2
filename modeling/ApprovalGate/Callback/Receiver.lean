import ApprovalGate.Callback.Body
import ApprovalGate.Gate.Basic
/-!
# Receiving callbacks

A delivery addressed to a token ends the wait there, is noted, or changes nothing.  The continuation parked on the wait
is woken after the registry has the decision.
-/
namespace ApprovalGate

inductive Receipt where
  | accepted (execution : ExecutionId) (verdict : Verdict)
  | duplicate
  | interim
  | notFound
  | malformed (reason : String)
deriving DecidableEq, Repr

namespace Receipt

def text : Receipt → String
  | accepted _ _ => "accepted"
  | duplicate => "duplicate"
  | interim => "interim"
  | notFound => "not_found"
  | malformed _ => "malformed"

def status : Receipt → Nat
  | accepted _ _ | duplicate => 200
  | interim => 202
  | notFound => 404
  | malformed _ => 400

def toJson (r : Receipt) : Json := .obj (("status", .str r.text) :: match r with
  | accepted e verdict => [("execution_id", e.toJson), ("result", .str verdict.text)]
  | malformed reason => [("reason", .str reason)]
  | duplicate | interim | notFound => [])

end Receipt

namespace Gate

/-- Whether a delivery to a record could still matter. -/
def takesDelivery : Option WaitRecord → Bool
  | some r => r.status == .pending || r.status == .resolved
  | none => false

/-- The first half of a delivery: the registry changes, and a decision is to be handed to a token's continuation. -/
def record (g : Gate) (t : Token) (body : ByteArray) (contentType : Option String) (now : Instant) :
    Receipt × Option Decision × Gate :=
  if !takesDelivery (g.registry.get? t) then (.notFound, none, g)
  else match Callback.parseDecision t body contentType now with
    | .error failure => (.malformed failure.message, none, g)
    | .ok d => match g.registry.resolve t d with
      | (.resolved e d, registry) => (.accepted e d.verdict, some d, { g with registry })
      | (.updated _, registry) => (.interim, none, { g with registry })
      | (.alreadyResolved .resolved, registry) => (.duplicate, none, { g with registry })
      | (_, registry) => (.notFound, none, { g with registry })

def receive (g : Gate) (address : String) (body : ByteArray) (contentType : Option String) (now : Instant) :
    Receipt × Gate :=
  match Token.parse? address with
  | none => (.notFound, g)
  | some t =>
    let t := g.registry.canonical t
    match g.record t body contentType now with
    | (receipt, some d, g) => (receipt, (g.deliver t d).2)
    | (receipt, none, g) => (receipt, g)

end Gate
end ApprovalGate
