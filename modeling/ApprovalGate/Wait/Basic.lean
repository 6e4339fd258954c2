import ApprovalGate.Decision
/-!
# Waits

A pending wait suspends an execution under a token until a decision, a deadline or a cancellation.  The record of a
wait adds what came of it.
-/
namespace ApprovalGate

abbrev JobId := String

inductive WaitStatus where
  | pending
  | resolved
  | expired
  | cancelled
deriving DecidableEq, Repr, Inhabited

namespace WaitStatus

def isTerminal : WaitStatus → Bool
  | pending => false
  | _ => true

def text : WaitStatus → String
  | pending => "pending"
  | resolved => "resolved"
  | expired => "expired"
  | cancelled => "cancelled"

def ofName? : String → Option WaitStatus
  | "pending" => some pending
  | "resolved" => some resolved
  | "expired" => some expired
  | "cancelled" => some cancelled
  | _ => none

def ofJson? (v : Json) : Option WaitStatus := v.choice?.bind ofName?

end WaitStatus

/-- A suspended execution: the token that addresses it, a second one that may also do so, and its deadline. -/
structure Wait where
  token : Token
  execution : ExecutionId
  job : Option JobId
  createdAt : Instant
  expiresAt : Option Instant
  status : WaitStatus
  metadata : Json
  aliasToken : Option Token
deriving DecidableEq, Repr

namespace Wait

def start (token : Token) (execution : ExecutionId) (now : Instant) : Wait :=
  { token, execution, job := none, createdAt := now, expiresAt := none, status := .pending, metadata := .null
    aliasToken := none }

/-- The longest timeout that still makes a deadline: `2 ^ 63 - 1` milliseconds. -/
def maxTimeout : Span := .ofMillis (Nat.pow 2 63 - 1)

/-- The wait with its deadline a timeout after its creation; without one when that is out of range. -/
def withTimeout (w : Wait) (timeout : Span) : Wait :=
  { w with expiresAt := if timeout ≤ maxTimeout then w.createdAt.add? timeout else none }

def isExpiredAt (w : Wait) (now : Instant) : Bool :=
  match w.expiresAt with
  | some t => decide (t ≤ now)
  | none => false

def timeUntilExpiry (w : Wait) (now : Instant) : Option Span :=
  match w.expiresAt with
  | some t => (t.since? now).filter fun d => d.nanos ≠ 0
  | none => none

end Wait

structure WaitRecord where
  wait : Wait
  decision : Option Decision
  delivered : Bool
  lastUpdate : Option Decision
  finishedAt : Option Instant
deriving DecidableEq, Repr

namespace WaitRecord

def ofWait (w : Wait) : WaitRecord :=
  { wait := w, decision := none, delivered := false, lastUpdate := none, finishedAt := none }

def token (r : WaitRecord) : Token := r.wait.token

def status (r : WaitRecord) : WaitStatus := r.wait.status

def isPending (r : WaitRecord) : Bool := r.status == .pending

def finish (r : WaitRecord) (status : WaitStatus) (at' : Instant) : WaitRecord :=
  { r with wait := { r.wait with status }, finishedAt := some at' }

end WaitRecord
end ApprovalGate
