import ApprovalGate.Wait.Basic
/-!
# Executions

How far a suspended unit of work has come, and the outcome that its wait ends with.  A state that ends an execution is
terminal; an outcome has a terminal state.
-/
namespace ApprovalGate

inductive ExecutionState where
  | submitting
  | waiting
  | approved
  | rejected
  | canceled
  | timedOut
  | commFailure
  | aborted
deriving DecidableEq, Repr, Inhabited

namespace ExecutionState

def isTerminal : ExecutionState → Bool
  | submitting | waiting => false
  | _ => true

def text : ExecutionState → String
  | submitting => "submitting"
  | waiting => "waiting"
  | approved => "approved"
  | rejected => "rejected"
  | canceled => "canceled"
  | timedOut => "timed_out"
  | commFailure => "comm_failure"
  | aborted => "aborted"

def all : List ExecutionState :=
  [submitting, waiting, approved, rejected, canceled, timedOut, commFailure, aborted]

def ofName? (s : String) : Option ExecutionState := all.find? fun x => x.text == s

def ofJson? (v : Json) : Option ExecutionState := v.choice?.bind ofName?

end ExecutionState

inductive WaitOutcome where
  | approved (comments : Option String)
  | rejected (comments : Option String)
  | canceled (comments : Option String)
  | commFailure (comments : Option String)
  | timedOut
deriving DecidableEq, Repr

namespace WaitOutcome

def ofDecision? (d : Decision) : Option WaitOutcome :=
  match d.verdict with
  | .approved => some (approved d.comments)
  | .rejected => some (rejected d.comments)
  | .canceled => some (canceled d.comments)
  | .commFailure => some (commFailure d.comments)
  | .pending => none

def state : WaitOutcome → ExecutionState
  | approved _ => .approved
  | rejected _ => .rejected
  | canceled _ => .canceled
  | commFailure _ => .commFailure
  | timedOut => .timedOut

def isApproved : WaitOutcome → Bool
  | approved _ => true
  | _ => false

def comments : WaitOutcome → Option String
  | approved c | rejected c | canceled c | commFailure c => c
  | timedOut => none

def toJson (o : WaitOutcome) : Json := .obj [
  ("state", .str o.state.text), ("approved", .bool o.isApproved), ("comments", Json.ofString? o.comments)]

end WaitOutcome

structure Execution where
  id : ExecutionId
  state : ExecutionState
  token : Option Token
  job : Option JobId
  updatedAt : Instant
deriving DecidableEq, Repr

namespace Execution

def start (id : ExecutionId) (job : Option JobId) (now : Instant) : Execution :=
  { id, state := .submitting, token := none, job, updatedAt := now }

/-- The execution in a state; a terminal state stays. -/
def advance (x : Execution) (state : ExecutionState) (token : Option Token) (now : Instant) : Execution :=
  if x.state.isTerminal then x else { x with state, updatedAt := now, token := token <|> x.token }

def toJson (x : Execution) : Json := .obj [
  ("execution_id", x.id.toJson),
  ("state", .str x.state.text),
  ("token", Json.ofString? (x.token.map Token.text)),
  ("job_id", Json.ofString? x.job),
  ("updated_at", x.updatedAt.toJson)]

def optionToJson : Option Execution → Json
  | none => .null
  | some x => x.toJson

end Execution
end ApprovalGate
