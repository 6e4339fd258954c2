import ApprovalGate.Execution.State
import ApprovalGate.Registry.Change
import ApprovalGate.Submission.Sending
/-!
# Gates

A gate holds a registry, the continuations parked on its tokens and what is known of each execution.  A continuation
belongs to one handle, by its serial number, and wakes it with one signal.
-/
namespace ApprovalGate

inductive Signal where
  | decision (d : Decision)
  | expired
  | cancelled (reason : String)
deriving DecidableEq, Repr

structure Waiter where
  serial : Nat
  execution : ExecutionId
deriving DecidableEq, Repr

/-- What has come to a handle: nothing so far, one signal, or nothing ever again because its continuation is gone. -/
inductive Mail where
  | none
  | signal (s : Signal)
  | lost
deriving DecidableEq, Repr

/-- One end of a parked continuation: who waits for it, on which token and until when on the running clock. -/
structure Handle where
  execution : ExecutionId
  token : Token
  deadline : Option Nat
  mail : Mail
deriving DecidableEq, Repr

/-- The readings of the two clocks: the time of day, which can be set, and the nanoseconds run so far. -/
structure Clock where
  now : Instant
  elapsed : Nat
deriving DecidableEq, Repr

def Handle.isDue (h : Handle) (clock : Clock) : Bool :=
  match h.deadline with
  | some deadline => decide (deadline ≤ clock.elapsed)
  | none => false

structure Gate where
  registry : Registry
  issuer : Option Issuer
  waiters : Table Token Waiter
  executions : Table ExecutionId Execution
  /-- The handles that are neither done nor dropped, by serial number. -/
  handles : Table Nat Handle
  nextSerial : Nat
deriving DecidableEq

namespace Gate

def start (registry : Registry) (issuer : Option Issuer) : Gate :=
  { registry, issuer, waiters := Table.empty, executions := Table.empty, handles := Table.empty, nextSerial := 1 }

def state? (g : Gate) (e : ExecutionId) : Option ExecutionState := (g.executions.get? e).map Execution.state

def execution? (g : Gate) (e : ExecutionId) : Option Execution := g.executions.get? e

def hasWaiter (g : Gate) (t : Token) : Bool := g.waiters.contains t

def waitingCount (g : Gate) : Nat := g.waiters.size

def text (g : Gate) : String :=
  Text.labelled "Orchestrator" [("waiting", toString g.waitingCount), ("executions", toString g.executions.size)]

/-! ## Single steps -/

def post (g : Gate) (serial : Nat) (mail : Mail) : Gate :=
  match g.handles.get? serial with
  | some h => { g with handles := g.handles.insert serial { h with mail } }
  | none => g

/-- Wakes the continuation parked on a token; whether its handle was there to be woken. -/
def signal (g : Gate) (t : Token) (s : Signal) : Bool × Gate :=
  match g.waiters.get? t with
  | none => (false, g)
  | some w => (g.handles.contains w.serial, { g with waiters := g.waiters.erase t }.post w.serial (.signal s))

/-- Moves an execution to a state unless it has ended; an unknown execution becomes known. -/
def transition (g : Gate) (e : ExecutionId) (state : ExecutionState) (token : Option Token) (now : Instant) : Gate :=
  let x := (g.executions.get? e).getD (.start e none now)
  { g with executions := g.executions.insert e (x.advance state token now) }

/-- Moves an execution to a state if it is known and has not ended. -/
def transitionKnown (g : Gate) (e : ExecutionId) (state : ExecutionState) (now : Instant) : Gate :=
  match g.executions.get? e with
  | some x => { g with executions := g.executions.insert e (x.advance state none now) }
  | none => g

def deliver (g : Gate) (t : Token) (d : Decision) : Bool × Gate := g.signal t (.decision d)

/-- Brings a parked continuation in line with what the registry holds for its token. -/
def settle (g : Gate) (t : Token) : Gate :=
  match g.registry.get? t with
  | none => (g.signal t (.cancelled "wait is no longer registered")).2
  | some r => match r.status with
    | .pending => g
    | .resolved =>
      let (taken, registry) := g.registry.takeDecision t
      let g := { g with registry }
      match taken <|> r.decision with
      | some d => (g.signal t (.decision d)).2
      | none => g
    | .expired => (g.signal t .expired).2
    | .cancelled => (g.signal t (.cancelled "wait was cancelled")).2

end Gate
end ApprovalGate
