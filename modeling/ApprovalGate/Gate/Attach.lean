import ApprovalGate.Gate.Basic
/-!
# Parking and waking

An execution is parked on a token with a handle.  The handle is polled until a signal or its deadline ends it; one that
is dropped before gives up its execution.
-/
namespace ApprovalGate.Gate

/-- Parks an execution on a token, in the place of whatever was parked there, and returns the serial number of the new
handle. -/
def attach (g : Gate) (e : ExecutionId) (t : Token) (deadline : Option Nat) (now : Instant) : Nat × Gate :=
  let serial := g.nextSerial
  let g := match g.waiters.get? t with
    | some replaced => g.post replaced.serial .lost
    | none => g
  let g := { g with
    nextSerial := serial + 1
    waiters := g.waiters.insert t ⟨serial, e⟩
    handles := g.handles.insert serial { execution := e, token := t, deadline, mail := .none } }
  (serial, (g.transition e .waiting (some t) now).settle t)

/-- Parks an execution again on a wait of its own, until the wait's deadline. -/
def reattach (g : Gate) (e : ExecutionId) (t : Token) (clock : Clock) : Outcome Nat × Gate :=
  match g.registry.get? t with
  | none => (.error (.unknownToken t.text), g)
  | some r =>
    if r.wait.execution ≠ e then (.error (.executionNotFound e), g)
    else
      let deadline := r.wait.expiresAt.map fun _ =>
        clock.elapsed + ((r.wait.timeUntilExpiry clock.now).getD ⟨0⟩).nanos
      let g := if g.executions.contains e then g
        else { g with executions := g.executions.insert e (.start e r.wait.job clock.now) }
      let (serial, g) := g.attach e t deadline clock.now
      (.ok serial, g)

/-- Ends every pending wait of an execution and wakes what is parked on them.  An execution that is submitting, or had
a wait to lose, is aborted. -/
def cancelExecution (g : Gate) (e : ExecutionId) (reason : String) (now : Instant) : Outcome (List Token) × Gate :=
  let (tokens, registry) := g.registry.cancel e
  let g := tokens.foldl (fun g t => (g.signal t (.cancelled reason)).2) { g with registry }
  match g.executions.get? e with
  | some x =>
    let g := if x.state = .submitting ∨ (tokens ≠ [] ∧ !x.state.isTerminal) then
        { g with executions := g.executions.insert e { x with state := .aborted, updatedAt := now } }
      else g
    (.ok tokens, g)
  | none =>
    if tokens.isEmpty then (.error (.executionNotFound e), g)
    else
      let x : Execution := { Execution.start e none now with state := .aborted, token := tokens.head? }
      (.ok tokens, { g with executions := g.executions.insert e x })

/-- The deadline of a handle came: its wait expires, or if it had ended before, the continuation is told so. -/
def onDeadline (g : Gate) (t : Token) (now : Instant) : Gate :=
  match g.registry.expire t now with
  | (.expired _, registry) => ({ g with registry }.signal t .expired).2
  | (_, registry) => { g with registry }.settle t

def close (g : Gate) (serial : Nat) : Gate := { g with handles := g.handles.erase serial }

def finish (g : Gate) (serial : Nat) (h : Handle) (s : Signal) (now : Instant) : Outcome WaitOutcome × Gate :=
  let g := g.close serial
  match s with
  | .decision d => match WaitOutcome.ofDecision? d with
    | none => (.error (.waitAbandoned h.token.text), g)
    | some outcome =>
      let g := { g with registry := g.registry.markDelivered h.token }
      (.ok outcome, g.transition h.execution outcome.state none now)
  | .expired => (.ok .timedOut, g.transition h.execution .timedOut none now)
  | .cancelled reason => (.error (.cancelled h.execution reason), g.transition h.execution .aborted none now)

/-- What a handle does with the mail it has: nothing without any. -/
def readMail (g : Gate) (serial : Nat) (h : Handle) (now : Instant) : Option (Outcome WaitOutcome) × Gate :=
  match h.mail with
  | .none => (none, g)
  | .lost => (some (.error (.waitAbandoned h.token.text)), g.close serial)
  | .signal s =>
    let (result, g) := g.finish serial h s now
    (some result, g)

/-- Polls a handle.  When its deadline has come the wait is ended by it, once, and the mail that follows is read; of a
deadline that has come and mail that is there either may be seen first, here the deadline if `timerFirst` is true.  The
answer is none while the handle stays parked. -/
def poll (g : Gate) (serial : Nat) (clock : Clock) (timerFirst : Bool := false) :
    Option (Outcome WaitOutcome) × Gate :=
  match g.handles.get? serial with
  | none => (none, g)
  | some h =>
    if h.isDue clock ∧ (h.mail = .none ∨ timerFirst) then
      let g := { g with handles := g.handles.insert serial { h with deadline := none } }.onDeadline h.token clock.now
      match g.handles.get? serial with
      | none => (none, g)
      | some h => g.readMail serial h clock.now
    else g.readMail serial h clock.now

/-- Drops a handle that is not done: its continuation goes, its execution is cancelled and, if known, aborted. -/
def drop (g : Gate) (serial : Nat) (now : Instant) : Gate :=
  match g.handles.get? serial with
  | none => g
  | some h =>
    let g := match g.waiters.get? h.token with
      | some w => if w.serial = serial then { g with waiters := g.waiters.erase h.token } else g
      | none => g
    let g := (g.cancelExecution h.execution "wait handle dropped" now).2
    (g.close serial).transitionKnown h.execution .aborted now

end ApprovalGate.Gate
