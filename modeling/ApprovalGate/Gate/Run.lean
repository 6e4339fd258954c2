import ApprovalGate.Gate.Attach
/-!
# Running an execution

A run submits a change request and parks its execution on the wait for the decision.  It has two halves, before and
after the exchange with the change-control system; in between the execution can be cancelled.
-/
namespace ApprovalGate.Gate

/-- The first half: the execution is submitting, and its request is written out.  A request that cannot be sent ends
it. -/
def beginRun (g : Gate) (e : ExecutionId) (r : ChangeRequest) (random : Uuid) (now : Instant) :
    Outcome Draft × Gate :=
  match g.issuer with
  | none => (.error (.configValue "issuer" "orchestrator has no issuer attached"), g)
  | some issuer =>
    let g := { g with executions := g.executions.insert e (.start e (some r.job) now) }
    match issuer.draft r random with
    | .error failure => (.error failure, g.transition e .commFailure none now)
    | .ok d => (.ok d, g)

/-- Wakes the continuation of a wait that a registration put an end to, and aborts its execution. -/
def supersede (g : Gate) (superseded : Superseded) (now : Instant) : Gate :=
  match superseded with
  | none => g
  | some (t, owner) =>
    (g.signal t (.cancelled "superseded by a newer change request for the job")).2.transition owner .aborted none now

/-- The second half: the answer registers the wait, and the execution is parked on it, unless it was cancelled
meanwhile. -/
def finishRun (g : Gate) (e : ExecutionId) (d : Draft) (reply : Outcome Reply) (clock : Clock) : Outcome Nat × Gate :=
  match Issuer.complete g.registry d e clock.now reply with
  | (.error failure, registry) => (.error failure, { g with registry }.transition e .commFailure none clock.now)
  | (.ok s, registry) =>
    let g := { g with registry }.supersede s.superseded clock.now
    if g.state? e = some .aborted then
      let (_, registry) := g.registry.cancel e
      (.error (.cancelled e "cancelled during submission"), { g with registry })
    else
      let deadline := s.timeout.map fun timeout => clock.elapsed + timeout.nanos
      let (serial, g) := g.attach e s.token deadline clock.now
      (.ok serial, g)

end ApprovalGate.Gate
