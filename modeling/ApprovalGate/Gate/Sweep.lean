import ApprovalGate.Gate.Attach
/-!
# Sweeping

Waits that nobody is parked on expire when they are overdue, and what is finished is forgotten after a while.
-/
namespace ApprovalGate.Gate

/-- What the time of day is read as while waits expire: when the wait under a token is finished, and when the execution
that loses a wait is updated, which it is once. -/
structure Readings where
  finished : Token → Instant
  updated : ExecutionId → Instant

/-- The readings of a clock that stands still. -/
def Readings.still (now : Instant) : Readings := ⟨fun _ => now, fun _ => now⟩

instance : Coe Instant Readings := ⟨.still⟩

/-- Expires a wait on which no continuation is parked; whether it did. -/
def expireOrphan (g : Gate) (t : Token) (c : Readings) : Bool × Gate :=
  if g.hasWaiter t then (false, g)
  else match g.registry.expire t (c.finished t) with
    | (.expired e, registry) =>
      (true, ({ g with registry }.signal t .expired).2.transitionKnown e .timedOut (c.updated e))
    | (_, registry) => (false, { g with registry })

def expireOrphans (g : Gate) (c : Readings) : List Token → Nat × Gate
  | [] => (0, g)
  | t :: ts =>
    let (did, g) := g.expireOrphan t c
    let (count, g) := expireOrphans g c ts
    (count + if did then 1 else 0, g)

/-- Expires every wait that is overdue at an instant and on which no continuation is parked. -/
def expireOverdue (g : Gate) (at' : Instant) (c : Readings) : Nat × Gate :=
  g.expireOrphans c (g.registry.overdue at')

def isForgettable (retention : Span) (now : Instant) (x : Execution) : Bool :=
  x.state.isTerminal && match now.since? x.updatedAt with
    | some age => decide (retention ≤ age)
    | none => false

def sweepFinished (g : Gate) (now : Instant) (retention : Span) : Nat × Gate :=
  let kept := g.executions.filter fun _ x => !isForgettable retention now x
  (g.executions.size - kept.size, { g with executions := kept })

structure SweepReport where
  expired : Nat
  tombstones : Nat
  executions : Nat
deriving DecidableEq, Repr

def defaultRetention : Span := .ofSeconds 3600

/-- One pass over everything that time has brought to an end by an instant.  What expires is noted with what the clock
reads by then. -/
def process (g : Gate) (now : Instant) (retention : Span) (c : Readings := .still now) : SweepReport × Gate :=
  let (expired, g) := g.expireOverdue now c
  let (tombstones, registry) := g.registry.sweep now
  let (executions, g) := { g with registry }.sweepFinished now retention
  ({ expired, tombstones, executions }, g)

end ApprovalGate.Gate
