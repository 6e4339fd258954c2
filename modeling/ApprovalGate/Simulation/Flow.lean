import ApprovalGate.Simulation.Tasks
/-!
# The flow of time

Both clocks move together, and what is due on the way happens in the order of its time: deadlines of awaited handles
and passes of the processor.  The time of day can also be set alone, which wakes nobody.
-/
namespace ApprovalGate.Simulation.World

inductive Alarm where
  | deadline (t : Task)
  | pass
deriving DecidableEq, Repr

/-- A pass of the processor.  The next one is due an interval later. -/
def pass (w : World) : World :=
  match w.processor with
  | none => w
  | some p =>
    let (_, gate) := w.gate.process w.clock.now p.retention
    let (turn, w) := w.takeTurn
    { w with gate, processor := some { p with next := w.clock.elapsed + p.interval.nanos, turn } }

def startProcessor (w : World) (interval retention : Span) : World :=
  { w with processor := some { interval, retention, next := w.clock.elapsed, turn := w.turns } }.pass

def due (w : World) : List (Nat × Nat × Alarm) :=
  let deadlines := w.tasks.filterMap fun t =>
    (w.gate.handles.get? t.serial).bind fun h => (h.deadline.filter fun d => d ≤ w.clock.elapsed).map fun d =>
      (d, t.turn, Alarm.deadline t)
  let passes := match w.processor with
    | some p => if p.next ≤ w.clock.elapsed then [(p.next, p.turn, Alarm.pass)] else []
    | none => []
  (deadlines ++ passes).mergeSort fun a b => a.1 < b.1 || (a.1 == b.1 && a.2.1 ≤ b.2.1)

def ring (w : World) : Alarm → World
  | .deadline t => w.pollTask t
  | .pass => w.pass

/-- Moves both clocks and lets happen what is due. -/
def advance (w : World) (ms : Nat) : World :=
  let clock : Clock := {
    now := (w.clock.now.add? (.ofMillis ms)).getD w.clock.now
    elapsed := w.clock.elapsed + ms * 1000000 }
  let w := { w with clock }
  w.due.foldl (fun w (_, _, alarm) => w.ring alarm) w

def setTime (w : World) (now : Instant) : World := { w with clock := { w.clock with now } }

end ApprovalGate.Simulation.World
