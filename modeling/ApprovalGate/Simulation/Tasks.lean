import ApprovalGate.Simulation.World
/-!
# Tasks

Handles in the hands of named tasks.  A fresh handle is polled at once, or lies unpolled until it is awaited; a task
ends with its handle.  Settling polls until nothing more happens.
-/
namespace ApprovalGate.Simulation.World

def pollTask (w : World) (t : Task) : World :=
  match w.gate.poll t.serial w.clock with
  | (none, gate) => { w with gate }
  | (some result, gate) =>
    { w with gate, tasks := w.tasks.filter fun u => u.serial != t.serial }.emit t.name (.ended result)

def await (w : World) (name : String) (serial : Nat) : World :=
  let (turn, w) := w.takeTurn
  let task : Task := { name, serial, turn }
  { w with tasks := w.tasks ++ [task] }.pollTask task

def dropHandle (w : World) (serial : Nat) : World := { w with gate := w.gate.drop serial w.clock.now }

def hold (w : World) (name : String) (serial : Nat) : World :=
  let previous := w.held.filter fun (n, _) => n == name
  let w := { w with held := w.held.filter (fun (n, _) => n != name) ++ [(name, serial)] }
  previous.foldl (fun w (_, s) => w.dropHandle s) w

/-- Announces a fresh handle, and lays it aside or awaits it. -/
def park (w : World) (name : String) (serial : Nat) (aside : Bool) : World :=
  match w.gate.handles.get? serial with
  | none => w
  | some h =>
    let left := h.deadline.map fun deadline => (deadline - w.clock.elapsed) / 1000000
    let w := w.emit name (.parked h.token h.execution left)
    if aside then w.hold name serial else w.await name serial

def pollAll (w : World) : World := w.tasks.foldl pollTask w

/-- Polls the tasks until nothing more happens.  Each round but the last ends a task, so their number bounds the
rounds. -/
def settleWithin : (rounds : Nat) → World → World
  | 0, w => w
  | rounds + 1, w =>
    let w' := w.pollAll
    if w'.tasks.length = w.tasks.length then w' else settleWithin rounds w'

def settle (w : World) : World := settleWithin (w.tasks.length + 1) w

def awaitHeld (w : World) (name : String) : Bool × World :=
  match w.held.find? fun (n, _) => n == name with
  | none => (false, w)
  | some (_, serial) => (true, { w with held := w.held.filter fun (n, _) => n != name }.await name serial)

def task? (w : World) (name : String) : Option Task := w.tasks.reverse.find? fun t => t.name == name

/-- Drops what goes by a name: a handle that lies aside, a task with its handle, or a run that waits for its answer;
whether there was one. -/
def dropNamed (w : World) (name : String) : Bool × World :=
  match w.held.find? fun (n, _) => n == name with
  | some (_, serial) => (true, { w with held := w.held.filter fun (n, _) => n != name }.dropHandle serial)
  | none => match w.task? name with
    | some t => (true, { w with tasks := w.tasks.filter fun u => u.serial != t.serial }.dropHandle t.serial)
    | none =>
      if w.flights.any fun f => f.name == name && !f.dropped then
        (true, { w with flights := w.flights.map fun f => if f.name == name then { f with dropped := true } else f })
      else (false, w)

end ApprovalGate.Simulation.World
