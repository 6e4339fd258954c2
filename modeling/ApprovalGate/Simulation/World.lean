import ApprovalGate.Callback.Receiver
import ApprovalGate.Gate.Run
import ApprovalGate.Gate.Sweep
/-!
# Worlds

A gate together with what is around it, without any real time or network: two clocks that move on command, a
change-control system with scripted answers, and the tasks that wait on handles under names.
-/
namespace ApprovalGate.Simulation

inductive Script where
  /-- An answer, which is held back until it is released if so wanted. -/
  | reply (reply : Reply) (held : Bool)
  | failure (cause : String)
deriving DecidableEq, Repr

structure Message where
  method : Method
  endpoint : Endpoint
  payload : Json
deriving DecidableEq, Repr

def Message.toJson (m : Message) : Json := .obj
  [("method", .str m.method.text), ("endpoint", m.endpoint.toJson), ("payload", m.payload)]

inductive Event where
  /-- It was obtained, with so many milliseconds left until its deadline. -/
  | parked (token : Token) (execution : ExecutionId) (left : Option Nat)
  | ended (result : Outcome WaitOutcome)
  | failed (failure : Failure)

/-- A named task that polls a handle.  Tasks are woken in the order of their deadlines, then of their turns. -/
structure Task where
  name : String
  serial : Nat
  turn : Nat
deriving DecidableEq, Repr

structure Flight where
  name : String
  execution : ExecutionId
  draft : Draft
  reply : Reply
  hold : Bool
  dropped : Bool
deriving DecidableEq, Repr

/-- A running processor: how often it makes a pass, and when the next one is due on the running clock. -/
structure Processor where
  interval : Span
  retention : Span
  next : Nat
  turn : Nat
deriving DecidableEq, Repr

/-- How a gate is opened, the first time and after every crash. -/
structure Blueprint where
  issuer : Issuer
  attached : Bool
  /-- The tool in whose name the tracker mints tokens. -/
  tracker : String
  tombstoneTtl : Span
  /-- Whether the store outlives a crash. -/
  durable : Bool
  /-- The random part of the first token that is minted, of the second, and so on. -/
  random : Nat → Uuid

structure World where
  blueprint : Blueprint
  clock : Clock
  gate : Gate
  opened : Nat
  /-- The working directory, while no store has it. -/
  disk : Disk
  held : List (String × Nat)
  tasks : List Task
  flights : List Flight
  scripts : List Script
  sent : List Message
  processor : Option Processor
  minted : List (String × JobId)
  /-- How many turns were given to timers so far. -/
  turns : Nat
  /-- What happened since it was last asked, in order. -/
  events : List (String × Event)

namespace World

def withRegistry (w : World) (registry : Registry) : World := { w with gate := { w.gate with registry } }

def emit (w : World) (name : String) (e : Event) : World := { w with events := w.events ++ [(name, e)] }

def uptime (w : World) : Nat := (w.clock.elapsed - w.opened) / 1000000000

def takeTurn (w : World) : Nat × World := (w.turns, { w with turns := w.turns + 1 })

/-- The events by name, those of one name in the order in which they happened; none are left. -/
def takeEvents (w : World) : List (String × Event) × World :=
  (w.events.mergeSort fun a b => !decide (b.1 < a.1), { w with events := [] })

def fresh (w : World) : Uuid := w.blueprint.random w.minted.length

def noteMinted (w : World) (tool : String) (job : JobId) : World := { w with minted := w.minted ++ [(tool, job)] }

/-- Mints a token for a job in the tracker's name. -/
def track (w : World) (job : JobId) : Token × World :=
  (Token.mint w.blueprint.tracker job w.fresh, w.noteMinted w.blueprint.tracker job)

end World
end ApprovalGate.Simulation
