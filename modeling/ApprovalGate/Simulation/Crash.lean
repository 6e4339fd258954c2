import ApprovalGate.Registry.Open
import ApprovalGate.Simulation.World
/-!
# Opening and crashing

A world is opened on a store.  A crash loses everything that is not in a lasting one, and a new gate opens on what is;
if it cannot be opened, the old gate lives on.
-/
namespace ApprovalGate.Simulation.World

def openRegistry (b : Blueprint) (store : Store) : Outcome Unit × Registry :=
  if b.durable then Registry.openStore store b.tombstoneTtl .byText
  else (.ok (), { Registry.empty with tombstoneTtl := b.tombstoneTtl })

def startGate (b : Blueprint) (registry : Registry) : Gate :=
  .start registry (if b.attached then some b.issuer else none)

def around (b : Blueprint) (clock : Clock) (registry : Registry) (disk : Disk) : World :=
  { blueprint := b, clock, gate := startGate b registry, opened := clock.elapsed, disk, held := [], tasks := []
    flights := [], scripts := [], sent := [], processor := none, minted := [], turns := 0, events := [] }

def start (b : Blueprint) (now : Instant) (store : Store) (disk : Disk) : Outcome World :=
  match openRegistry b store with
  | (.error failure, _) => .error failure
  | (.ok (), registry) => .ok (around b ⟨now, 0⟩ registry disk)

/-! ## The working directory -/

def files (w : World) : Disk :=
  match w.gate.registry.store.medium with
  | .file _ _ disk => disk
  | .memory _ => w.disk

def withFiles (w : World) (disk : Disk) : World :=
  let store := w.gate.registry.store
  match store.medium with
  | .file path copy _ => w.withRegistry { w.gate.registry with store := { store with medium := .file path copy disk } }
  | .memory _ => { w with disk }

/-- The world whose store turns down some operations; what is not lasting is no store that could. -/
def refuse (w : World) (refuses : Refusals) : World :=
  if w.blueprint.durable then
    w.withRegistry { w.gate.registry with store := { w.gate.registry.store with refuses } }
  else w

/-! ## Crashes -/

/-- The medium of a store after another one was opened on the same medium: shared memory and disks keep what the other
did, a copy of records is the store's own. -/
def share (mine other : Medium) : Medium :=
  match mine, other with
  | .file path copy _, .file _ _ disk => .file path copy disk
  | _, other => other

def crash (w : World) : Outcome Unit × World :=
  let store := w.gate.registry.store
  match store.reopen with
  | .error failure => (.error failure, w)
  | .ok reopened => match openRegistry w.blueprint reopened with
    | (.error failure, registry) =>
      (.error failure, w.withRegistry { w.gate.registry with
        store := { store with medium := share store.medium registry.store.medium } })
    | (.ok (), registry) =>
      (.ok (), { around w.blueprint w.clock registry w.disk with minted := w.minted, turns := w.turns })

end ApprovalGate.Simulation.World
