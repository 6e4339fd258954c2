import ApprovalGate.Store.Basic
/-!
# Registries

The waits that a gate knows, each under its token, with the current wait of each job and the second addresses of waits.
Every change goes through to the store.  A finished wait stays as a tombstone for a while, so that late deliveries
can be told from unknown ones.
-/
namespace ApprovalGate

structure Registry where
  records : Records
  jobs : Table JobId Token
  aliases : Table Token Token
  store : Store
  tombstoneTtl : Span
deriving DecidableEq, Inhabited

namespace Registry

def defaultTtl : Span := .ofSeconds 3600

def empty : Registry := ⟨Table.empty, Table.empty, Table.empty, .memory, defaultTtl⟩

/-! ## Looking up -/

/-- The token under which the registry holds what a token or an alias addresses, and the record there. -/
def find? (g : Registry) (t : Token) : Option (Token × WaitRecord) :=
  match g.records.get? t with
  | some r => some (t, r)
  | none => match g.aliases.get? t with
    | none => none
    | some target => (g.records.get? target).map fun r => (target, r)

def get? (g : Registry) (t : Token) : Option WaitRecord := (g.find? t).map Prod.snd

/-- The token itself if it has a record, else the one it is an alias of, else itself. -/
def canonical (g : Registry) (t : Token) : Token :=
  if g.records.contains t then t else (g.aliases.get? t).getD t

def owner? (g : Registry) (t : Token) : Option ExecutionId := (g.get? t).map fun r => r.wait.execution

def jobToken? (g : Registry) (job : JobId) : Option Token := g.jobs.get? job

def jobDecision? (g : Registry) (job : JobId) : Option Decision :=
  ((g.jobToken? job).bind g.get?).bind fun r => r.decision

/-- Whether a job's current wait is pending, or has a decision that nobody has collected. -/
def isTracked (g : Registry) (job : JobId) : Bool :=
  match (g.jobToken? job).bind g.get? with
  | none => false
  | some r => match r.status with
    | .pending => true
    | .resolved => !r.delivered
    | .expired | .cancelled => false

def pending (g : Registry) : List Wait := (g.records.values.filter WaitRecord.isPending).map WaitRecord.wait

def overdue (g : Registry) (now : Instant) : List Token :=
  (g.records.entries.filter fun (_, r) => r.isPending && r.wait.isExpiredAt now).map Prod.fst

def pendingCount (g : Registry) : Nat := (g.records.values.filter WaitRecord.isPending).length

def size (g : Registry) : Nat := g.records.size

def isEmpty (g : Registry) : Bool := g.records.isEmpty

def text (g : Registry) : String :=
  Text.labelled "CorrelationRegistry" [("records", toString g.size), ("store", Text.quote g.store.kind),
    ("tombstone_ttl", g.tombstoneTtl.text)]

end Registry
end ApprovalGate
