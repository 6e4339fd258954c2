import ApprovalGate.Registry.Basic
/-!
# Opening a registry

A registry is rebuilt from the records of its store.  The newest wait of a job becomes its current one, and waits that
were cancelled are deleted.
-/
namespace ApprovalGate.Registry

/-- Whether a wait is newer than the one that is current for its job so far. -/
def isNewer (g : Registry) (w : Wait) (job : JobId) : Bool :=
  match (g.jobs.get? job).bind g.records.get? with
  | some r => decide (r.wait.createdAt < w.createdAt)
  | none => true

/-- The registry with one more record of its store. -/
def adopt (g : Registry) (r : WaitRecord) : Registry :=
  let jobs := match r.wait.job with
    | some job => if g.isNewer r.wait job then g.jobs.insert job r.token else g.jobs
    | none => g.jobs
  let aliases := match r.wait.aliasToken with
    | some a => g.aliases.insert a r.token
    | none => g.aliases
  { g with jobs, aliases, records := g.records.insert r.token r }

/-- Adopts records one after the other, up to the first cancelled one that cannot be deleted. -/
def adoptAll (g : Registry) : List WaitRecord → Outcome Unit × Registry
  | [] => (.ok (), g)
  | r :: rs =>
    if r.status = .cancelled then
      match g.store.delete r.token with
      | (.error failure, store) => (.error failure, { g with store })
      | (.ok (), store) => adoptAll { g with store } rs
    else adoptAll (g.adopt r) rs

/-- The registry of the records that a store lists.  On a failure it holds what the store has become. -/
def openListed (store : Store) (ttl : Span) (rs : List WaitRecord) : Outcome Unit × Registry :=
  adoptAll ⟨Table.empty, Table.empty, Table.empty, store, ttl⟩ rs

/-- The registry of the records in a store, listed in the order that memory happens to have. -/
def openStore (store : Store) (ttl : Span) (happens : TokenOrder) : Outcome Unit × Registry :=
  match store.load happens with
  | .error failure => (.error failure, ⟨Table.empty, Table.empty, Table.empty, store, ttl⟩)
  | .ok records => openListed store ttl records

end ApprovalGate.Registry
