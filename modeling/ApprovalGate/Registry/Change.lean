import ApprovalGate.Registry.Basic
/-!
# Changing a registry

The transitions of waits: a wait is registered pending and then ends once, by a decision, by its deadline or by being
cancelled.  What the store answers to a change of a registered wait is not heeded; only a registration that cannot be
stored fails.
-/
namespace ApprovalGate

/-- What an attempt to change a wait came to. -/
inductive Resolution where
  /-- The decision ended the wait of this execution. -/
  | resolved (execution : ExecutionId) (decision : Decision)
  /-- The deadline ended the wait of this execution. -/
  | expired (execution : ExecutionId)
  /-- An interim decision was noted. -/
  | updated (execution : ExecutionId)
  /-- The wait had ended before. -/
  | alreadyResolved (status : WaitStatus)
  | notFound
deriving DecidableEq, Repr

/-- The wait that a registration put an end to, and whose it was. -/
abbrev Superseded := Option (Token × ExecutionId)

namespace Registry

/-! ## Parts of a change -/

def save (g : Registry) (key : Token) (r : WaitRecord) : Registry :=
  { g with records := g.records.insert key r, store := (g.store.put r).2 }

def dropAliases (g : Registry) (tokens : List Token) : Registry :=
  { g with aliases := g.aliases.filter fun _ t => decide (t ∉ tokens) }

def dropJobs (g : Registry) (tokens : List Token) : Registry :=
  { g with jobs := g.jobs.filter fun _ t => decide (t ∉ tokens) }

def dropRecord (g : Registry) (t : Token) : Registry :=
  { g with records := g.records.erase t, store := (g.store.delete t).2 }

/-- The registry without some records and everything that leads to them. -/
def dropAll (g : Registry) (tokens : List Token) : Registry :=
  ((tokens.foldl dropRecord g).dropJobs tokens).dropAliases tokens

/-- Changes the pending record that a token addresses. -/
def changePending (g : Registry) (t : Token) (change : WaitRecord → WaitRecord) (answer : WaitRecord → Resolution) :
    Resolution × Registry :=
  match g.find? t with
  | none => (.notFound, g)
  | some (key, r) => match r.status with
    | .pending => (answer r, g.save key (change r))
    | .cancelled => (.notFound, g)
    | status => (.alreadyResolved status, g)

/-! ## Registering -/

/-- Makes a token's wait the current one of a job.  A wait that was current under another token and is still pending
is over. -/
def takeJob (g : Registry) (job : JobId) (t : Token) : Superseded × Registry :=
  let previous := (g.jobs.get? job).filter fun p => decide (p ≠ t)
  let g := { g with jobs := g.jobs.insert job t }
  match previous with
  | none => (none, g)
  | some p => match g.records.get? p with
    | none => (none, g)
    | some r =>
      if r.isPending then (some (p, r.wait.execution), (g.dropRecord p).dropAliases [p])
      else (none, g)

/-- Takes up a wait as pending.  A pending wait under the same token stands in its way; a tombstone is replaced. -/
def register (g : Registry) (w : Wait) : Outcome Superseded × Registry :=
  let r := WaitRecord.ofWait { w with status := .pending }
  match g.records.get? w.token with
  | some existing =>
    if existing.isPending then (.error (.duplicateToken w.token.text), g) else store g r
  | none => store g r
where
  /-- Stores the record, then lets it take its place, its job and its alias. -/
  store (g : Registry) (r : WaitRecord) : Outcome Superseded × Registry :=
    match g.store.put r with
    | (.error failure, store) => (.error failure, { g with store })
    | (.ok (), store) =>
      let t := r.token
      let g := { g with store, records := g.records.insert t r }
      let (superseded, g) := match r.wait.job with
        | some job => g.takeJob job t
        | none => (none, g)
      let g := match r.wait.aliasToken with
        | some a => if a = t then g else { g with aliases := g.aliases.insert a t }
        | none => g
      (.ok superseded, g)

/-! ## Ending a wait -/

def noteUpdate (g : Registry) (t : Token) (d : Decision) : Resolution × Registry :=
  g.changePending t (fun r => { r with lastUpdate := some d }) fun r => .updated r.wait.execution

/-- Ends a pending wait by a final decision, or notes an interim one. -/
def resolve (g : Registry) (t : Token) (d : Decision) : Resolution × Registry :=
  if d.verdict.isTerminal then
    g.changePending t (fun r => { r.finish .resolved d.receivedAt with decision := some d })
      fun r => .resolved r.wait.execution d
  else g.noteUpdate t d

def expire (g : Registry) (t : Token) (now : Instant) : Resolution × Registry :=
  g.changePending t (fun r => r.finish .expired now) fun r => .expired r.wait.execution

/-- Ends every pending wait of an execution and forgets it. -/
def cancel (g : Registry) (e : ExecutionId) : List Token × Registry :=
  let tokens := (g.records.entries.filter fun (_, r) => r.isPending && decide (r.wait.execution = e)).map Prod.fst
  (tokens, if tokens.isEmpty then g else g.dropAll tokens)

def remove (g : Registry) (t : Token) : Option WaitRecord × Registry :=
  match g.records.get? t with
  | none => (none, g)
  | some r => (some r, g.dropAll [t])

/-! ## Handing decisions over -/

/-- Takes the decision on a wait, once. -/
def takeDecision (g : Registry) (t : Token) : Option Decision × Registry :=
  match g.find? t with
  | none => (none, g)
  | some (key, r) =>
    if r.delivered then (none, g)
    else match r.decision with
      | none => (none, g)
      | some d => (some d, g.save key { r with delivered := true })

def markDelivered (g : Registry) (t : Token) : Registry :=
  match g.find? t with
  | none => g
  | some (key, r) =>
    if r.decision.isSome && !r.delivered then g.save key { r with delivered := true } else g

/-! ## Sweeping -/

def isStale (ttl : Span) (now : Instant) (r : WaitRecord) : Bool :=
  r.status.isTerminal && match r.finishedAt.bind now.since? with
    | some age => decide (ttl ≤ age)
    | none => false

def sweep (g : Registry) (now : Instant) : Nat × Registry :=
  let stale := (g.records.entries.filter fun (_, r) => isStale g.tombstoneTtl now r).map Prod.fst
  (stale.length, if stale.isEmpty then g else g.dropAll stale)

end Registry
end ApprovalGate
