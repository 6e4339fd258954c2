import ApprovalGate.Proofs.Registry.Adopted
/-!
# The indexes that opening builds

The job index and the aliases are not stored.  Opening a store rebuilds them from the records alone, one after the
other in the order in which they are listed: a job leads to the newest of its waits, to the first of those that are
equally new (`Newest`), and an alias to the last of the waits that carry it (`LastCarrier`).  From a file that is the
order of the tokens' texts, and from memory it can be any (`openStore_true`).
-/
namespace ApprovalGate

namespace WaitRecord

variable {order : TokenOrder}

def InOrder (order : TokenOrder) (r q : WaitRecord) : Prop := order.le r.token q.token = true

/-- Whether a record goes before another for their job: it is newer, or as new and listed first. -/
def Precedes (order : TokenOrder) (r q : WaitRecord) : Prop :=
  q.wait.createdAt < r.wait.createdAt ∨ ¬r.wait.createdAt < q.wait.createdAt ∧ r.InOrder order q

theorem inOrder_refl (r : WaitRecord) : r.InOrder order r := by
  simpa [InOrder] using order.total r.token r.token

/-- What a record is ranked by among those of its job. -/
def rank (r : WaitRecord) : Token × Option JobId × Instant := (r.token, r.wait.job, r.wait.createdAt)

theorem Precedes.congr {r r' q q' : WaitRecord} (h : r.Precedes order q) (hr : r.rank = r'.rank)
    (hq : q.rank = q'.rank) : r'.Precedes order q' := by
  have token : ∀ {r r' : WaitRecord}, r.rank = r'.rank → r.token = r'.token := fun h => congrArg Prod.fst h
  have created : ∀ {r r' : WaitRecord}, r.rank = r'.rank → r.wait.createdAt = r'.wait.createdAt := fun h =>
    congrArg (·.2.2) h
  rw [Precedes, InOrder] at h ⊢
  rw [← token hr, ← token hq, ← created hr, ← created hq]
  exact h

theorem precedes_refl (r : WaitRecord) : r.Precedes order r :=
  show r.Outranks (InOrder order) r from outranks_refl r.inOrder_refl

theorem Precedes.antisymm {r q : WaitRecord} (h : r.Precedes order q) (h' : q.Precedes order r) :
    r.token = q.token := by
  rw [Precedes] at h h'
  simp only [Instant.lt_iff] at h h'
  rcases h with h | ⟨h, ht⟩
  · rcases h' with h' | ⟨h', -⟩ <;> omega
  · rcases h' with h' | ⟨-, ht'⟩
    · omega
    · exact order.antisymm ht ht'

end WaitRecord

namespace Registry

variable {order : TokenOrder}

/-- Whether a token has the wait of a job that goes before all others of it. -/
def Newest (g : Registry) (order : TokenOrder) (job : JobId) (t : Token) : Prop :=
  ∃ r, g.records.get? t = some r ∧ r.wait.job = some job ∧
    ∀ u q, g.records.get? u = some q → q.wait.job = some job → r.Precedes order q

/-- Whether a token has the last of the waits that carry an alias. -/
def LastCarrier (g : Registry) (order : TokenOrder) (a t : Token) : Prop :=
  ∃ r, g.records.get? t = some r ∧ r.wait.aliasToken = some a ∧
    ∀ u q, g.records.get? u = some q → q.wait.aliasToken = some a → q.InOrder order r

theorem Newest.unique {g : Registry} {job : JobId} {t u : Token} (s : g.Sound) (h : g.Newest order job t)
    (h' : g.Newest order job u) : t = u := by
  obtain ⟨r, hr, hj, hp⟩ := h
  obtain ⟨q, hq, hj', hp'⟩ := h'
  rw [← s.keyed hr, ← s.keyed hq]
  exact (hp u q hq hj').antisymm (hp' t r hr hj)

theorem LastCarrier.unique {g : Registry} {a t u : Token} (s : g.Sound) (h : g.LastCarrier order a t)
    (h' : g.LastCarrier order a u) : t = u := by
  obtain ⟨r, hr, ha, hp⟩ := h
  obtain ⟨q, hq, ha', hp'⟩ := h'
  rw [← s.keyed hr, ← s.keyed hq]
  exact order.antisymm (hp' t r hr ha) (hp u q hq ha')

/-! ## Indexes that say what the records say -/

/-- Whether every job leads to the newest of its waits, and no other job to any. -/
def JobsTrue (g : Registry) (order : TokenOrder) : Prop :=
  ∀ job t, g.jobs.get? job = some t ↔ g.Newest order job t

/-- Whether every alias that is no token of its own leads to the last of the waits that carry it. -/
def AliasesTrue (g : Registry) (order : TokenOrder) : Prop :=
  ∀ a t, g.records.get? a = none → (g.aliases.get? a = some t ↔ g.LastCarrier order a t)

theorem Adopted.jobsTrue {rs : List WaitRecord} {g : Registry} (a : Adopted (WaitRecord.InOrder order) rs g)
    (s : g.Sound) : g.JobsTrue order := by
  have newest : ∀ job t, g.jobs.get? job = some t → g.Newest order job t := fun job t h => by
    obtain ⟨r, hr, hrt, hj, hp⟩ := a.newest job t h
    exact ⟨r, (a.records t r).2 ⟨hr, hrt⟩, hj, fun u q hu => hp q ((a.records u q).1 hu).1⟩
  refine fun job t => ⟨newest job t, fun h => ?_⟩
  obtain ⟨r, hr, hj, -⟩ := id h
  obtain ⟨u, hu⟩ := Option.isSome_iff_exists.1 (a.tracked r ((a.records t r).1 hr).1 job hj)
  rw [hu, (newest job u hu).unique s h]

theorem Adopted.aliasesTrue {rs : List WaitRecord} {g : Registry} (a : Adopted (WaitRecord.InOrder order) rs g)
    (s : g.Sound) : g.AliasesTrue order := by
  have last : ∀ b t, g.aliases.get? b = some t → g.LastCarrier order b t := fun b t h => by
    obtain ⟨r, hr, hrt, hb, hp⟩ := a.last b t h
    exact ⟨r, (a.records t r).2 ⟨hr, hrt⟩, hb, fun u q hu => hp q ((a.records u q).1 hu).1⟩
  refine fun b t _ => ⟨last b t, fun h => ?_⟩
  obtain ⟨r, hr, hb, -⟩ := id h
  obtain ⟨u, hu⟩ := Option.isSome_iff_exists.1 (a.led r ((a.records t r).1 hr).1 b hb)
  rw [hu, (last b u hu).unique s h]

/-- **Opening builds indexes that are true in the order in which the store lists its records.** -/
theorem openStore_true {store : Store} (hm : store.Made) {ttl : Span} {happens : TokenOrder} {g : Registry}
    (ho : openStore store ttl happens = (.ok (), g)) :
    g.JobsTrue (store.listing happens) ∧ g.AliasesTrue (store.listing happens) := by
  have s := openStore_sound ho
  have a : Adopted (WaitRecord.InOrder (store.listing happens))
      (live (store.records.sortedBy (store.listing happens))) g :=
    adopted_of_openListed WaitRecord.inOrder_refl (Records.nodup_sortedBy hm.sound _)
      ((Records.pairwise_sortedBy store.records _).filter _) (openStore_ok ho).2
  exact ⟨a.jobsTrue s, a.aliasesTrue s⟩

/-- A job that has waits has a newest one. -/
theorem exists_newest {g : Registry} (s : g.Sound) {job : JobId} {u : Token} {q : WaitRecord}
    (hu : g.records.get? u = some q) (hq : q.wait.job = some job) : ∃ t, g.Newest order job t := by
  have hs : Records.Sound g.records := ⟨s.records, s.keyed⟩
  have a : Adopted (WaitRecord.InOrder order) (g.records.sortedBy order) _ := adopted_foldl WaitRecord.inOrder_refl
    g.store g.tombstoneTtl (Records.nodup_sortedBy hs order) (Records.pairwise_sortedBy g.records order)
  have listed {t r} : r ∈ g.records.sortedBy order ∧ r.token = t ↔ g.records.get? t = some r :=
    Records.mem_sortedBy_iff_get? hs
  obtain ⟨t, ht⟩ := Option.isSome_iff_exists.1 (a.tracked q (listed.2 hu).1 job hq)
  obtain ⟨r, hr, hrt, hj, hp⟩ := a.newest job t ht
  exact ⟨t, r, listed.1 ⟨hr, hrt⟩, hj, fun v p hv => hp p (listed.2 hv).1⟩

end Registry
end ApprovalGate
