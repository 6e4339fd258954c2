import ApprovalGate.Proofs.Registry.Adopted
/-!
# Opening on a list of records

A store may list its records in any order.  Whatever the order, the registry that is opened on the list has the records
that were not cancelled and deletes the others from the store, each job leads to one of the newest of its waits and each
alias to one of the waits that carry it (`Rebuilt`).  Which one it is can depend on the order: of waits that are equally
new the first one listed is current (`leads_to_first`), and of the carriers of an alias it is the last one
(`leads_to_last`).  So the order does not matter exactly when there is only one to choose (`Unambiguous`,
`indexes_rebuilt`).
-/
namespace ApprovalGate

namespace Instant

theorem le_iff_not_lt {a b : Instant} : a ≤ b ↔ ¬b < a := by
  show a.second < b.second ∨ a.second = b.second ∧ a.nano ≤ b.nano ↔ _
  rw [lt_iff]
  omega

theorem le_antisymm {a b : Instant} (h : a ≤ b) (h' : b ≤ a) : a = b := by
  rw [le_iff_not_lt, lt_iff] at h h'
  have hs : a.second = b.second := by omega
  have hn : a.nano = b.nano := by omega
  cases a
  cases b
  cases hs
  cases hn
  rfl

end Instant

theorem WaitRecord.Outranks.createdAt_le {before : WaitRecord → WaitRecord → Prop} {r q : WaitRecord}
    (h : r.Outranks before q) : q.wait.createdAt ≤ r.wait.createdAt := by
  rw [Outranks] at h
  rw [Instant.le_iff_not_lt]
  simp only [Instant.lt_iff] at h ⊢
  omega

namespace Registry

/-- A registry that was opened on a list of records of a store. -/
structure Rebuilt (store : Store) (ttl : Span) (rs : List WaitRecord) (g : Registry) : Prop where
  records : ∀ t r, g.records.get? t = some r ↔ r ∈ live rs ∧ r.token = t
  newest : ∀ job t, g.jobs.get? job = some t → ∃ r ∈ live rs, r.token = t ∧ r.wait.job = some job ∧
    ∀ q ∈ live rs, q.wait.job = some job → q.wait.createdAt ≤ r.wait.createdAt
  tracked : ∀ r ∈ live rs, ∀ job, r.wait.job = some job → (g.jobs.get? job).isSome = true
  carrier : ∀ a t, g.aliases.get? a = some t → ∃ r ∈ live rs, r.token = t ∧ r.wait.aliasToken = some a
  led : ∀ r ∈ live rs, ∀ a, r.wait.aliasToken = some a → (g.aliases.get? a).isSome = true
  store : g.store = store.without (cancelled rs)
  ttl : g.tombstoneTtl = ttl

/-- Whether two registries have the same records, indexes and store. -/
structure Alike (g h : Registry) : Prop where
  records : ∀ t, h.records.get? t = g.records.get? t
  jobs : ∀ job, h.jobs.get? job = g.jobs.get? job
  aliases : ∀ a, h.aliases.get? a = g.aliases.get? a
  store : h.store = g.store
  ttl : h.tombstoneTtl = g.tombstoneTtl

/-- Whether no two records have the same claim to a job or to an alias: two waits of a job that were created at the same
time are one, unless the job has a newer one, and an alias is carried by one wait only. -/
structure Unambiguous (rs : List WaitRecord) : Prop where
  jobs : ∀ r ∈ rs, ∀ q ∈ rs, ∀ job, r.wait.job = some job → q.wait.job = some job →
    r.wait.createdAt = q.wait.createdAt →
    r = q ∨ ∃ p ∈ rs, p.wait.job = some job ∧ r.wait.createdAt < p.wait.createdAt
  aliases : ∀ r ∈ rs, ∀ q ∈ rs, ∀ a, r.wait.aliasToken = some a → q.wait.aliasToken = some a → r = q

variable {store : Store} {ttl : Span} {rs rs' : List WaitRecord} {g g' : Registry}

/-- **Whatever the order, opening rebuilds the indexes.** -/
theorem rebuilt_of_openListed (distinct : (rs.map WaitRecord.token).Nodup)
    (ho : openListed store ttl rs = (.ok (), g)) : g.Rebuilt store ttl rs := by
  have a : Adopted (fun _ _ => True) (live rs) g := adopted_of_openListed (fun _ => trivial) distinct
    (List.pairwise_of_forall fun _ _ => trivial) ho
  obtain ⟨hstore, httl⟩ := openListed_rest ho
  refine ⟨a.records, fun job t h => ?_, a.tracked, fun b t h => ?_, a.led, hstore, httl⟩
  · obtain ⟨r, hr, hrt, hj, hp⟩ := a.newest job t h
    exact ⟨r, hr, hrt, hj, fun q hq hqj => (hp q hq hqj).createdAt_le⟩
  · obtain ⟨r, hr, hrt, hb, -⟩ := a.last b t h
    exact ⟨r, hr, hrt, hb⟩

/-! ## When the order matters -/

theorem mem_live_perm (h : rs'.Perm rs) (r : WaitRecord) : r ∈ live rs' ↔ r ∈ live rs := (h.filter _).mem_iff

theorem mem_cancelled_perm (h : rs'.Perm rs) (t : Token) : t ∈ cancelled rs' ↔ t ∈ cancelled rs :=
  ((h.filter _).map _).mem_iff

theorem Unambiguous.of_mem (one : Unambiguous rs) (h : ∀ r, r ∈ rs' ↔ r ∈ rs) : Unambiguous rs' := by
  obtain ⟨jobs, aliases⟩ := one
  simp only [← h] at jobs aliases
  exact ⟨jobs, aliases⟩

theorem Rebuilt.same_job (one : Unambiguous (live rs)) (mem : ∀ r, r ∈ live rs' ↔ r ∈ live rs)
    (b : g.Rebuilt store ttl rs) (b' : g'.Rebuilt store ttl rs') {job : JobId} {t : Token}
    (h : g.jobs.get? job = some t) : g'.jobs.get? job = some t := by
  obtain ⟨r, hr, rfl, hj, hp⟩ := b.newest job t h
  obtain ⟨u, hu⟩ := Option.isSome_iff_exists.1 (b'.tracked r ((mem r).2 hr) job hj)
  obtain ⟨q, hq, rfl, hj', hp'⟩ := b'.newest job u hu
  have hq := (mem q).1 hq
  -- each of the two is as new as the other, and none is newer
  have same := Instant.le_antisymm (hp' r ((mem r).2 hr) hj) (hp q hq hj')
  rcases one.jobs r hr q hq job hj hj' same with rfl | ⟨p, hpm, hpj, hlt⟩
  · exact hu
  · exact absurd hlt (Instant.le_iff_not_lt.1 (hp p hpm hpj))

theorem Rebuilt.same_alias (one : Unambiguous (live rs)) (mem : ∀ r, r ∈ live rs' ↔ r ∈ live rs)
    (b : g.Rebuilt store ttl rs) (b' : g'.Rebuilt store ttl rs') {a t : Token}
    (h : g.aliases.get? a = some t) : g'.aliases.get? a = some t := by
  obtain ⟨r, hr, rfl, ha⟩ := b.carrier a t h
  obtain ⟨u, hu⟩ := Option.isSome_iff_exists.1 (b'.led r ((mem r).2 hr) a ha)
  obtain ⟨q, hq, rfl, ha'⟩ := b'.carrier a u hu
  rw [one.aliases r hr q ((mem q).1 hq) a ha ha']
  exact hu

/-- **Whatever the order, an unambiguous list is opened as the same registry.** -/
theorem Rebuilt.alike (one : Unambiguous (live rs)) (perm : rs'.Perm rs) (b : g.Rebuilt store ttl rs)
    (b' : g'.Rebuilt store ttl rs') : Alike g g' := by
  have mem := mem_live_perm perm
  have mem' : ∀ r, r ∈ live rs ↔ r ∈ live rs' := fun r => (mem r).symm
  have one' := one.of_mem mem
  refine ⟨fun t => Option.ext fun r => ?_, fun job => Option.ext fun t => ?_, fun a => Option.ext fun t => ?_, ?_,
    b'.ttl.trans b.ttl.symm⟩
  · rw [b.records, b'.records, mem]
  · exact ⟨b'.same_job one' mem' b, b.same_job one mem b'⟩
  · exact ⟨b'.same_alias one' mem' b, b.same_alias one mem b'⟩
  · rw [b.store, b'.store, Store.without_congr store (mem_cancelled_perm perm)]

/-- **Of the newest waits of a job the first one listed is current.** -/
theorem leads_to_first {r : WaitRecord} (distinct : ((r :: rs).map WaitRecord.token).Nodup)
    (ho : openListed store ttl (r :: rs) = (.ok (), g)) (hr : r ∈ live (r :: rs)) {job : JobId}
    (hj : r.wait.job = some job)
    (hp : ∀ q ∈ live (r :: rs), q.wait.job = some job → ¬r.wait.createdAt < q.wait.createdAt) :
    g.jobs.get? job = some r.token := by
  have hn : r ∉ rs := fun h => (List.nodup_cons.1 distinct).1 (List.mem_map_of_mem h)
  have first : (r :: rs).Pairwise fun p q => q = r → p = r :=
    List.pairwise_cons.2 ⟨fun _ _ _ => rfl, List.pairwise_of_forall_mem_list fun _ _ q hq h => absurd (h ▸ hq) hn⟩
  have a := adopted_of_openListed (fun _ => id) distinct (first.filter _) ho
  obtain ⟨t, ht⟩ := Option.isSome_iff_exists.1 (a.tracked r hr job hj)
  obtain ⟨p, hpm, rfl, hpj, hpp⟩ := a.newest job t ht
  rcases hpp r hr hj with hlt | ⟨-, h⟩
  · exact absurd hlt (hp p hpm hpj)
  · rw [ht, h rfl]

/-- **Of the waits that carry an alias the last one listed is led to.** -/
theorem leads_to_last {r : WaitRecord} (distinct : ((rs ++ [r]).map WaitRecord.token).Nodup)
    (ho : openListed store ttl (rs ++ [r]) = (.ok (), g)) (hr : r ∈ live (rs ++ [r])) {b : Token}
    (hb : r.wait.aliasToken = some b) : g.aliases.get? b = some r.token := by
  have hn : r ∉ rs := fun h => by
    rw [List.map_append, List.nodup_append] at distinct
    exact distinct.2.2 _ (List.mem_map_of_mem h) _ (List.mem_singleton_self _) rfl
  have last : (rs ++ [r]).Pairwise fun p q => p = r → q = r := by
    refine List.pairwise_append.2 ⟨List.pairwise_of_forall_mem_list fun p hp _ _ h => absurd (h ▸ hp) hn,
      List.pairwise_singleton _ _, fun _ _ q hq _ => List.mem_singleton.1 hq⟩
  have a := adopted_of_openListed (fun _ => id) distinct (last.filter _) ho
  obtain ⟨t, ht⟩ := Option.isSome_iff_exists.1 (a.led r hr b hb)
  obtain ⟨p, hpm, rfl, -, hpp⟩ := a.last b t ht
  rw [ht, hpp r hr hb rfl]

/-- **Only of an unambiguous list every order is opened as the same registry.** -/
theorem unambiguous_of_alike (distinct : (rs.map WaitRecord.token).Nodup)
    (same : ∀ rs', rs'.Perm rs → ∃ g', openListed store ttl rs' = (.ok (), g') ∧ Alike g g') :
    Unambiguous (live rs) := by
  have inj {r q} (hr : r ∈ live rs) (hq : q ∈ live rs) (h : r.token = q.token) : r = q :=
    List.inj_on_of_nodup_map distinct (mem_live.1 hr).1 (mem_live.1 hq).1 h
  constructor
  · intro r hr q hq job hj hj' hc
    refine Classical.or_iff_not_imp_right.2 fun hnone => inj hr hq ?_
    have current {p} (hp : p ∈ live rs) (hpj : p.wait.job = some job) (hpc : r.wait.createdAt = p.wait.createdAt) :
        g.jobs.get? job = some p.token := by
      have perm : (p :: rs.erase p).Perm rs := (List.perm_cons_erase (mem_live.1 hp).1).symm
      have mem := mem_live_perm perm
      obtain ⟨g', ho, alike⟩ := same _ perm
      rw [← alike.jobs]
      refine leads_to_first ((perm.map _).nodup_iff.2 distinct) ho ((mem p).2 hp) hpj fun v hv hvj hlt => ?_
      exact hnone ⟨v, (mem v).1 hv, hvj, hpc ▸ hlt⟩
    exact Option.some.inj ((current hr hj rfl).symm.trans (current hq hj' hc))
  · intro r hr q hq a ha ha'
    have leads {p} (hp : p ∈ live rs) (hpa : p.wait.aliasToken = some a) : g.aliases.get? a = some p.token := by
      have perm : (rs.erase p ++ [p]).Perm rs :=
        List.perm_append_singleton p _ |>.trans (List.perm_cons_erase (mem_live.1 hp).1).symm
      obtain ⟨g', ho, alike⟩ := same _ perm
      rw [← alike.aliases]
      exact leads_to_last ((perm.map _).nodup_iff.2 distinct) ho ((mem_live_perm perm p).2 hp) hpa
    exact inj hr hq (Option.some.inj ((leads hr ha).symm.trans (leads hq ha')))

/-- **Opening rebuilds the indexes from any list of records whose tokens are all different.**  It goes through exactly
when the store deletes each record that was cancelled, as memory does and a file that can be written
(`Store.delete_ok_iff`).  Then the registry has the others, and no more; each of their jobs leads to a newest of its
waits, and no other job to any; each of their aliases leads to a wait that carries it, and no other alias to any; and
the store is left without those that were cancelled.  And every order of the list is opened as the same registry exactly
when the list is unambiguous, as it is when no two waits of a job were created at the same time and no two carry the
same alias. -/
theorem indexes_rebuilt (store : Store) (ttl : Span) {rs : List WaitRecord}
    (distinct : (rs.map WaitRecord.token).Nodup) :
    (∀ happens, store.load happens = .ok rs → openStore store ttl happens = openListed store ttl rs) ∧
    ((openListed store ttl rs).1 = .ok () ↔ ∀ t ∈ cancelled rs, (store.delete t).1 = .ok ()) ∧
    ∀ g, openListed store ttl rs = (.ok (), g) → g.Rebuilt store ttl rs ∧
      ((∀ rs', rs'.Perm rs → ∃ g', openListed store ttl rs' = (.ok (), g') ∧ Alike g g') ↔ Unambiguous (live rs)) := by
  refine ⟨fun happens h => openStore_of_load h ttl, openListed_ok_iff store ttl rs, fun g ho => ?_⟩
  have b := rebuilt_of_openListed distinct ho
  refine ⟨b, unambiguous_of_alike distinct, fun one rs' perm => ?_⟩
  have hok : (openListed store ttl rs').1 = .ok () := by
    rw [openListed_ok_iff]
    intro t ht
    exact deletes_of_openListed ho t ((mem_cancelled_perm perm t).1 ht)
  have ho' : openListed store ttl rs' = (.ok (), (openListed store ttl rs').2) := Prod.ext hok rfl
  exact ⟨_, ho', b.alike one perm (rebuilt_of_openListed ((perm.map _).nodup_iff.2 distinct) ho')⟩

/-- Two waits of a job and a cancelled one, the newest of all and with the alias of another: in every order the newer of
the two that stay is current and has the alias, and the third is gone. -/
theorem newer_wait_current_in_every_order :
    let w : Wait := { Wait.start default default .epoch with job := some "deploy" }
    let x : Token := ⟨"x", by decide⟩
    let older : WaitRecord := .ofWait w
    let newer : WaitRecord :=
      .ofWait { w with token := ⟨"b", by decide⟩, createdAt := ⟨1, 0, by decide⟩, aliasToken := some x }
    let ended : WaitRecord := .ofWait
      { w with token := ⟨"c", by decide⟩, createdAt := ⟨2, 0, by decide⟩, aliasToken := some x, status := .cancelled }
    let rs := [newer, ended, older]
    let store : Store := ⟨.memory (Records.ofList rs), {}⟩
    (rs.map WaitRecord.token).Nodup ∧ ∀ rs', rs'.Perm rs → ∃ g, openListed store defaultTtl rs' = (.ok (), g) ∧
      g.jobs.get? "deploy" = some newer.token ∧ g.aliases.get? x = some newer.token ∧
      g.records.get? older.token = some older ∧ g.records.get? ended.token = none ∧
      g.store.records.get? ended.token = none := by
  intro w x older newer ended rs store
  have distinct : (rs.map WaitRecord.token).Nodup := by decide
  obtain ⟨-, -, opened⟩ := indexes_rebuilt store defaultTtl distinct
  let g := (openListed store defaultTtl rs).2
  have ho : openListed store defaultTtl rs = (.ok (), g) := rfl
  have hlive : live rs = [newer, older] := by decide
  have one : Unambiguous (live rs) := by
    rw [hlive]
    constructor
    · intro r hr q hq job _ _ hc
      simp only [List.mem_cons, List.not_mem_nil, or_false] at hr hq
      rcases hr with rfl | rfl <;> rcases hq with rfl | rfl
      · exact .inl rfl
      · exact absurd hc (by decide)
      · exact absurd hc (by decide)
      · exact .inl rfl
    · intro r hr q hq a ha ha'
      simp only [List.mem_cons, List.not_mem_nil, or_false] at hr hq
      rcases hr with rfl | rfl <;> rcases hq with rfl | rfl
      · rfl
      · cases ha'
      · cases ha
      · rfl
  refine ⟨distinct, fun rs' perm => ?_⟩
  obtain ⟨g', ho', alike⟩ := (opened g ho).2.2 one rs' perm
  refine ⟨g', ho', ?_⟩
  rw [alike.jobs, alike.aliases, alike.records, alike.records, alike.store]
  decide

end Registry
end ApprovalGate
