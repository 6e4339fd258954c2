import Mathlib.Data.List.Induction
import ApprovalGate.Proofs.Registry.Sound
import ApprovalGate.Proofs.Store.Deleted
/-!
# What adopting records comes to

A registry is opened by adopting the records that its store lists, one after the other.  Of the waits of a job that are
equally new the first one listed is current, and of the waits that carry an alias the last one listed is led to
(`Adopted`).  Records that were cancelled are passed over and deleted, and when the store deletes each of them this is
all that adopting does (`adoptAll_eq`); otherwise it does not go through (`deletes_of_adoptAll`).
-/
namespace ApprovalGate

theorem Instant.lt_iff {a b : Instant} : a < b ↔ a.second < b.second ∨ a.second = b.second ∧ a.nano < b.nano := Iff.rfl

/-- Whether a record goes before another for their job: it is newer, or as new and listed before it. -/
def WaitRecord.Outranks (before : WaitRecord → WaitRecord → Prop) (r q : WaitRecord) : Prop :=
  q.wait.createdAt < r.wait.createdAt ∨ ¬r.wait.createdAt < q.wait.createdAt ∧ before r q

namespace WaitRecord

theorem outranks_refl {before : WaitRecord → WaitRecord → Prop} {r : WaitRecord} (h : before r r) :
    r.Outranks before r := by
  refine .inr ⟨fun h => ?_, h⟩
  rw [Instant.lt_iff] at h
  omega

theorem Outranks.of_newer {before : WaitRecord → WaitRecord → Prop} {p r q : WaitRecord} (h : r.Outranks before q)
    (hn : r.wait.createdAt < p.wait.createdAt) : p.Outranks before q := by
  refine .inl ?_
  rw [Outranks] at h
  simp only [Instant.lt_iff] at *
  rcases h with h | ⟨h, -⟩ <;> omega

end WaitRecord

namespace Registry

/-! ## One after the other -/

/-- A registry that has adopted some records, and nothing else.  Each of them is `before` those that are listed after
it. -/
structure Adopted (before : WaitRecord → WaitRecord → Prop) (rs : List WaitRecord) (g : Registry) : Prop where
  records : ∀ t r, g.records.get? t = some r ↔ r ∈ rs ∧ r.token = t
  newest : ∀ job t, g.jobs.get? job = some t → ∃ r ∈ rs, r.token = t ∧ r.wait.job = some job ∧
    ∀ q ∈ rs, q.wait.job = some job → r.Outranks before q
  tracked : ∀ r ∈ rs, ∀ job, r.wait.job = some job → (g.jobs.get? job).isSome = true
  last : ∀ a t, g.aliases.get? a = some t → ∃ r ∈ rs, r.token = t ∧ r.wait.aliasToken = some a ∧
    ∀ q ∈ rs, q.wait.aliasToken = some a → before q r
  led : ∀ r ∈ rs, ∀ a, r.wait.aliasToken = some a → (g.aliases.get? a).isSome = true

section Adopted

variable {before : WaitRecord → WaitRecord → Prop}

theorem adopted_nil (store : Store) (ttl : Span) :
    Adopted before [] ⟨Table.empty, Table.empty, Table.empty, store, ttl⟩ where
  records t r := ⟨fun h => (nomatch h), fun h => absurd h.1 List.not_mem_nil⟩
  newest job t h := by cases h
  tracked r h := absurd h List.not_mem_nil
  last a t h := by cases h
  led r h := absurd h List.not_mem_nil

theorem adopt_jobs (g : Registry) (r : WaitRecord) (job : JobId) : (g.adopt r).jobs.get? job =
    if r.wait.job = some job ∧ g.isNewer r.wait job = true then some r.token else g.jobs.get? job := by
  rw [adopt]
  cases hj : r.wait.job with
  | none => rfl
  | some j =>
    simp only
    by_cases hjob : j = job
    · subst hjob
      cases hn : g.isNewer r.wait j with
      | true => simp only [if_true, and_self, Table.get?_insert_self]
      | false => simp only [Bool.false_eq_true, if_false, and_false]
    · have hne : ¬(some j = some job ∧ g.isNewer r.wait job = true) := fun h => hjob (Option.some.inj h.1)
      rw [if_neg hne]
      split
      · exact Table.get?_insert_of_ne _ _ hjob
      · rfl

/-- **One more record**, listed behind all others. -/
theorem Adopted.adopt {rs : List WaitRecord} {g : Registry} (a : Adopted before rs g) {r : WaitRecord}
    (hself : before r r) (hlast : ∀ q ∈ rs, before q r) (hnew : ∀ q ∈ rs, q.token ≠ r.token) :
    Adopted before (rs ++ [r]) (g.adopt r) := by
  have old : ∀ {q}, q ∈ rs → q ∈ rs ++ [r] := fun hq => List.mem_append_left _ hq
  have self : r ∈ rs ++ [r] := List.mem_append_right _ (List.mem_singleton_self r)
  have mem : ∀ {q}, q ∈ rs ++ [r] → q ∈ rs ∨ q = r := fun hq =>
    (List.mem_append.1 hq).imp_right List.mem_singleton.1
  refine ⟨fun t q => ?_, fun job t h => ?_, fun q hq job hj => ?_, fun b t h => ?_, fun q hq b hb => ?_⟩
  · rw [adopt_records, Table.get?_insert]
    split
    · rename_i ht
      subst ht
      constructor
      · intro h
        cases h
        exact ⟨self, rfl⟩
      · rintro ⟨hq, ht⟩
        rcases mem hq with hq | rfl
        · exact absurd ht (hnew q hq)
        · rfl
    · rename_i ht
      rw [a.records]
      constructor
      · exact fun h => ⟨old h.1, h.2⟩
      · rintro ⟨hq, hqt⟩
        rcases mem hq with hq | rfl
        · exact ⟨hq, hqt⟩
        · exact absurd hqt ht
  · rw [adopt_jobs] at h
    split at h
    · rename_i hc
      obtain ⟨hj, hn⟩ := hc
      cases h
      refine ⟨r, self, rfl, hj, fun q hq hqj => ?_⟩
      rcases mem hq with hq | rfl
      · -- the wait that was current so far is older, and goes before all others
        obtain ⟨t, ht⟩ := Option.isSome_iff_exists.1 (a.tracked q hq job hqj)
        obtain ⟨p, hp, hpt, -, hpp⟩ := a.newest job t ht
        rw [isNewer, ht, Option.bind_some, (a.records t p).2 ⟨hp, hpt⟩] at hn
        exact (hpp q hq hqj).of_newer (of_decide_eq_true hn)
      · exact WaitRecord.outranks_refl hself
    · rename_i hc
      obtain ⟨p, hp, hpt, hpj, hpp⟩ := a.newest job t h
      refine ⟨p, old hp, hpt, hpj, fun q hq hqj => ?_⟩
      rcases mem hq with hq | rfl
      · exact hpp q hq hqj
      · have hn : ¬g.isNewer q.wait job = true := fun hn => hc ⟨hqj, hn⟩
        rw [isNewer, h, Option.bind_some, (a.records t p).2 ⟨hp, hpt⟩] at hn
        exact .inr ⟨fun hlt => hn (decide_eq_true hlt), hlast p hp⟩
  · rw [adopt_jobs]
    split
    · rfl
    · rename_i hc
      rcases mem hq with hq | rfl
      · exact a.tracked q hq job hj
      · -- a job that has no current wait takes any
        cases hx : g.jobs.get? job with
        | some t => rfl
        | none =>
          refine absurd ⟨hj, ?_⟩ hc
          rw [isNewer, hx]
          rfl
  · rw [adopt_aliases] at h
    split at h
    · rename_i hb
      cases h
      refine ⟨r, self, rfl, hb, fun q hq _ => ?_⟩
      rcases mem hq with hq | rfl
      · exact hlast q hq
      · exact hself
    · rename_i hb
      obtain ⟨p, hp, hpt, hpb, hpp⟩ := a.last b t h
      refine ⟨p, old hp, hpt, hpb, fun q hq hqb => ?_⟩
      rcases mem hq with hq | rfl
      · exact hpp q hq hqb
      · exact absurd hqb hb
  · rw [adopt_aliases]
    split
    · rfl
    · rename_i hn
      rcases mem hq with hq | rfl
      · exact a.led q hq b hb
      · exact absurd hb hn

theorem adopted_foldl (hself : ∀ r, before r r) (store : Store) (ttl : Span) {rs : List WaitRecord}
    (hd : (rs.map WaitRecord.token).Nodup) (hs : rs.Pairwise before) :
    Adopted before rs (rs.foldl adopt ⟨Table.empty, Table.empty, Table.empty, store, ttl⟩) := by
  induction rs using List.reverseRecOn with
  | nil => exact adopted_nil store ttl
  | append_singleton rs r ih =>
    rw [List.map_append, List.nodup_append] at hd
    rw [List.pairwise_append] at hs
    rw [List.foldl_append]
    refine (ih hd.1 hs.1).adopt (hself r) (fun q hq => hs.2.2 q hq r (List.mem_singleton_self r)) fun q hq => ?_
    exact hd.2.2 q.token (List.mem_map_of_mem hq) r.token (List.mem_singleton_self _)

theorem Adopted.withStore {rs : List WaitRecord} {g : Registry} (a : Adopted before rs g) (store : Store) :
    Adopted before rs { g with store } := ⟨a.records, a.newest, a.tracked, a.last, a.led⟩

end Adopted

/-! ## Passing over what was cancelled -/

/-- The records of a list that were not cancelled. -/
def live (rs : List WaitRecord) : List WaitRecord := rs.filter fun r => decide (r.status ≠ .cancelled)

/-- The tokens of those that were. -/
def cancelled (rs : List WaitRecord) : List Token :=
  (rs.filter fun r => decide (r.status = .cancelled)).map WaitRecord.token

theorem mem_live {rs : List WaitRecord} {r : WaitRecord} : r ∈ live rs ↔ r ∈ rs ∧ r.status ≠ .cancelled := by
  rw [live, List.mem_filter, decide_eq_true_eq]

theorem mem_cancelled {rs : List WaitRecord} {t : Token} :
    t ∈ cancelled rs ↔ ∃ r ∈ rs, r.status = .cancelled ∧ r.token = t := by
  simp only [cancelled, List.mem_map, List.mem_filter, decide_eq_true_eq, and_assoc]

theorem live_cons_of_cancelled {r : WaitRecord} (h : r.status = .cancelled) (rs : List WaitRecord) :
    live (r :: rs) = live rs ∧ cancelled (r :: rs) = r.token :: cancelled rs := by
  simp [live, cancelled, h]

theorem live_cons_of_live {r : WaitRecord} (h : r.status ≠ .cancelled) (rs : List WaitRecord) :
    live (r :: rs) = r :: live rs ∧ cancelled (r :: rs) = cancelled rs := by
  simp [live, cancelled, h]

theorem foldl_adopt_store (store : Store) : ∀ (rs : List WaitRecord) (g : Registry),
    rs.foldl adopt { g with store } = { rs.foldl adopt g with store }
  | [], _ => rfl
  | r :: rs, g => foldl_adopt_store store rs (g.adopt r)

theorem foldl_adopt_ttl : ∀ (rs : List WaitRecord) (g : Registry), (rs.foldl adopt g).tombstoneTtl = g.tombstoneTtl
  | [], _ => rfl
  | r :: rs, g => foldl_adopt_ttl rs (g.adopt r)

/-- **What adopting comes to** when the store deletes each record that was cancelled: the others are taken up. -/
theorem adoptAll_eq : ∀ (rs : List WaitRecord) (g : Registry), (∀ t ∈ cancelled rs, (g.store.delete t).1 = .ok ()) →
    g.adoptAll rs = (.ok (), { (live rs).foldl adopt g with store := g.store.without (cancelled rs) })
  | [], g, _ => by
    show (Except.ok (), g) = (.ok (), { g with store := g.store.without [] })
    rw [Store.without_nil]
  | r :: rs, g, h => by
    rw [adoptAll]
    split
    · rename_i hc
      obtain ⟨hlive, hcancelled⟩ := live_cons_of_cancelled hc rs
      rw [hlive, hcancelled]
      rw [hcancelled] at h
      have hdel := h r.token List.mem_cons_self
      have hres : g.store.delete r.token = (.ok (), g.store.without [r.token]) :=
        Prod.ext hdel (Store.delete_eq_without hdel)
      rw [hres]
      simp only
      rw [adoptAll_eq rs _ fun t ht => ?_]
      · simp only [foldl_adopt_store, Store.without_without, List.singleton_append]
      · show ((g.store.without [r.token]).delete t).1 = .ok ()
        rw [← Store.delete_eq_without hdel, Store.delete_delete_ok_iff hdel]
        exact h t (List.mem_cons_of_mem _ ht)
    · rename_i hc
      obtain ⟨hlive, hcancelled⟩ := live_cons_of_live hc rs
      rw [hlive, hcancelled]
      rw [hcancelled] at h
      exact adoptAll_eq rs (g.adopt r) h

/-- Adopting goes through only when the store deletes each record that was cancelled. -/
theorem deletes_of_adoptAll : ∀ (rs : List WaitRecord) {g h : Registry}, g.adoptAll rs = (.ok (), h) →
    ∀ t ∈ cancelled rs, (g.store.delete t).1 = .ok ()
  | [], _, _, _, t, ht => absurd ht List.not_mem_nil
  | r :: rs, g, h, ha, t, ht => by
    rw [adoptAll] at ha
    split at ha
    · rename_i hc
      rw [(live_cons_of_cancelled hc rs).2] at ht
      rcases hd : g.store.delete r.token with ⟨result, store⟩
      rw [hd] at ha
      cases result with
      | error f => cases ha
      | ok _ =>
        have hdel : (g.store.delete r.token).1 = .ok () := by rw [hd]
        rcases List.mem_cons.1 ht with rfl | ht
        · exact hdel
        · have := deletes_of_adoptAll rs ha t ht
          rw [← Store.delete_delete_ok_iff hdel, hd]
          exact this
    · rename_i hc
      rw [(live_cons_of_live hc rs).2] at ht
      exact deletes_of_adoptAll rs (g := g.adopt r) ha t ht

section Listed

variable {store : Store} {ttl : Span} {rs : List WaitRecord} {g : Registry}

theorem openListed_eq (h : ∀ t ∈ cancelled rs, (store.delete t).1 = .ok ()) : openListed store ttl rs = (.ok (),
    { (live rs).foldl adopt ⟨Table.empty, Table.empty, Table.empty, store, ttl⟩ with
      store := store.without (cancelled rs) }) := adoptAll_eq rs _ h

theorem deletes_of_openListed (ho : openListed store ttl rs = (.ok (), g)) :
    ∀ t ∈ cancelled rs, (store.delete t).1 = .ok () := deletes_of_adoptAll rs ho

/-- **Opening goes through exactly when the store deletes each record that was cancelled.** -/
theorem openListed_ok_iff (store : Store) (ttl : Span) (rs : List WaitRecord) :
    (openListed store ttl rs).1 = .ok () ↔ ∀ t ∈ cancelled rs, (store.delete t).1 = .ok () :=
  ⟨fun h => deletes_of_openListed (Prod.ext h rfl), fun h => by rw [openListed_eq h]⟩

theorem nodup_live (distinct : (rs.map WaitRecord.token).Nodup) : ((live rs).map WaitRecord.token).Nodup :=
  (List.Sublist.map WaitRecord.token List.filter_sublist).nodup distinct

/-- **What is opened has adopted the records that were not cancelled**, in the order in which they are listed. -/
theorem adopted_of_openListed {before : WaitRecord → WaitRecord → Prop} (hself : ∀ r, before r r)
    (distinct : (rs.map WaitRecord.token).Nodup) (hs : (live rs).Pairwise before)
    (ho : openListed store ttl rs = (.ok (), g)) : Adopted before (live rs) g := by
  rw [openListed_eq (deletes_of_openListed ho)] at ho
  cases ho
  exact (adopted_foldl hself store ttl (nodup_live distinct) hs).withStore _

/-- Nothing else is done to the store, and the registry keeps tombstones as it was told. -/
theorem openListed_rest (ho : openListed store ttl rs = (.ok (), g)) :
    g.store = store.without (cancelled rs) ∧ g.tombstoneTtl = ttl := by
  rw [openListed_eq (deletes_of_openListed ho)] at ho
  cases ho
  exact ⟨rfl, foldl_adopt_ttl _ _⟩

end Listed

end Registry
end ApprovalGate
