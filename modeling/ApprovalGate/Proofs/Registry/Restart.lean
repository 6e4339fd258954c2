import ApprovalGate.Proofs.Registry.Addresses
import ApprovalGate.Proofs.Registry.Indexes
import ApprovalGate.Proofs.Registry.Reopened
/-!
# What a restart shows

A registry keeps its job index and its aliases by the order of what happened, and opening its store builds them from
the records.  The two agree as long as both indexes are true (`same_answers_iff`).  A job goes astray in two ways: a
registration takes it over that is not the newest of its waits or takes its current token away from it, or its current
wait is dropped while an older one stays (`Strays`, `run_jobsTrue`).
-/
namespace ApprovalGate.Registry

/-- Whether a registry answers every question about jobs, tokens and pending waits as another one does. -/
structure SameAnswers (g h : Registry) : Prop where
  jobs : ∀ job, h.jobToken? job = g.jobToken? job
  decisions : ∀ job, h.jobDecision? job = g.jobDecision? job
  canonical : ∀ x, h.canonical x = g.canonical x
  records : ∀ x, h.get? x = g.get? x
  pending : h.pending.Perm g.pending

/-! ## Registries of the same records -/

section SameRecords

variable {g h : Registry} {order : TokenOrder}

/-- Which wait of a job is the newest is seen from what the records are ranked by. -/
theorem newest_congr (hr : ∀ u, (h.records.get? u).map WaitRecord.rank = (g.records.get? u).map WaitRecord.rank)
    {job : JobId} {t : Token} : h.Newest order job t ↔ g.Newest order job t := by
  have up : ∀ {g h : Registry}, (∀ u, (h.records.get? u).map WaitRecord.rank = (g.records.get? u).map WaitRecord.rank) →
      h.Newest order job t → g.Newest order job t := by
    rintro g h hr ⟨r, ht, hj, hp⟩
    have like : ∀ {u q}, g.records.get? u = some q → ∃ q', h.records.get? u = some q' ∧ q'.rank = q.rank :=
      fun {u q} hu => by
        have := hr u
        rw [hu] at this
        exact Option.map_eq_some_iff.1 this
    have hg := hr t
    rw [ht] at hg
    obtain ⟨r', ht', hrank⟩ := Option.map_eq_some_iff.1 hg.symm
    refine ⟨r', ht', (congrArg (·.2.1) hrank).trans hj, fun u q hu hq => ?_⟩
    obtain ⟨q', hu', hqrank⟩ := like hu
    exact (hp u q' hu' ((congrArg (·.2.1) hqrank).trans hq)).congr hrank.symm hqrank
  exact ⟨up hr, up fun u => (hr u).symm⟩

theorem newest_of_records (hrec : ∀ t, h.records.get? t = g.records.get? t) {job : JobId} {t : Token} :
    h.Newest order job t ↔ g.Newest order job t := newest_congr fun u => by rw [hrec]

theorem lastCarrier_of_records (hrec : ∀ t, h.records.get? t = g.records.get? t) {a t : Token} :
    h.LastCarrier order a t ↔ g.LastCarrier order a t := by simp only [LastCarrier, hrec]

theorem pending_perm (s : g.Sound) (s' : h.Sound) (hrec : ∀ t, h.records.get? t = g.records.get? t) :
    h.pending.Perm g.pending := by
  have hs : Records.Sound g.records := ⟨s.records, s.keyed⟩
  have hs' : Records.Sound h.records := ⟨s'.records, s'.keyed⟩
  have hv : h.records.values.Perm g.records.values := by
    refine (Records.perm_sortedBy h.records .byText).symm.trans ?_
    rw [Records.sortedBy_congr hs' hs hrec]
    exact Records.perm_sortedBy g.records .byText
  exact (hv.filter _).map _

theorem find?_congr (hrec : ∀ t, h.records.get? t = g.records.get? t)
    (ha : ∀ a, g.records.get? a = none → h.aliases.get? a = g.aliases.get? a) (x : Token) : h.find? x = g.find? x := by
  rw [find?, find?, hrec]
  cases hx : g.records.get? x with
  | some r => rfl
  | none => simp only [ha x hx, hrec]

/-- An alias that is no token of its own and leads to some record leads to another token. -/
theorem Sound.alias_ne (s : g.Sound) {a t : Token} (hn : g.records.get? a = none) (ha : g.aliases.get? a = some t) :
    t ≠ a := by
  rintro rfl
  obtain ⟨r, hr⟩ := s.led ha
  cases hn.symm.trans hr

/-- **A registry whose indexes are true is answered for by another one of the same records exactly when its own
indexes are true.** -/
theorem same_answers_iff (s : g.Sound) (s' : h.Sound) (hrec : ∀ t, h.records.get? t = g.records.get? t)
    (hj : h.JobsTrue order) (ha : h.AliasesTrue order) :
    SameAnswers g h ↔ g.JobsTrue order ∧ g.AliasesTrue order := by
  constructor
  · intro same
    refine ⟨fun job t => ?_, fun a t hn => ?_⟩
    · rw [← newest_of_records hrec, ← hj, ← show h.jobs.get? job = g.jobs.get? job from same.jobs job]
    · have hn' : h.records.get? a = none := (hrec a).trans hn
      have hc := same.canonical a
      rw [canonical_of_none hn, canonical_of_none hn'] at hc
      rw [← lastCarrier_of_records hrec, ← ha a t hn']
      -- where an alias leads is seen from where it is found to lead, since it is not there itself
      cases hx : g.aliases.get? a with
      | none =>
        cases hy : h.aliases.get? a with
        | none => rfl
        | some u =>
          rw [hx, hy] at hc
          exact absurd hc (s'.alias_ne hn' hy)
      | some u =>
        cases hy : h.aliases.get? a with
        | none =>
          rw [hx, hy] at hc
          exact absurd hc.symm (s.alias_ne hn hx)
        | some v =>
          rw [hx, hy] at hc
          rw [show v = u from hc]
  · rintro ⟨hj', ha'⟩
    have jobs : ∀ job, h.jobs.get? job = g.jobs.get? job := fun job => Option.ext fun t => by
      rw [hj, hj', newest_of_records hrec]
    have aliases : ∀ a, g.records.get? a = none → h.aliases.get? a = g.aliases.get? a := fun a hn =>
      Option.ext fun t => by rw [ha a t ((hrec a).trans hn), ha' a t hn, lastCarrier_of_records hrec]
    have records : ∀ x, h.get? x = g.get? x := fun x => by rw [get?, get?, find?_congr hrec aliases]
    refine ⟨jobs, fun job => ?_, fun x => ?_, records, pending_perm s s' hrec⟩
    · rw [jobDecision?, jobDecision?, show h.jobToken? job = g.jobToken? job from jobs job, funext records]
    · rw [canonical, canonical, Table.contains, Table.contains, hrec]
      cases hx : g.records.get? x with
      | some r => rfl
      | none => rw [aliases x hx]

end SameRecords

/-! ## Jobs that go astray -/

/-- Whether dropping some records drops the current wait of a job of which another one stays. -/
def Uncovers (g : Registry) (ts : List Token) : Prop := ∃ job t u q, g.jobs.get? job = some t ∧ t ∈ ts ∧
  g.records.get? u = some q ∧ u ∉ ts ∧ q.wait.job = some job

/-- Whether a registration takes the token of another job's current wait, or takes over a job without being the newest
of the waits that stay. -/
def Displaces (g : Registry) (order : TokenOrder) (w : Wait) (s : Superseded) : Prop :=
  (∃ job, g.jobs.get? job = some w.token ∧ w.job ≠ some job) ∨
  ∃ job u q, w.job = some job ∧ g.records.get? u = some q ∧ u ≠ w.token ∧ s.map Prod.fst ≠ some u ∧
    q.wait.job = some job ∧ ¬(fresh w).Precedes order q

/-- Whether an operation leads a job astray, given the order in which records are listed. -/
def Strays (g : Registry) (order : TokenOrder) : Operation → Prop
  | .register w => ∃ s, (g.register w).1 = .ok s ∧ g.Displaces order w s
  | .cancel e => g.Uncovers (g.cancel e).1
  | .remove t => g.Uncovers [t]
  | .sweep now => g.Uncovers (g.stale now)
  | _ => False

theorem Amends.job {r r' : WaitRecord} (h : Amends r r') : r'.wait.job = r.wait.job := by cases h <;> rfl

theorem Amends.createdAt {r r' : WaitRecord} (h : Amends r r') : r'.wait.createdAt = r.wait.createdAt := by
  cases h <;> rfl

theorem Amends.rank {r r' : WaitRecord} (h : Amends r r') : r'.rank = r.rank := by
  rw [WaitRecord.rank, WaitRecord.rank, h.token, h.job, h.createdAt]

theorem save_ranks {g : Registry} {t : Token} {r r' : WaitRecord} (hr : g.records.get? t = some r)
    (ha : Amends r r') (u : Token) :
    ((g.save t r').records.get? u).map WaitRecord.rank = (g.records.get? u).map WaitRecord.rank := by
  rw [save_get?]
  split
  · rename_i hu
    rw [← hu, hr, Option.map_some, Option.map_some, ha.rank]
  · rfl

theorem jobsTrue_save {g : Registry} {t : Token} {r r' : WaitRecord} (hr : g.records.get? t = some r)
    (ha : Amends r r') {order : TokenOrder} : (g.save t r').JobsTrue order ↔ g.JobsTrue order := by
  refine forall_congr' fun job => forall_congr' fun u => ?_
  rw [newest_congr (save_ranks hr ha)]
  rfl

theorem Forgets.jobsTrue {g h : Registry} {ts : List Token} (f : Forgets g ts h) (s : g.Sound) (s' : h.Sound)
    {order : TokenOrder} (hg : g.JobsTrue order) : h.JobsTrue order ↔ ¬g.Uncovers ts := by
  have kept : ∀ {u q}, h.records.get? u = some q ↔ g.records.get? u = some q ∧ u ∉ ts := fun {u q} => by
    rw [f.records]
    split
    · rename_i hu
      exact ⟨fun h => absurd h (Option.some_ne_none _).symm, fun h => absurd hu h.2⟩
    · rename_i hu
      exact ⟨fun h => ⟨h, hu⟩, And.left⟩
  constructor
  · rintro hh ⟨job, t, u, q, ht, htm, hu, hum, hq⟩
    obtain ⟨v, hv⟩ := exists_newest s' (kept.2 ⟨hu, hum⟩) hq
    obtain ⟨hv, hvm⟩ := (f.jobs job v).1 ((hh job v).2 hv)
    cases ht.symm.trans hv
    exact hvm htm
  · intro hn job t
    have down : ∀ {t}, g.Newest order job t → t ∉ ts → h.Newest order job t := by
      rintro t ⟨r, hr, hj, hp⟩ htm
      exact ⟨r, kept.2 ⟨hr, htm⟩, hj, fun u q hu hq => hp u q (kept.1 hu).1 hq⟩
    rw [f.jobs, hg]
    constructor
    · rintro ⟨ht, htm⟩
      exact down ht htm
    · intro ht
      obtain ⟨r, hr, hj, -⟩ := id ht
      obtain ⟨hr, htm⟩ := kept.1 hr
      -- the newest of all is not dropped, since this one stays
      obtain ⟨v, hv⟩ := exists_newest s hr hj
      have hvm : v ∉ ts := fun hvm => hn ⟨job, v, t, r, (hg job v).2 hv, hvm, hr, htm, hj⟩
      rw [ht.unique s' (down hv hvm)]
      exact ⟨hv, hvm⟩

theorem Registers.jobsTrue {g h : Registry} {w : Wait} {sup : Superseded} (rg : Registers g w sup h) (s : g.Sound)
    (s' : h.Sound) {order : TokenOrder} (hg : g.JobsTrue order) : h.JobsTrue order ↔ ¬g.Displaces order w sup := by
  have self : h.records.get? w.token = some (fresh w) := by rw [rg.records, if_pos rfl]
  have kept : ∀ {u q}, u ≠ w.token →
      (h.records.get? u = some q ↔ g.records.get? u = some q ∧ sup.map Prod.fst ≠ some u) := fun {u q} hu => by
    rw [rg.records, if_neg hu]
    split
    · rename_i hs
      exact ⟨fun h => absurd h (Option.some_ne_none _).symm, fun h => absurd hs h.2⟩
    · rename_i hs
      exact ⟨fun h => ⟨h, hs⟩, And.left⟩
  constructor
  · rintro hh (⟨job, ht, hw⟩ | ⟨job, u, q, hw, hu, hne, hsup, hq, hnp⟩)
    · have hj := rg.jobs job
      rw [if_neg hw, ht] at hj
      obtain ⟨r, hr, hrj, -⟩ := (hh job w.token).1 hj
      cases self.symm.trans hr
      exact hw hrj
    · have hj := rg.jobs job
      rw [if_pos hw] at hj
      obtain ⟨r, hr, -, hp⟩ := (hh job w.token).1 hj
      cases self.symm.trans hr
      exact hnp (hp u q ((kept hne).2 ⟨hu, hsup⟩) hq)
  · intro hn job t
    rw [rg.jobs]
    by_cases hw : w.job = some job
    · rw [if_pos hw]
      have newest : h.Newest order job w.token := ⟨fresh w, self, hw, fun u q hu hq => by
        by_cases hne : u = w.token
        · subst hne
          cases self.symm.trans hu
          exact (fresh w).precedes_refl
        · obtain ⟨hu, hsup⟩ := (kept hne).1 hu
          exact Classical.byContradiction fun hnp => hn (.inr ⟨job, u, q, hw, hu, hne, hsup, hq, hnp⟩)⟩
      constructor
      · intro ht
        cases ht
        exact newest
      · intro ht
        rw [newest.unique s' ht]
    · rw [if_neg hw, hg]
      have mem : ∀ {u q}, h.records.get? u = some q → q.wait.job = some job →
          u ≠ w.token ∧ g.records.get? u = some q := fun {u q} hu hq => by
        have hne : u ≠ w.token := by
          rintro rfl
          cases self.symm.trans hu
          exact hw hq
        exact ⟨hne, ((kept hne).1 hu).1⟩
      have down : ∀ {t}, g.Newest order job t → h.Newest order job t := fun {t} ht => by
        have hne : t ≠ w.token := by
          rintro rfl
          exact hn (.inl ⟨job, (hg job _).2 ht, hw⟩)
        obtain ⟨r, hr, hj, hp⟩ := ht
        refine ⟨r, (kept hne).2 ⟨hr, fun hs => ?_⟩, hj, fun u q hu hq => hp u q (mem hu hq).2 hq⟩
        -- what a registration puts an end to is current for its own job, not for this one
        obtain ⟨⟨p, e⟩, hsup, rfl⟩ := Option.map_eq_some_iff.1 hs
        obtain ⟨-, r', job', hr', -, -, hw', hj'⟩ := rg.superseded p e hsup
        obtain ⟨r'', hr'', hrj, -⟩ := (hg job' p).1 hj'
        cases hr.symm.trans hr''
        cases hj.symm.trans hrj
        exact hw hw'
      refine ⟨down, fun ht => ?_⟩
      obtain ⟨r, hr, hj, -⟩ := id ht
      obtain ⟨v, hv⟩ := exists_newest s (mem hr hj).2 hj
      rw [ht.unique s' (down hv)]
      exact hv

/-- **Jobs stay true exactly when none is led astray.** -/
theorem perform_jobsTrue {g : Registry} (s : g.Sound) {order : TokenOrder} (hg : g.JobsTrue order) (op : Operation) :
    (g.perform op).JobsTrue order ↔ ¬g.Strays order op := by
  have d := s.toDistinct
  have s' : (g.perform op).Sound := s.happen (.call op)
  have change (hc : op.isChange = true) : (g.perform op).JobsTrue order := by
    rcases perform_change g hc with heq | ⟨t, r, r', hr, b, heq⟩
    · rw [heq]
      exact hg
    · rw [heq, jobsTrue_save hr b.amends]
      exact hg
  cases op with
  | register w =>
    have refused {f : Failure} {h : Registry} (heq : g.register w = (.error f, h)) : ¬g.Strays order (.register w) := by
      rintro ⟨sup, hs, -⟩
      rw [heq] at hs
      cases hs
    rcases register_cases g w with ⟨r, -, -, heq⟩ | ⟨f, store, -, heq⟩ | ⟨store, hv, -, heq⟩
    · rw [perform, heq]
      exact ⟨fun _ => refused heq, fun _ => hg⟩
    · rw [perform, heq]
      exact ⟨fun _ => refused heq, fun _ => hg⟩
    · rw [perform, heq] at s' ⊢
      rw [(registers_takeUp d hv store).jobsTrue s s' hg]
      refine not_congr ⟨fun h => ⟨_, by rw [heq], h⟩, ?_⟩
      rintro ⟨sup, hs, h⟩
      rw [heq] at hs
      cases hs
      exact h
  | cancel e => exact (cancel_forgets d e).jobsTrue s s' hg
  | remove t =>
    rcases remove_cases g t with ⟨r, -, heq⟩ | ⟨hn, heq⟩
    · rw [perform, heq] at s' ⊢
      exact (forgets_dropAll d [t]).jobsTrue s s' hg
    · rw [perform, heq]
      refine ⟨fun _ => ?_, fun _ => hg⟩
      rintro ⟨job, u, -, -, hu, hut, -⟩
      obtain ⟨r, hr, -⟩ := (hg job u).1 hu
      cases List.mem_singleton.1 hut
      cases hn.symm.trans hr
  | sweep now => exact (sweep_forgets d now).jobsTrue s s' hg
  | _ => exact ⟨fun _ h => h, fun _ => change rfl⟩

theorem run_jobsTrue {g : Registry} (s : g.Sound) (order : TokenOrder) (ops : List Operation) :
    (∀ p, p <+: ops → (g.run (p.map .call)).JobsTrue order) ↔
      g.JobsTrue order ∧ ∀ p op, p ++ [op] <+: ops → ¬(g.run (p.map .call)).Strays order op := by
  have step (p : List Operation) (op : Operation) :
      g.run ((p ++ [op]).map .call) = (g.run (p.map .call)).perform op := by
    rw [List.map_append, run_append]
    rfl
  constructor
  · refine fun h => ⟨h [] List.nil_prefix, fun p op hp => ?_⟩
    have before := h p ((List.prefix_append p [op]).trans hp)
    have behind := h (p ++ [op]) hp
    rw [step] at behind
    exact (perform_jobsTrue (s.run _) before op).1 behind
  · rintro ⟨hg, h⟩ p
    induction p using List.reverseRecOn with
    | nil => exact fun _ => hg
    | append_singleton p op ih =>
      intro hp
      rw [step]
      exact (perform_jobsTrue (s.run _) (ih ((List.prefix_append p [op]).trans hp)) op).2 (h p op hp)

/-! ## Restarting -/

/-- A store lists in the same order all along. -/
theorem lasts_listing (happens order : TokenOrder) : Lasts fun s => s.listing happens = order where
  put s r h := by
    obtain ⟨medium, refuses⟩ := s
    rw [Store.put]
    split
    · exact h
    · cases medium <;> exact h
  delete s t h := by
    obtain ⟨medium, refuses⟩ := s
    rw [Store.delete]
    split
    · exact h
    · cases medium with
      | memory records => exact h
      | file path copy disk =>
        simp only
        split <;> exact h

/-- The registry that opens on the store of another one: the same records, and true indexes. -/
theorem reopens {store : Store} {g : Registry} (s : g.Sound) (m : Mirrors store g) (ttl : Span)
    (happens : TokenOrder) :
    ∃ h, openStore g.store ttl happens = (.ok (), h) ∧ h.Sound ∧ (∀ t, h.records.get? t = g.records.get? t) ∧
      h.JobsTrue (g.store.listing happens) ∧ h.AliasesTrue (g.store.listing happens) := by
  obtain ⟨h, ho, hrec⟩ := opens_same s m.made m.reliable m.loads m.held ttl happens
  exact ⟨h, ho, openStore_sound ho, hrec, openStore_true m.made ho⟩

/-- **What a restart shows**, in whatever order the store may list its records then, which from memory can be any
(`Store.load_iff`): over a store that makes every change it always goes through, with the same pending waits and the
same answers for every token that has a record; all answers are the same exactly when every job led to the newest of
its waits and every alias that is no token to the last of the waits that carry it; and for jobs that is so all along a
run exactly when it is so at first, as in the order of the first listing, and no operation leads one astray. -/
theorem restart_shows_same_iff {store : Store} (hm : store.Made) (hr : store.Reliable) {ttl : Span}
    {happens : TokenOrder} {g : Registry} (ho : openStore store ttl happens = (.ok (), g)) (ops : List Operation)
    (ttl' : Span) (happens' : TokenOrder) :
    let before := g.run (ops.map .call)
    let order := store.listing happens'
    ∃ after, openStore before.store ttl' happens' = (.ok (), after) ∧ after.pending.Perm before.pending ∧
      (∀ t, before.records.contains t = true → after.get? t = before.get? t ∧ after.canonical t = before.canonical t) ∧
      (SameAnswers before after ↔ before.JobsTrue order ∧ before.AliasesTrue order) ∧
      ((∀ p, p <+: ops → (g.run (p.map .call)).JobsTrue order) ↔
        g.JobsTrue order ∧ ∀ p op, p ++ [op] <+: ops → ¬(g.run (p.map .call)).Strays order op) ∧
      (order = store.listing happens → g.JobsTrue order) := by
  intro before order
  have sound := openStore_sound ho
  have s : before.Sound := sound.run _
  have listing : before.store.listing happens' = order := (lasts_listing happens' order).run ops
    (openStore_deletes (lasts_listing happens' order).delete ho rfl)
  obtain ⟨after, ho', s', hrec, hj, ha⟩ := reopens s (openStore_mirrored hm hr ho ops) ttl' happens'
  rw [listing] at hj ha
  refine ⟨after, ho', pending_perm s s' hrec, fun t ht => ?_, same_answers_iff s s' hrec hj ha,
    run_jobsTrue sound order ops, fun h => h ▸ (openStore_true hm ho).1⟩
  obtain ⟨r, hr⟩ := Option.isSome_iff_exists.1 ht
  have hr' : after.records.get? t = some r := (hrec t).trans hr
  rw [canonical_of_record hr, canonical_of_record hr', get?, get?, find?_eq_some.2 ⟨hr, .inl rfl⟩,
    find?_eq_some.2 ⟨hr', .inl rfl⟩]
  exact ⟨rfl, rfl⟩

/-- One wait with a job and an alias is found by both after a restart. -/
theorem single_wait_shown :
    let w : Wait := { Wait.start default default .epoch with job := some "deploy", aliasToken := some ⟨"a", by decide⟩ }
    let before := empty.run [.call (.register w)]
    ∀ happens, ∃ after, openStore before.store defaultTtl happens = (.ok (), after) ∧ SameAnswers before after := by
  intro w before happens
  have records : ∀ t, before.records.get? t = if w.token = t then some (fresh w) else none := fun _ => rfl
  have jobs : ∀ job, before.jobs.get? job = if "deploy" = job then some w.token else none := fun _ => rfl
  have aliases : ∀ a, before.aliases.get? a = if ⟨"a", by decide⟩ = a then some w.token else none := fun _ => rfl
  have self : before.records.get? w.token = some (fresh w) := rfl
  have only : ∀ {u q}, before.records.get? u = some q → u = w.token ∧ q = fresh w := fun {u q} hu => by
    rw [records] at hu
    split at hu
    · rename_i h
      cases hu
      exact ⟨h.symm, rfl⟩
    · cases hu
  have hjobs : before.JobsTrue happens := fun job t => by
    rw [jobs]
    constructor
    · intro h
      split at h
      · rename_i hj
        subst hj
        cases h
        exact ⟨fresh w, self, rfl, fun u q hu _ => by rw [(only hu).2]; exact (fresh w).precedes_refl⟩
      · cases h
    · rintro ⟨r, hr, hj, -⟩
      obtain ⟨rfl, rfl⟩ := only hr
      rw [if_pos (Option.some.inj hj)]
  have haliases : before.AliasesTrue happens := fun a t _ => by
    rw [aliases]
    constructor
    · intro h
      split at h
      · rename_i ha
        subst ha
        cases h
        exact ⟨fresh w, self, rfl, fun u q hu _ => by rw [(only hu).2]; exact (fresh w).inOrder_refl⟩
      · cases h
    · rintro ⟨r, hr, ha, -⟩
      obtain ⟨rfl, rfl⟩ := only hr
      rw [if_pos (Option.some.inj ha)]
  obtain ⟨after, ho, -, -, hsame, -⟩ := restart_shows_same_iff .memory (Store.reliable_of_memory ⟨rfl, rfl⟩ rfl)
    (openStore_memory .byText) [.register w] defaultTtl happens
  exact ⟨after, ho, hsame.2 ⟨hjobs, haliases⟩⟩

/-- **A cancelled successor uncovers the wait before it**: the job had no current wait, and after a restart it has its
old one again, with the decision that was for the wait before. -/
theorem cancelled_successor_uncovers :
    let w : Wait := { Wait.start default default .epoch with job := some "deploy" }
    let w' : Wait := { Wait.start ⟨"b", by decide⟩ ⟨.numbered 2⟩ ⟨1, 0, by decide⟩ with job := some "deploy" }
    let yes : Decision := ⟨w.token, .null, .approved, none, .epoch⟩
    let ops : List Operation := [.register w, .resolve w.token yes, .register w', .cancel w'.execution]
    let before := empty.run (ops.map .call)
    ∀ happens, ∃ after, openStore before.store defaultTtl happens = (.ok (), after) ∧
      before.jobToken? "deploy" = none ∧ after.jobToken? "deploy" = some w.token ∧
      before.jobDecision? "deploy" = none ∧ after.jobDecision? "deploy" = some yes ∧ ¬SameAnswers before after := by
  intro w w' yes ops before happens
  have reliable : Store.Reliable .memory := Store.reliable_of_memory ⟨rfl, rfl⟩ rfl
  have s : before.Sound := (openStore_sound (openStore_memory .byText)).run _
  obtain ⟨after, ho, s', hrec, hj, -⟩ :=
    reopens s (openStore_mirrored .memory reliable (openStore_memory .byText) ops) defaultTtl happens
  have none : before.jobToken? "deploy" = .none := by decide
  let r : WaitRecord := { (fresh w).finish .resolved .epoch with decision := some yes }
  have records : ∀ t, before.records.get? t = if w.token = t then some r else .none := fun t => by
    have : before.records = ⟨[(w.token, r)]⟩ := by decide
    rw [this]
    rfl
  have held : after.records.get? w.token = some r := by rw [hrec, records, if_pos rfl]
  have newest : after.Newest happens "deploy" w.token := by
    refine ⟨r, held, rfl, fun u q hu _ => ?_⟩
    rw [hrec, records] at hu
    split at hu
    · cases hu
      exact r.precedes_refl
    · cases hu
  have token : after.jobToken? "deploy" = some w.token := (hj _ _).2 newest
  refine ⟨after, ho, none, token, by decide, ?_, fun same => ?_⟩
  · rw [jobDecision?, token, Option.bind_some, get?, find?_eq_some.2 ⟨held, .inl rfl⟩]
    rfl
  · have := same.jobs "deploy"
    rw [none, token] at this
    cases this

end ApprovalGate.Registry
