import ApprovalGate.Proofs.Registry.Restart
import ApprovalGate.Proofs.Runs
import ApprovalGate.Registry.Basic
/-!
# Jobs and their current waits

A job has at most one pending wait, and while it has one that is its current wait (`one_active_wait_per_job`).  What
the index says beyond that goes wrong in one way only: a token whose wait is over is registered again, for another job
or for none, and its old job still leads there (`Reassigns`, `job_index_sound_iff_none_reassigned`).  The old job is
then answered with a wait that is not its own, and the next registration for it puts an end to that wait
(`job_leads_to_wait_of_another`).
-/
namespace ApprovalGate.Registry

/-- Whether every pending wait is the current one of its job. -/
def PendingCurrent (g : Registry) : Prop := ∀ t r job, g.records.get? t = some r → r.isPending = true →
  r.wait.job = some job → g.jobs.get? job = some t

/-- Whether every job leads to a wait of its own. -/
def JobsSound (g : Registry) : Prop := ∀ job t, g.jobToken? job = some t →
  ∃ r, g.records.get? t = some r ∧ r.wait.job = some job

/-- Whether an event registers a token to which a job leads that is not that of the new wait. -/
def Reassigns (g : Registry) (ev : Event) : Prop := ∃ w job, g.taken? ev = some w ∧
  g.jobs.get? job = some w.token ∧ w.job ≠ some job

/-! ## Pending waits -/

theorem Effect.pendingCurrent {g h : Registry} {w? : Option Wait} (s : g.Sound) (e : Effect g w? h)
    (hc : g.PendingCurrent) : h.PendingCurrent := by
  intro u q job hu hp hj
  cases e with
  | kept => exact hc u q job hu hp hj
  | refused _ => exact hc u q job hu hp hj
  | @amends t r r' ht ha =>
    rw [save_get?] at hu
    split at hu
    · rename_i htu
      cases hu
      exact htu ▸ hc t r job ht (ha.of_pending hp) (ha.job ▸ hj)
    · exact hc u q job hu hp hj
  | forgets ts =>
    have f := forgets_dropAll s.toDistinct ts
    rw [f.records] at hu
    split at hu
    · cases hu
    · rename_i hn
      exact (f.jobs job u).2 ⟨hc u q job hu hp hj, hn⟩
  | @registers w store hv _ =>
    have rg := registers_takeUp s.toDistinct hv store
    rw [rg.jobs]
    rw [rg.records] at hu
    split at hu
    · rename_i hw
      cases hu
      rw [if_pos (show w.job = some job from hj), hw]
    · rename_i hw
      split at hu
      · cases hu
      · rename_i hs
        have current := hc u q job hu hp hj
        -- a pending wait of the same job would have been superseded
        rw [if_neg, current]
        intro hwj
        exact hs (by rw [rg.current job u q hwj current hw hu hp]; rfl)

theorem PendingCurrent.run : ∀ (evs : List Event) {g : Registry}, g.Sound → g.PendingCurrent →
    (g.run evs).PendingCurrent
  | [], _, _, hc => hc
  | .restock store :: evs, _, s, hc => PendingCurrent.run evs (s.restock store) hc
  | .call op :: evs, g, s, hc =>
    PendingCurrent.run evs (s.happen (.call op)) ((perform_effect g op).pendingCurrent s hc)

/-- **A job has one pending wait at most, and that is its current one**, in every registry that was empty at first. -/
theorem one_active_wait_per_job (store : Store) (ttl : Span) (evs : List Event) :
    let g := run ⟨Table.empty, Table.empty, Table.empty, store, ttl⟩ evs
    ∀ t r job, g.records.get? t = some r → r.isPending = true → r.wait.job = some job →
      g.jobToken? job = some t ∧
      ∀ u q, g.records.get? u = some q → q.isPending = true → q.wait.job = some job → u = t := by
  intro g t r job hr hp hj
  have hc : g.PendingCurrent := PendingCurrent.run evs (sound_of_empty store ttl) fun t r job h => by cases h
  have current := hc t r job hr hp hj
  refine ⟨current, fun u q hq hqp hqj => ?_⟩
  have := hc u q job hq hqp hqj
  rw [current] at this
  exact (Option.some.inj this).symm

/-- A tombstone's token is registered again for another job, and then the old job has a wait again. -/
theorem active_wait_after_reassignment :
    let w : Wait := { Wait.start default default .epoch with job := some "old" }
    let w' : Wait := { Wait.start default ⟨.numbered 2⟩ .epoch with job := some "new" }
    let v : Wait := { Wait.start ⟨"v", by decide⟩ ⟨.numbered 3⟩ .epoch with job := some "old" }
    let yes : Decision := ⟨w.token, .null, .approved, none, .epoch⟩
    let g := run empty [.call (.register w), .call (.resolve w.token yes), .call (.register w'), .call (.register v)]
    g.records.get? v.token = some (fresh v) ∧ g.jobToken? "old" = some v.token := by
  intro w w' v yes g
  have hv : g.records.get? v.token = some (fresh v) := by decide
  exact ⟨hv, (one_active_wait_per_job .memory defaultTtl _ v.token (fresh v) "old" hv rfl rfl).1⟩

/-! ## What jobs lead to -/

theorem Effect.jobsSound {g h : Registry} {w? : Option Wait} (s : g.Sound) (e : Effect g w? h) (hi : g.JobsSound)
    (hn : ∀ w job, w? = some w → g.jobs.get? job = some w.token → w.job = some job) : h.JobsSound := by
  intro job t ht
  cases e with
  | kept => exact hi job t ht
  | refused _ => exact hi job t ht
  | @amends u r r' hu ha =>
    obtain ⟨q, hq, hqj⟩ := hi job t ht
    rw [save_get?]
    split
    · rename_i hut
      subst hut
      cases hu.symm.trans hq
      exact ⟨r', rfl, ha.job.trans hqj⟩
    · exact ⟨q, hq, hqj⟩
  | forgets ts =>
    have f := forgets_dropAll s.toDistinct ts
    obtain ⟨ht, hts⟩ := (f.jobs job t).1 ht
    rw [f.records, if_neg hts]
    exact hi job t ht
  | @registers w store hv _ =>
    have rg := registers_takeUp s.toDistinct hv store
    have ht : (g.takeUp w store).2.jobs.get? job = some t := ht
    rw [rg.jobs] at ht
    rw [rg.records]
    split at ht
    · rename_i hw
      cases ht
      exact ⟨fresh w, if_pos rfl, hw⟩
    · rename_i hw
      have hne : t ≠ w.token := fun heq => hw (hn w job rfl (heq ▸ ht))
      obtain ⟨q, hq, hqj⟩ := hi job t ht
      rw [if_neg hne, if_neg]
      · exact ⟨q, hq, hqj⟩
      · -- what a registration puts an end to is a wait of its own job, not of this one
        intro hs
        obtain ⟨⟨p, e⟩, hsup, rfl⟩ := Option.map_eq_some_iff.1 hs
        obtain ⟨-, r, job', hr, -, -, hwj, hp⟩ := rg.superseded p e hsup
        obtain ⟨q', hq', hqj'⟩ := hi job' p hp
        cases hq.symm.trans hq'
        exact hw (hwj.trans (hqj'.symm.trans hqj))

theorem JobsSound.happen {g : Registry} (s : g.Sound) (hi : g.JobsSound) {ev : Event} (hn : ¬g.Reassigns ev) :
    (g.happen ev).JobsSound := by
  cases ev with
  | restock store => exact hi
  | call op =>
    exact (perform_effect g op).jobsSound s hi fun w job hw ht =>
      Classical.byContradiction fun hwj => hn ⟨w, job, hw, ht, hwj⟩

/-- A registration that takes a token away from a job leaves the job leading there. -/
theorem Reassigns.not_jobsSound {g : Registry} (s : g.Sound) {ev : Event} (hr : g.Reassigns ev) :
    ¬(g.happen ev).JobsSound := by
  obtain ⟨w, job, hw, ht, hwj⟩ := hr
  cases ev with
  | restock store => cases hw
  | call op => ?_
  have e := perform_effect g op
  rw [hw] at e
  show ¬(g.perform op).JobsSound
  generalize g.perform op = h at e
  cases e with
  | @registers w store hv _ =>
    have rg := registers_takeUp s.toDistinct hv store
    intro hi
    obtain ⟨r, hr, hrj⟩ := hi job w.token (by rw [jobToken?, rg.jobs, if_neg hwj, ht])
    rw [rg.records, if_pos rfl] at hr
    cases hr
    exact hwj hrj

theorem JobsTrue.jobsSound {g : Registry} {order : TokenOrder} (hg : g.JobsTrue order) : g.JobsSound := by
  intro job t ht
  obtain ⟨r, hr, hj, -⟩ := (hg job t).1 ht
  exact ⟨r, hr, hj⟩

/-- Whether what is said and done for a job concerns only waits of that job: what a registration for it puts an end to,
the decision that it is given, and what it is tracked for. -/
structure KeepsApart (g : Registry) : Prop where
  superseded : ∀ w p e, (g.register w).1 = .ok (some (p, e)) →
    ∃ r job, g.records.get? p = some r ∧ r.wait.job = some job ∧ w.job = some job
  decision : ∀ job d, g.jobDecision? job = some d →
    ∃ t r, g.records.get? t = some r ∧ r.wait.job = some job ∧ r.decision = some d
  tracked : ∀ job, g.isTracked job = true → ∃ t r, g.records.get? t = some r ∧ r.wait.job = some job ∧
    (r.status = .pending ∨ r.status = .resolved ∧ r.delivered = false)

theorem JobsSound.get? {g : Registry} (hi : g.JobsSound) {job : JobId} {r : WaitRecord}
    (h : (g.jobToken? job).bind g.get? = some r) : ∃ t, g.records.get? t = some r ∧ r.wait.job = some job := by
  obtain ⟨t, ht, hr⟩ := Option.bind_eq_some_iff.1 h
  obtain ⟨q, hq, hqj⟩ := hi job t ht
  rw [Registry.get?, find?_eq_some.2 ⟨hq, .inl rfl⟩] at hr
  cases hr
  exact ⟨t, hq, hqj⟩

theorem JobsSound.keepsApart {g : Registry} (s : g.Sound) (hi : g.JobsSound) : g.KeepsApart where
  superseded w p e h := by
    rcases hr : g.register w with ⟨result, registry⟩
    rw [hr] at h
    cases h
    obtain ⟨-, r, job, hp, -, -, hwj, hj⟩ := (registers_of_ok s.toDistinct hr).superseded p e rfl
    obtain ⟨q, hq, hqj⟩ := hi job p hj
    exact ⟨q, job, hq, hqj, hwj⟩
  decision job d h := by
    obtain ⟨r, hr, hd⟩ := Option.bind_eq_some_iff.1 h
    obtain ⟨t, ht, hj⟩ := hi.get? hr
    exact ⟨t, r, ht, hj, hd⟩
  tracked job h := by
    rw [isTracked] at h
    cases hx : (g.jobToken? job).bind g.get? with
    | none =>
      rw [hx] at h
      cases h
    | some r =>
      obtain ⟨t, ht, hj⟩ := hi.get? hx
      refine ⟨t, r, ht, hj, ?_⟩
      simp only [hx] at h
      cases hs : r.status with
      | pending => exact .inl rfl
      | resolved =>
        simp only [hs, Bool.not_eq_true'] at h
        exact .inr ⟨rfl, h⟩
      | expired => simp [hs] at h
      | cancelled => simp [hs] at h

/-- **Every job leads to a wait of its own exactly as long as no registration takes the token of another job**, along
every run from an opened registry; and then what is said and done for a job concerns only its own waits. -/
theorem job_index_sound_iff_none_reassigned {store : Store} (hm : store.Made) {ttl : Span} {happens : TokenOrder}
    {g : Registry} (ho : openStore store ttl happens = (.ok (), g)) (evs : List Event) :
    ((∀ p, p <+: evs → (g.run p).JobsSound) ↔ ∀ p ev, p ++ [ev] <+: evs → ¬(g.run p).Reassigns ev) ∧
      ∀ p, p <+: evs → (g.run p).JobsSound → (g.run p).KeepsApart := by
  have s := openStore_sound ho
  refine ⟨?_, fun p _ hi => hi.keepsApart (s.run p)⟩
  refine Run.always_iff_never (f := happen) (P := JobsSound) (Q := fun g => g.Sound ∧ g.JobsSound)
    (C := fun _ _ => True) And.right (fun h _ hn => ⟨h.1.happen _, h.2.happen h.1 hn⟩)
    (fun h _ hb => hb.not_jobsSound h.1) ⟨s, (openStore_true hm ho).1.jobsSound⟩
    (Run.along_of_forall (fun _ _ _ => trivial) g)

/-- One job's wait is decided and followed by another of the same job. -/
theorem successor_of_same_job :
    let w : Wait := { Wait.start default default .epoch with job := some "deploy" }
    let w' : Wait := { Wait.start default ⟨.numbered 2⟩ .epoch with job := some "deploy" }
    let yes : Decision := ⟨w.token, .null, .approved, none, .epoch⟩
    let evs : List Event := [.call (.register w), .call (.resolve w.token yes), .call (.register w')]
    (empty.run evs).JobsSound ∧ (empty.run evs).KeepsApart ∧ (empty.run evs).isTracked "deploy" = true := by
  intro w w' yes evs
  obtain ⟨hiff, hapart⟩ := job_index_sound_iff_none_reassigned .memory (openStore_memory .byText) evs
  have hsound : (empty.run evs).JobsSound := by
    suffices along : Run.Along happen (fun g ev => ¬g.Reassigns ev) empty evs from
      hiff.2 (Run.along_iff.1 along) evs List.prefix_rfl
    refine ⟨?_, ?_, ?_, trivial⟩
    · rintro ⟨v, job, hv, hj, -⟩
      cases hj
    · rintro ⟨v, job, hv, -⟩
      cases hv
    · rintro ⟨v, job, hv, hj, hne⟩
      have : v = w' := by
        cases hv
        rfl
      subst this
      by_cases hjob : job = "deploy"
      · exact hne (congrArg some hjob.symm)
      · have hj : (if "deploy" = job then some w.token else none) = some w'.token := hj
        rw [if_neg (Ne.symm hjob)] at hj
        cases hj
  exact ⟨hsound, hapart evs List.prefix_rfl hsound, by decide⟩

/-- **A job is answered with the wait of another one, and puts an end to it**: the token of the one was decided and
registered again for the other. -/
theorem job_leads_to_wait_of_another :
    let w : Wait := { Wait.start default default .epoch with job := some "old" }
    let w' : Wait := { Wait.start default ⟨.numbered 2⟩ .epoch with job := some "new" }
    let v : Wait := { Wait.start ⟨"v", by decide⟩ ⟨.numbered 3⟩ .epoch with job := some "old" }
    let yes : Decision := ⟨w.token, .null, .approved, none, .epoch⟩
    let g := empty.run [.call (.register w), .call (.resolve w.token yes), .call (.register w')]
    g.jobToken? "old" = some w'.token ∧ g.records.get? w'.token = some (fresh w') ∧ ¬g.JobsSound ∧
      g.isTracked "old" = true ∧ (g.register v).1 = .ok (some (w'.token, w'.execution)) ∧
      (g.register v).2.jobToken? "new" = some w'.token ∧ (g.register v).2.records.get? w'.token = none := by
  intro w w' v yes g
  have hj : g.jobToken? "old" = some w'.token := by decide
  have hr : g.records.get? w'.token = some (fresh w') := by decide
  refine ⟨hj, hr, fun hi => ?_, by decide, by decide, by decide, by decide⟩
  obtain ⟨r, hr', hold⟩ := hi "old" _ hj
  cases hr.symm.trans hr'
  revert hold
  decide

end ApprovalGate.Registry
