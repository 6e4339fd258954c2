import ApprovalGate.Proofs.Gate.Listening
import ApprovalGate.Proofs.Registry.Records
import ApprovalGate.Proofs.Wait.Deadline
/-!
# Parking again under either address

A wait is found under its token and under its alias, but its continuation only where it was parked.  Whoever ends the
wait wakes what is parked on the token, so a handle that was parked under the alias of a pending wait misses every
decision and cancellation; once the wait is over the address makes no difference
(`same_by_either_address_iff`).
-/
namespace ApprovalGate

open Gate (Call)

/-! ## Parking again -/

/-- What the continuation of a wait is told that is over. -/
def WaitRecord.told? (r : WaitRecord) : Option Signal :=
  match r.status with
  | .pending => none
  | .resolved => r.decision.map .decision
  | .expired => some .expired
  | .cancelled => some (.cancelled "wait was cancelled")

theorem settle_told {g : Gate} {x : Token} {r : WaitRecord} (hx : g.registry.get? x = some r) {sig : Signal}
    (h : r.told? = some sig) : ∃ registry, g.settle x = (Gate.signal { g with registry } x sig).2 := by
  rw [WaitRecord.told?] at h
  rw [Gate.settle, hx]
  simp only
  cases hs : r.status with
  | pending =>
    rw [hs] at h
    cases h
  | resolved =>
    rw [hs] at h
    obtain ⟨d, hd, rfl⟩ := Option.map_eq_some_iff.1 h
    -- whether it was taken before or is taken now, the decision is that of the record
    have taken : ((g.registry.takeDecision x).1 <|> r.decision) = some d := by
      rcases Registry.takeDecision_cases g.registry x with ⟨t, q, d', hq, hd', -, heq⟩ | ⟨-, heq⟩
      · rw [Registry.get?, hq] at hx
        cases hx
        rw [heq, ← hd, hd']
        rfl
      · rw [heq, hd]
        rfl
    simp only [taken]
    exact ⟨_, rfl⟩
  | expired =>
    rw [hs] at h
    cases h
    exact ⟨_, rfl⟩
  | cancelled =>
    rw [hs] at h
    cases h
    exact ⟨_, rfl⟩

theorem settle_pending {g : Gate} {x : Token} {r : WaitRecord} (hx : g.registry.get? x = some r)
    (hp : r.isPending = true) : g.settle x = g := by
  rw [Gate.settle, hx]
  simp only [WaitRecord.isPending_iff.1 hp]

theorem park_registry (g : Gate) (e : ExecutionId) (t : Token) (deadline : Option Nat) (now : Instant) :
    (g.park e t deadline now).registry = g.registry := g.onset_registry (.attach e t deadline now)

theorem park_listens {g : Gate} (f : Fresh g) (e : ExecutionId) (t : Token) (deadline : Option Nat) (now : Instant) :
    Listens (g.park e t deadline now) t g.nextSerial where
  given := Nat.lt_succ_self _
  owns u w hw := by
    rw [Gate.park_waiters] at hw
    split at hw
    · rename_i hu
      cases hw
      exact ⟨fun _ => hu.symm, fun _ => rfl⟩
    · rename_i hu
      exact ⟨fun hws => absurd hws (Nat.ne_of_lt (f.waiters u w hw)), fun h => absurd h.symm hu⟩
  parked _ _ _ := ⟨_, by rw [Gate.park_waiters, if_pos rfl]⟩

theorem Listens.withRegistry {g : Gate} {t : Token} {s : Nat} (l : Listens g t s) (registry : Registry) :
    Listens { g with registry } t s := ⟨l.given, l.owns, l.parked⟩

/-- A handle whose continuation is woken has mail, and nothing parked for it any more. -/
theorem Listens.signal {g : Gate} {t : Token} {s : Nat} (l : Listens g t s) {h : Handle}
    (hs : g.handles.get? s = some h) (hm : h.mail = .none) (sig : Signal) :
    Mailed (g.signal t sig).2 s h.execution sig := by
  obtain ⟨w, hw⟩ := l.parked h hs hm
  refine ⟨by rw [Gate.signal_nextSerial]; exact l.given, fun u v hv hvs => ?_, ?_⟩
  · rw [Gate.signal_waiters] at hv
    split at hv
    · cases hv
    · rename_i hu
      exact hu ((l.owns u v hv).1 hvs)
  · rw [Gate.signal_handles, hw, Option.map_some, (l.owns t w hw).2 rfl, if_pos rfl, hs]
    exact ⟨_, rfl, rfl, rfl⟩

/-- **Parking again parks the execution** on the address until the wait is due, the same in all else whatever the
address. -/
theorem reattach_eq (g : Gate) (r : WaitRecord) (clock : Clock) : ∃ executions, ∀ x, g.registry.get? x = some r →
    g.reattach r.wait.execution x clock = (.ok g.nextSerial,
      ((Gate.park { g with executions } r.wait.execution x (r.wait.dueOn clock) clock.now).settle x)) := by
  refine ⟨if g.executions.contains r.wait.execution then g.executions else g.executions.insert r.wait.execution
    (.start r.wait.execution r.wait.job clock.now), fun x hx => ?_⟩
  rw [Gate.reattach, hx]
  simp only [ne_eq, not_true_eq_false, if_false]
  split <;> rfl

/-! ## Reachable gates -/

/-- Whether a record that a decision ended has that decision, and it is final. -/
def WaitRecord.Concluded (r : WaitRecord) : Prop :=
  r.status = .resolved → ∃ d, r.decision = some d ∧ d.verdict.isTerminal = true

theorem keeps_concluded (op : Registry.Operation) : op.Keeps WaitRecord.Concluded where
  fresh _ _ h := by cases h
  changed r r' b hc := by
    intro hr
    cases b.amends with
    | noted d hp =>
      have hr : r.status = .resolved := hr
      rw [WaitRecord.isPending_iff.1 hp] at hr
      cases hr
    | resolved d _ hv => exact ⟨d, rfl, hv⟩
    | expired now _ => cases hr
    | delivered d _ => exact hc hr

/-- The gates that runs of parts of steps lead to, from one that is opened on a store in which every record that a
decision ended has a final one. -/
def Gate.Reachable (g : Gate) : Prop := ∃ store ttl happens registry issuer steps,
  Registry.openStore store ttl happens = (.ok (), registry) ∧ (∀ r ∈ store.records.values, r.Concluded) ∧
    ((Traffic.idle (.start registry issuer)).run steps).gate = g

/-- What holds of every reachable gate. -/
structure Gate.Sound (g : Gate) : Prop extends g.Orderly where
  concluded : g.registry.Forall WaitRecord.Concluded

theorem Gate.Sound.step {x : Traffic} (s : x.gate.Sound) (st : Step) : (x.step st).gate.Sound := by
  refine ⟨s.toOrderly.step st, ?_⟩
  rw [x.step_registry]
  cases x.op? st with
  | none => exact s.concluded
  | some op => exact s.concluded.perform s.registry (keeps_concluded op)

theorem Gate.Reachable.sound {g : Gate} (h : g.Reachable) : g.Sound := by
  obtain ⟨store, ttl, happens, registry, issuer, steps, ho, hc, rfl⟩ := h
  have start : (Traffic.idle (.start registry issuer)).gate.Sound :=
    ⟨orderly_start (Registry.openStore_sound ho) issuer, Registry.openStore_forall ho hc⟩
  generalize Traffic.idle (.start registry issuer) = x at start
  induction steps generalizing x with
  | nil => exact start
  | cons st steps ih => exact ih _ (start.step st)

theorem told?_final {r : WaitRecord} (hp : r.isPending = false) (hc : r.Concluded) :
    ∃ sig, r.told? = some sig ∧ sig.isFinal = true := by
  rw [WaitRecord.told?]
  cases hs : r.status with
  | pending =>
    rw [WaitRecord.isPending_iff.2 hs] at hp
    cases hp
  | resolved =>
    obtain ⟨d, hd, hv⟩ := hc hs
    exact ⟨.decision d, by rw [hd]; rfl, hv⟩
  | expired => exact ⟨_, rfl, rfl⟩
  | cancelled => exact ⟨_, rfl, rfl⟩

/-- **Parked again on a wait that is over**, a handle has its answer at once. -/
theorem reattach_mailed {g : Gate} (f : Fresh g) {r : WaitRecord} {sig : Signal} (hr : r.told? = some sig)
    (clock : Clock) {x : Token} (hx : g.registry.get? x = some r) :
    Mailed (g.reattach r.wait.execution x clock).2 g.nextSerial r.wait.execution sig := by
  obtain ⟨executions, hpark⟩ := reattach_eq g r clock
  rw [hpark x hx]
  generalize r.wait.dueOn clock = deadline
  show Mailed (Gate.settle _ x) _ _ _
  have l := park_listens (g := { g with executions }) ⟨f.waiters, f.handles⟩ r.wait.execution x deadline clock.now
  have hs := Gate.park_handles { g with executions } r.wait.execution x deadline clock.now g.nextSerial
  rw [if_pos rfl] at hs
  have hx' : (Gate.park { g with executions } r.wait.execution x deadline clock.now).registry.get? x = some r := by
    rw [park_registry]
    exact hx
  obtain ⟨registry, hsettle⟩ := settle_told hx' hr
  rw [hsettle]
  exact (l.withRegistry registry).signal hs rfl sig

/-- **Parked again on a pending wait**, a handle listens at the address that it was parked on. -/
theorem reattach_listens {g : Gate} (f : Fresh g) {r : WaitRecord} (hp : r.isPending = true) (clock : Clock) :
    ∃ deadline, ∀ x, g.registry.get? x = some r →
      let g' := (g.reattach r.wait.execution x clock).2
      g'.registry = g.registry ∧ Listens g' x g.nextSerial ∧
        g'.handles.get? g.nextSerial = some ⟨r.wait.execution, x, deadline, .none⟩ := by
  obtain ⟨executions, hpark⟩ := reattach_eq g r clock
  generalize r.wait.dueOn clock = deadline at hpark
  refine ⟨deadline, fun x hx => ?_⟩
  have hx' : (Gate.park { g with executions } r.wait.execution x deadline clock.now).registry.get? x = some r := by
    rw [park_registry]
    exact hx
  simp only [hpark x hx, settle_pending hx' hp]
  refine ⟨park_registry _ _ _ _ _, park_listens (g := { g with executions }) ⟨f.waiters, f.handles⟩ _ _ _ _, ?_⟩
  have hs := Gate.park_handles { g with executions } r.wait.execution x deadline clock.now g.nextSerial
  rwa [if_pos rfl] at hs

/-! ## A pending wait -/

/-- A handle parked where nothing is registered can only be told so, when its deadline comes. -/
theorem poll_unregistered {g : Gate} {s : Nat} {h : Handle} (hs : g.handles.get? s = some h) (hm : h.mail = .none)
    (hn : g.registry.get? h.token = none) {clock : Clock} {first : Bool} {e : ExecutionId} {reason : String}
    (ha : (g.poll s clock first).1 = some (.error (.cancelled e reason))) :
    reason = "wait is no longer registered" := by
  have silent (g : Gate) {h : Handle} (hm : h.mail = .none) : (g.readMail s h clock.now).1 = none := by
    rw [Gate.readMail, hm]
  rw [Gate.poll, hs] at ha
  simp only at ha
  split at ha
  · -- the deadline finds nothing to expire, and what is parked there is told that nothing is registered
    have hfind : g.registry.find? h.token = none := Option.map_eq_none_iff.1 hn
    have hexp : g.registry.expire h.token clock.now = (.notFound, g.registry) := by
      rw [Registry.expire, Registry.changePending, hfind]
    simp only [Gate.onDeadline, hexp, Gate.settle, hn, Gate.signal_handles, Table.get?_insert_self] at ha
    split at ha
    · cases ha
    · rename_i h' hh'
      split at hh'
      · cases hh'
        simp only [Gate.readMail, Gate.finish] at ha
        cases ha
        rfl
      · cases hh'
        cases (silent _ (h := { h with deadline := none }) hm).symm.trans ha
  · rw [silent _ hm] at ha
    cases ha

variable {g : Gate} {t a : Token} {r : WaitRecord}

/-- What a cancellation makes of a handle that was parked again on a pending wait: under the token it is told, under
the alias it stays parked where nothing is registered any more. -/
theorem reattach_cancelled (s : g.Sound) (ha : g.registry.find? a = some (t, r)) (hp : r.isPending = true)
    (hne : a ≠ t) (clock : Clock) (reason : String) :
    let e := r.wait.execution
    let ga := ((g.reattach e a clock).2.cancelExecution e reason clock.now).2
    Mailed ((g.reattach e t clock).2.cancelExecution e reason clock.now).2 g.nextSerial e (.cancelled reason) ∧
      ∃ h, ga.handles.get? g.nextSerial = some h ∧ h.mail = .none ∧ ga.registry.get? h.token = none := by
  intro e ga
  obtain ⟨hr, rfl | ⟨hna, hat⟩⟩ := Registry.find?_eq_some.1 ha
  · exact absurd rfl hne
  have ht : g.registry.get? t = some r := by
    rw [Registry.get?, Registry.find?_eq_some.2 ⟨hr, .inl rfl⟩]
    rfl
  have ha' : g.registry.get? a = some r := by
    rw [Registry.get?, ha]
    rfl
  obtain ⟨deadline, hl⟩ := reattach_listens s.fresh hp clock
  have mem : t ∈ (g.registry.cancel e).1 := (Registry.mem_cancel s.registry.toDistinct).2 ⟨r, hr, hp, rfl⟩
  have notMem : a ∉ (g.registry.cancel e).1 := fun hm => by
    obtain ⟨q, hq, -⟩ := (Registry.mem_cancel s.registry.toDistinct).1 hm
    cases hna.symm.trans hq
  constructor
  · obtain ⟨hreg, l, hs⟩ := hl t ht
    have ends : (g.reattach e t clock).2.Ends t (.cancel e reason clock.now) := by
      show t ∈ ((g.reattach e t clock).2.registry.cancel e).1
      rw [hreg]
      exact mem
    obtain ⟨w, hw⟩ := l.parked _ hs rfl
    refine (l.act (.cancel e reason clock.now)).mailed ends.waiters (h := ⟨e, t, deadline, .signal (.cancelled reason)⟩)
      ?_ rfl
    rw [Gate.act, (cancelExecution_handles _ e reason clock.now).1, signals_handles _ _ (l.withRegistry _).owns, if_pos]
    · show ((g.reattach e t clock).2.handles.get? g.nextSerial).map _ = _
      rw [hs]
      rfl
    · refine ⟨ends, ?_⟩
      show ((g.reattach e t clock).2.waiters.get? t).isSome = true
      rw [hw]
      rfl
  · obtain ⟨hreg, l, hs⟩ := hl a ha'
    refine ⟨⟨e, a, deadline, .none⟩, ?_, rfl, ?_⟩
    · rw [(cancelExecution_handles _ e reason clock.now).1, signals_handles _ _ (l.withRegistry _).owns, if_neg]
      · exact hs
      · intro hm
        rw [hreg] at hm
        exact notMem hm.1
    · -- the record is gone, and its alias with it
      have f := Registry.cancel_forgets s.registry.toDistinct e
      rw [cancelExecution_registry, hreg, Registry.get?, Option.map_eq_none_iff, Registry.find?, f.records,
        if_neg notMem, hna]
      cases hx : (g.registry.cancel e).2.aliases.get? a with
      | none => rfl
      | some u =>
        obtain ⟨hu, hn⟩ := (f.aliases a u).1 hx
        cases hat.symm.trans hu
        exact absurd mem hn

/-- **The alias of a pending wait is not as good as its token.**  The handles that parking again gives under the two
addresses answer alike to whatever goes on, exactly when the addresses are one or the wait is over; and while no
decision and no cancellation leaves the one under the token parked, that is so of the one under the alias just then
too. -/
theorem same_by_either_address_iff (hg : g.Reachable) (ha : g.registry.find? a = some (t, r)) (clock : Clock) :
    let e := r.wait.execution
    let s := g.nextSerial
    let byToken := (g.reattach e t clock).2
    let byAlias := (g.reattach e a clock).2
    (g.reattach e t clock).1 = .ok s ∧ (g.reattach e a clock).1 = .ok s ∧
      ((∀ calls, byAlias.heard s calls = byToken.heard s calls) ↔ a = t ∨ r.isPending = false) ∧
      byToken.Wakes t s ∧ (byAlias.Wakes t s ↔ a = t ∨ r.isPending = false) := by
  intro e s byToken byAlias
  have sound := hg.sound
  have hr := Registry.find?_records ha
  have ht : g.registry.get? t = some r := by
    rw [Registry.get?, Registry.find?_eq_some.2 ⟨hr, .inl rfl⟩]
    rfl
  have ha' : g.registry.get? a = some r := by
    rw [Registry.get?, ha]
    rfl
  obtain ⟨executions, hpark⟩ := reattach_eq g r clock
  have ok : ∀ x, g.registry.get? x = some r → (g.reattach e x clock).1 = .ok s := fun x hx => by rw [hpark x hx]
  refine ⟨ok t ht, ok a ha', ?_⟩
  cases hp : r.isPending with
  | false =>
    obtain ⟨sig, hsig, hf⟩ := told?_final hp (sound.concluded t r hr)
    have mt : Mailed byToken s e sig := reattach_mailed sound.fresh hsig clock ht
    have ma : Mailed byAlias s e sig := reattach_mailed sound.fresh hsig clock ha'
    exact ⟨⟨fun _ => .inr rfl, fun _ calls => ma.heard hf calls mt⟩, mt.wakes t, fun _ => .inr rfl, fun _ => ma.wakes t⟩
  | true =>
    obtain ⟨due, hl⟩ := reattach_listens sound.fresh hp clock
    have wakes : byToken.Wakes t s := (hl t ht).2.1.wakes
    by_cases hat : a = t
    · subst hat
      exact ⟨⟨fun _ => .inl rfl, fun _ _ => rfl⟩, wakes, fun _ => .inl rfl, fun _ => wakes⟩
    · have no : ¬(a = t ∨ true = false) := by simp [hat]
      obtain ⟨told, h, hs, hm, hn⟩ := reattach_cancelled sound ha hp hat clock "stop"
      refine ⟨⟨fun same => ?_, fun h => absurd h no⟩, wakes, fun hw => ?_, fun h => absurd h no⟩
      · -- cancelled and then polled, the one is told the reason and the other is not
        have same := same [.cancel e "stop" clock.now, .poll s clock false]
        simp only [Gate.heard, Gate.answer?, Gate.act, if_true, List.cons.injEq, and_true, true_and] at same
        obtain ⟨-, k, h', he, hans⟩ := told.poll clock false
        rw [hans] at same
        have := poll_unregistered hs hm hn same
        simp at this
      · refine absurd hm (hw [] (.cancel e "stop" clock.now) h ?_ hs)
        show t ∈ (byAlias.registry.cancel e).1
        rw [(hl a ha').1]
        exact (Registry.mem_cancel sound.registry.toDistinct).2 ⟨r, hr, hp, rfl⟩

/-- A gate in which a wait is registered that has an alias, after some parts of steps. -/
def aliasedGate (steps : List Step) : Gate :=
  let w : Wait := { Wait.start default default .epoch with aliasToken := some ⟨"alias", by decide⟩ }
  ((Traffic.idle (.start .empty none)).run (.begin (.register w) :: steps)).gate

theorem aliasedGate_reachable (steps : List Step) : (aliasedGate steps).Reachable :=
  ⟨.memory, Registry.defaultTtl, .byText, .empty, none, _, Registry.openStore_memory .byText, fun _ h => (nomatch h),
    rfl⟩

/-- After an approval the alias is as good as the token. -/
theorem approval_read_under_alias :
    let t : Token := default
    let a : Token := ⟨"alias", by decide⟩
    let yes : Decision := ⟨t, .null, .approved, none, .epoch⟩
    let g := aliasedGate [.begin (.deliver t yes), .resume (.wake t (.decision yes))]
    let clock : Clock := ⟨.epoch, 0⟩
    let byAlias := (g.reattach default a clock).2
    (∀ first, byAlias.heard 1 [.poll 1 clock first] = [some (.ok (.approved none))]) ∧
      ∀ calls, byAlias.heard 1 calls = (g.reattach default t clock).2.heard 1 calls := by
  intro t a yes g clock byAlias
  let w : Wait := { Wait.start t default .epoch with aliasToken := some a }
  let r : WaitRecord := { (WaitRecord.ofWait w).finish .resolved .epoch with decision := some yes }
  have hfind : g.registry.find? a = some (t, r) := by decide
  have hg : g.Reachable := aliasedGate_reachable _
  exact ⟨by decide, (same_by_either_address_iff hg hfind clock).2.2.1.2 (.inr (by decide))⟩

/-- **Parked again under the alias, an execution misses its approval**: the decision is accepted and the execution is
not told, while parked again under the token it is. -/
theorem approval_missed_under_alias :
    let t : Token := default
    let a : Token := ⟨"alias", by decide⟩
    let g := aliasedGate []
    let clock : Clock := ⟨.epoch, 0⟩
    let body := "\x7b\"result\":\"approved\"\x7d".toUTF8
    let calls : List Call := [.receive t.text body none .epoch, .poll 1 clock false]
    let byToken := (g.reattach default t clock).2
    let byAlias := (g.reattach default a clock).2
    g.Reachable ∧ (g.registry.find? a).map Prod.fst = some t ∧
      (byAlias.receive t.text body none .epoch).1 = .accepted default .approved ∧
      byToken.heard 1 calls = [none, some (.ok (.approved none))] ∧ byAlias.heard 1 calls = [none, none] ∧
      ¬byAlias.Wakes t 1 := by
  intro t a g clock body calls byToken byAlias
  have accepted : (byAlias.receive t.text body none .epoch).1 = .accepted default .approved := by decide +kernel
  have parked : ((byAlias.act (.receive t.text body none .epoch)).handles.get? 1).map Handle.mail = some .none := by
    decide +kernel
  refine ⟨aliasedGate_reachable [], by decide, accepted, by decide +kernel, by decide +kernel, fun hw => ?_⟩
  obtain ⟨h, hs, hm⟩ := Option.map_eq_some_iff.1 parked
  exact hw [] (.receive t.text body none .epoch) h ⟨⟨t, by decide, by decide⟩, _, _, accepted⟩ hs hm

end ApprovalGate
