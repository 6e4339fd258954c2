import ApprovalGate.Proofs.Gate.Conclusion
/-!
# Answers and states agree

Executions that are run and parked, and waits that are registered, keep the accord, so that every orderly course does.
Its states then agree with what its handles were answered (`states_agree_with_answers`), as long as nobody is parked at
the wait of another execution and no pass over overdue waits overtakes a handle; otherwise they may not
(`answers_at_odds_with_states`).
-/
namespace ApprovalGate

open Gate (Event)

namespace Course

variable {x : Course} {e : ExecutionId}

/-! ## Executions are parked -/

theorem Accord.attach (a : x.Accord) (l : x.Loose e) (hs : x.Parkable e) {t : Token}
    (only : x.gate.registry.LeadsOnlyTo t e) (deadline : Option Nat) (now : Instant) :
    Accord { x with gate := (x.gate.attach e t deadline now).2 } := by
  refine (a.park l hs t deadline now).settle fun w h hw hk => ?_
  have hw : (x.gate.park e t deadline now).waiters.get? t = some w := hw
  rw [Gate.park_waiters, if_pos rfl] at hw
  cases hw
  have hk : (x.gate.park e t deadline now).handles.get? x.gate.nextSerial = some h := hk
  rw [Gate.park_handles, if_pos rfl] at hk
  cases hk
  exact (park_registry x.gate e t deadline now).symm ▸ only

theorem Accord.use (a : x.Accord) (e : ExecutionId) : Accord { x with used := e :: x.used } :=
  { a with
    used := fun s h hs => List.mem_cons_of_mem e (a.used s h hs)
    flights := fun e' hf => ⟨List.mem_cons_of_mem e (a.flights e' hf).1, (a.flights e' hf).2⟩
    ends := fun e' s hs => ⟨List.mem_cons_of_mem e (a.ends e' s hs).1, (a.ends e' s hs).2⟩
    stands := fun e' => { a.stands e' with
      unused := fun hu => (a.stands e').unused fun h => hu (List.mem_cons_of_mem e h) } }

/-- An execution that was not used yet is loose when it is, and can be noted as nothing but aborted. -/
theorem Accord.unused (a : x.Accord) (hu : e ∉ x.used) : Loose { x with used := e :: x.used } e ∧
    (x.gate.state? e = none ∨ x.gate.state? e = some .aborted ∧ x.Bereft e) :=
  ⟨⟨List.mem_cons_self, fun hf => hu (a.flights e hf).1, fun s h hs he => hu (he ▸ a.used s h hs),
    fun s hs => hu (a.ends e s hs).1⟩, (a.stands e).unused hu⟩

theorem Accord.attached (a : x.Accord) (hu : e ∉ x.used) {t : Token} (only : x.gate.registry.LeadsOnlyTo t e)
    (deadline : Option Nat) (now : Instant) : Accord (x.happen (.attach e t deadline now)) := by
  obtain ⟨l, hs⟩ := a.unused hu
  exact (a.use e).attach l (hs.imp_right .inr) only deadline now

/-- An execution that is loose can be noted as started anew. -/
theorem Accord.restart (a : x.Accord) (l : x.Loose e) (job : Option JobId) (now : Instant) :
    Accord { x with gate := { x.gate with executions := x.gate.executions.insert e (.start e job now) } } := by
  refine a.note (a.noted.insert e _) fun e' => ?_
  rw [Gate.state?_insert]
  split
  · rename_i he
    exact he ▸ l.stands _
  · exact a.stands e'

theorem Accord.reattached (a : x.Accord) (hu : e ∉ x.used) (t : Token) (clock : Clock) :
    Accord (x.happen (.reattach e t clock)) := by
  obtain ⟨l, hs⟩ := a.unused hu
  show Accord { x with gate := (x.gate.reattach e t clock).2, used := e :: x.used }
  have a' := a.use e
  rw [Gate.reattach]
  cases hx : x.gate.registry.get? t with
  | none => exact a'
  | some r =>
    simp only
    split
    · exact a'
    · rename_i he
      have only : x.gate.registry.LeadsOnlyTo t e := fun e' he' => by
        have he' : x.gate.registry.owner? t = some e' := he'
        rw [Registry.owner?, hx] at he'
        exact (Option.some.inj he').symm.trans (Classical.not_not.1 he)
      split
      · exact a'.attach l (hs.imp_right .inr) only _ clock.now
      · exact (a'.restart l r.wait.job clock.now).attach l
          (.inr (.inl ((x.gate.state?_insert e e _).trans (if_pos rfl)))) only _ clock.now

/-! ## Waits are registered -/

theorem Accord.refused (a : x.Accord) {w : Wait} {f : Failure} {g : Registry}
    (hr : x.gate.registry.register w = (.error f, g)) :
    Accord { x with gate := { x.gate with registry := g } } := by
  have sound := a.sound.happen (.call (.register w))
  rw [Registry.happen, Registry.perform, hr] at sound
  refine a.wane sound ?_
  rcases x.gate.registry.register_cases w with ⟨r, -, -, heq⟩ | ⟨f, store, -, heq⟩ | ⟨store, -, -, heq⟩
  · cases heq.symm.trans hr
    exact Registry.wanes_refl _
  · cases heq.symm.trans hr
    exact Registry.wanes_refl _
  · cases heq.symm.trans hr

/-- A record after a registration is the new one, or was there and is not what the registration put an end to. -/
theorem registered_or {g h : Registry} {w : Wait} {sup : Superseded} (rg : Registry.Registers g w sup h) {t : Token}
    {r : WaitRecord} (hr : h.records.get? t = some r) :
    t = w.token ∧ r = Registry.fresh w ∨ g.records.get? t = some r ∧ sup.map Prod.fst ≠ some t := by
  rw [rg.records] at hr
  split at hr
  · rename_i ht
    cases hr
    exact .inl ⟨ht, rfl⟩
  · split at hr
    · cases hr
    · rename_i hs
      exact .inr ⟨hr, hs⟩

theorem Accord.register (a : x.Accord) {w : Wait} {sup : Superseded} {g : Registry}
    (hr : x.gate.registry.register w = (.ok sup, g)) (ho : w.execution ∉ x.owners) :
    Accord { x with gate := { x.gate with registry := g }, owners := w.execution :: x.owners } := by
  have rg := Registry.registers_of_ok a.sound.toDistinct hr
  have sound := a.sound.happen (.call (.register w))
  rw [Registry.happen, Registry.perform, hr] at sound
  -- the new wait is none of an execution that had one
  have wanes (e : ExecutionId) : x.Wanes g (w.execution :: x.owners) e := fun he => by
    refine ⟨List.mem_cons_of_mem _ he, fun t r hr hre => ?_⟩
    rcases registered_or rg hr with ⟨-, rfl⟩ | ⟨hr, -⟩
    · exact absurd (hre ▸ he) ho
    · exact ⟨r, hr, hre, id⟩
  refine { a with
    sound
    single := fun t t' r r' ht ht' he => ?_
    owners := fun t r ht => ?_
    tidy := a.tidy.rest g _
    stands := fun e => (a.stands e).wane (wanes e) (fun _ h hs he => ⟨h, hs, he⟩) (a.stands e).told }
  · rcases registered_or rg ht with ⟨rfl, rfl⟩ | ⟨hq, -⟩
    · rcases registered_or rg ht' with ⟨rfl, -⟩ | ⟨hq', -⟩
      · rfl
      · exact absurd (he.symm ▸ a.owners t' r' hq' : w.execution ∈ x.owners) ho
    · rcases registered_or rg ht' with ⟨rfl, rfl⟩ | ⟨hq', -⟩
      · exact absurd (he ▸ a.owners t r hq : w.execution ∈ x.owners) ho
      · exact a.single t t' r r' hq hq' he
  · rcases registered_or rg ht with ⟨-, rfl⟩ | ⟨hq, -⟩
    · exact List.mem_cons_self
    · exact List.mem_cons_of_mem _ (a.owners t r hq)

/-- An execution can go on to being aborted if it can be noted as aborted. -/
theorem Stands.moved (st : x.Stands e (x.gate.state? e)) (ab : x.Stands e (some .aborted)) :
    x.Stands e (some (x.gate.moved e .aborted)) := by
  rw [Gate.moved]
  cases hs : x.gate.state? e with
  | none => exact ab
  | some s =>
    rw [hs] at st
    show x.Stands e (some (s.next .aborted))
    rw [ExecutionState.next]
    split
    · exact st
    · exact ab

theorem signal_transition (g : Gate) (t : Token) (sig : Signal) (e : ExecutionId) (s : ExecutionState) (now : Instant) :
    (g.signal t sig).2.transition e s none now = ((g.transition e s none now).signal t sig).2 := by
  rw [Gate.transition, Gate.signal_executions]
  exact (Gate.signal_note g t sig _).symm

theorem Accord.supersede (a : x.Accord) {w : Wait} {sup : Superseded} {g : Registry}
    (hr : x.gate.registry.register w = (.ok sup, g)) (ho : w.execution ∉ x.owners) (now : Instant) :
    Accord { x with
      gate := Gate.supersede { x.gate with registry := g } sup now, owners := w.execution :: x.owners } := by
  have a' := a.register hr ho
  cases sup with
  | none => exact a'
  | some p =>
    obtain ⟨t, owner⟩ := p
    have rg := Registry.registers_of_ok a.sound.toDistinct hr
    obtain ⟨-, r, job, hp, hpend, rfl, -⟩ := rg.superseded t owner rfl
    obtain ⟨untold, unended⟩ := a.of_pending hp hpend
    rw [Gate.supersede]
    simp only
    rw [signal_transition]
    have ab := stands_aborted (x := { x with
      gate := { x.gate with registry := g }, owners := w.execution :: x.owners })
      ⟨List.mem_cons_of_mem _ (a.owners t r hp), fun u q hq hqe => ?_⟩ untold unended
    · have aborted := a'.transition ((a'.stands _).moved ab) none now
      exact aborted.signal_cancelled t _
    · rcases registered_or rg hq with ⟨-, rfl⟩ | ⟨hq, hne⟩
      · exact ho (hqe ▸ a.owners t r hp : w.execution ∈ x.owners)
      · cases a.single u t q r hq hp hqe
        exact hne rfl

/-! ## Runs -/

theorem Accord.depart (a : x.Accord) (l : x.Loose e)
    (hs : x.gate.state? e = none ∨ x.gate.state? e = some .submitting ∨ x.gate.state? e = some .aborted) :
    Accord { x with flights := e :: x.flights } :=
  { a with
    flights := fun e' hf => (List.mem_cons.1 hf).elim (fun h => h.symm ▸ ⟨l.1, l.2.2.1⟩) (a.flights e')
    ends := fun e' s h => ⟨(a.ends e' s h).1, fun hf => (List.mem_cons.1 hf).elim (fun he => l.2.2.2 s (he ▸ h))
      (a.ends e' s h).2.1, (a.ends e' s h).2.2⟩
    stands := fun e' => { a.stands e' with
      flying := fun hf ho => (List.mem_cons.1 hf).elim (fun h => h ▸ hs) fun hf => (a.stands e').flying hf ho } }

theorem Accord.land (a : x.Accord) (e : ExecutionId) :
    Accord { x with flights := x.flights.filter fun e' => decide (e' ≠ e) } :=
  { a with
    flights := fun e' hf => a.flights e' (List.mem_filter.1 hf).1
    ends := fun e' s h => ⟨(a.ends e' s h).1, fun hf => (a.ends e' s h).2.1 (List.mem_filter.1 hf).1,
      (a.ends e' s h).2.2⟩
    stands := fun e' => { a.stands e' with
      flying := fun hf ho => (a.stands e').flying (List.mem_filter.1 hf).1 ho } }

theorem beginRun_cases (g : Gate) (e : ExecutionId) (r : ChangeRequest) (random : Uuid) (now : Instant) :
    let g' := { g with executions := g.executions.insert e (.start e (some r.job) now) }
    (∃ f, g.beginRun e r random now = (.error f, g)) ∨
    (∃ f, g.beginRun e r random now = (.error f, g'.transition e .commFailure none now)) ∨
    ∃ (i : Issuer) (d : Draft), i.draft r random = .ok d ∧ g.beginRun e r random now = (.ok d, g') := by
  intro g'
  rw [Gate.beginRun]
  split
  · exact .inl ⟨_, rfl⟩
  · rename_i i _
    simp only
    cases hd : i.draft r random with
    | error f => exact .inr (.inl ⟨_, rfl⟩)
    | ok d => exact .inr (.inr ⟨i, d, hd, rfl⟩)

theorem Accord.begun (a : x.Accord) (hu : e ∉ x.used) (r : ChangeRequest) (random : Uuid) (now : Instant) :
    Accord (x.happen (.beginRun e r random now)) := by
  obtain ⟨l, -⟩ := a.unused hu
  have started := (a.use e).restart l (some r.job) now
  show Accord { x with
    gate := (x.gate.beginRun e r random now).2
    used := e :: x.used
    flights := if (x.gate.beginRun e r random now).1.isOk then e :: x.flights else x.flights }
  rcases beginRun_cases x.gate e r random now with ⟨f, heq⟩ | ⟨f, heq⟩ | ⟨i, d, -, heq⟩
  · rw [heq]
    exact a.use e
  · rw [heq]
    exact started.transition (Loose.stands (by exact l) _) none now
  · rw [heq]
    exact started.depart l (.inr (.inl ((x.gate.state?_insert e e _).trans (if_pos rfl))))

/-- What a registration puts an end to concerns only its owner. -/
theorem supersede_spares (g : Gate) {sup : Superseded} (hn : ∀ p, sup ≠ some (p, e)) (now : Instant) :
    (g.supersede sup now).registry = g.registry ∧ (g.supersede sup now).state? e = g.state? e ∧
      (g.Free e → (g.supersede sup now).Free e) := by
  refine ⟨g.supersede_registry sup now, ?_, fun free s h hs he => ?_⟩
  · rw [g.supersede_state?, if_neg]
    intro h
    obtain ⟨⟨p, owner⟩, rfl, rfl⟩ := Option.map_eq_some_iff.1 h
    exact hn p rfl
  · cases sup with
    | none => exact free s h hs he
    | some p =>
      have hs : (g.signal p.1 (.cancelled Gate.supersession)).2.handles.get? s = some h := hs
      have same := g.signal_keeps (f := Handle.execution) (fun _ _ => rfl) p.1 (.cancelled Gate.supersession) s
      rw [hs] at same
      obtain ⟨h', hs', he'⟩ := Option.map_eq_some_iff.1 same.symm
      exact free s h' hs' (he'.trans he)

theorem Accord.finished (a : x.Accord) (hf : e ∈ x.flights) {d : Draft} {reply : Outcome Reply} {clock : Clock}
    (ho : ∀ e' ∈ x.gate.newOwner? (.finishRun e d reply clock), e' ∉ x.owners) :
    Accord (x.happen (.finishRun e d reply clock)) := by
  obtain ⟨hu, free⟩ := a.flights e hf
  have l : Loose { x with flights := x.flights.filter fun e' => decide (e' ≠ e) } e :=
    ⟨hu, fun h => of_decide_eq_true (List.mem_filter.1 h).2 rfl, free, fun s h => (a.ends e s h).2.1 hf⟩
  have a' := a.land e
  show Accord { x with
    gate := (x.gate.finishRun e d reply clock).2
    flights := x.flights.filter fun e' => decide (e' ≠ e)
    owners := (x.gate.newOwner? (.finishRun e d reply clock)).toList ++ x.owners }
  rw [Gate.newOwner?] at ho ⊢
  rw [Gate.finishRun]
  rcases hc : Issuer.complete x.gate.registry d e clock.now reply with ⟨result, g⟩
  cases Issuer.completes hc with
  | unanswered => exact a'.transition (l.stands _) none clock.now
  | declined => exact a'.transition (l.stands _) none clock.now
  | unregistered _ hr => exact (a'.refused hr).transition (Loose.stands (by exact l) _) none clock.now
  | @registered reply _ sup _ _ hr =>
    rw [hc] at ho
    obtain ⟨-, -, he, -⟩ := Issuer.waitFor_fields d reply e clock.now
    generalize Issuer.waitFor d reply e clock.now = w at hr he ⊢
    subst he
    have ho : w.execution ∉ x.owners := ho w.execution rfl
    have rg := Registry.registers_of_ok a.sound.toDistinct hr
    have superseded := a'.supersede hr ho clock.now
    have other (p) : sup ≠ some (p, w.execution) := fun h => by
      obtain ⟨-, r, job, hp, -, he, -⟩ := rg.superseded p w.execution h
      exact ho (he ▸ a.owners p r hp)
    obtain ⟨hreg, hstate, hfree⟩ := supersede_spares { x.gate with registry := g } other clock.now
    simp only
    split
    · exact superseded.perform (.cancel w.execution) rfl
    · rename_i hs
      refine superseded.attach ⟨hu, l.2.1, hfree free, l.2.2.2⟩ ?_ ?_ _ clock.now
      · refine ((a.stands w.execution).flying hf ho).imp hstate.trans ?_
        rintro (h | h)
        · exact .inl (hstate.trans h)
        · exact absurd (hstate.trans h) hs
      · have hg : g.records.get? w.token = some (Registry.fresh w) := by rw [rg.records, if_pos rfl]
        intro e' he'
        have he' : Registry.owner? (Gate.supersede { x.gate with registry := g } sup clock.now).registry
          w.token = some e' := he'
        rw [hreg, owner?_of_find? (Registry.find?_eq_some.2 ⟨hg, .inl rfl⟩)] at he'
        exact (Option.some.inj he').symm

/-! ## Courses -/

/-- What a sweep leaves noted of an execution. -/
theorem sweepFinished_state? {g : Gate} (d : g.executions.Distinct) (now : Instant) (retention : Span)
    (e : ExecutionId) : (g.sweepFinished now retention).2.state? e = g.state? e ∨
      (g.sweepFinished now retention).2.state? e = none ∧ e ∈ g.swept (.sweepFinished now retention) ∧
        ∃ s, g.state? e = some s ∧ s.isTerminal = true := by
  have kept : (g.sweepFinished now retention).2.state? e =
      ((g.executions.get? e).filter fun x => !Gate.isForgettable retention now x).map Execution.state := by
    rw [Gate.state?, Gate.sweepFinished, Table.get?_filter d]
  rw [kept, Gate.state?]
  cases hx : g.executions.get? e with
  | none => exact .inl rfl
  | some x =>
    cases hf : Gate.isForgettable retention now x with
    | false =>
      rw [Option.filter_some, hf]
      exact .inl rfl
    | true =>
      rw [Option.filter_some, hf]
      have mem : (e, x) ∈ (g.executions.filter fun _ x => Gate.isForgettable retention now x).entries :=
        List.mem_filter.2 ⟨(Table.mem_entries_iff d).2 hx, hf⟩
      rw [Gate.isForgettable] at hf
      exact .inr ⟨rfl, List.mem_map.2 ⟨(e, x), mem, rfl⟩, x.state, rfl, (Bool.and_eq_true_iff.1 hf).1⟩

theorem Accord.swept (a : x.Accord) (now : Instant) (retention : Span) :
    Accord (x.happen (.sweepFinished now retention)) := by
  refine { a with noted := a.noted.filter _, tidy := a.tidy.rest _ _, stands := fun e => ?_ }
  have st := a.stands e
  have shows {s? s'? : Option ExecutionState} {s : ExecutionState} (hs : s'? = s? ∨ s'? = none ∧
      e ∈ x.gate.swept (.sweepFinished now retention)) (h : x.Shows e s? s) :
      Shows (x.happen (.sweepFinished now retention)) e s'? s := by
    rcases hs with rfl | ⟨rfl, hsw⟩
    · exact h.imp_right (And.imp_right (List.mem_append_right _))
    · exact .inr ⟨rfl, List.mem_append_left _ hsw⟩
  rcases sweepFinished_state? a.noted now retention e with hs | ⟨hs, hsw, s, hst, hterm⟩
  · rw [← hs] at st
    exact {
      unused := st.unused
      flying := st.flying
      parked := fun k h hk he => (st.parked k h hk he).imp_right (And.imp_right (shows (.inl rfl)))
      told := st.told
      ended := fun s h => (st.ended s h).imp_right (And.imp_right (shows (.inl rfl))) }
  · rw [hst] at st
    show Stands _ e ((x.gate.sweepFinished now retention).2.state? e)
    rw [hs]
    -- what is waiting is not swept
    have notWaiting : some s ≠ some .waiting := fun h => by
      cases h
      cases hterm
    exact {
      unused := fun _ => .inl rfl
      flying := fun _ _ => .inl rfl
      parked := fun k h hk he => .inr (((st.parked k h hk he).resolve_left notWaiting).imp_right
        (shows (.inr ⟨rfl, hsw⟩)))
      told := fun k h hk he hm => absurd (st.told k h hk he hm).1 notWaiting
      ended := fun s h => (st.ended s h).imp_right (And.imp_right (shows (.inr ⟨rfl, hsw⟩))) }

/-- **Every orderly event keeps the accord.** -/
theorem Accord.happen (a : x.Accord) {ev : Event} (fits : x.Fits ev) (apart : x.Apart ev) (hn : ¬x.Overtakes ev) :
    Accord (x.happen ev) := by
  obtain ⟨unused, fresh, flying⟩ := fits
  cases ev with
  | register w =>
    rcases hr : x.gate.registry.register w with ⟨result, g⟩
    show Accord { x with
      gate := { x.gate with registry := (x.gate.registry.register w).2 }
      owners := (if (x.gate.registry.register w).1.isOk then some w.execution else none).toList ++ x.owners }
    have fresh : ∀ e ∈ (if (x.gate.registry.register w).1.isOk then some w.execution else none), e ∉ x.owners := fresh
    rw [hr] at fresh ⊢
    cases result with
    | error f => exact a.refused hr
    | ok sup => exact a.register hr (fresh w.execution rfl)
  | upkeep op quiet =>
    refine a.perform op ?_
    cases op with
    | register w => cases quiet
    | _ => rfl
  | beginRun e r random now => exact a.begun (unused e rfl) r random now
  | finishRun e d reply clock => exact a.finished (flying e rfl) fresh
  | attach e t deadline now => exact a.attached (unused e rfl) (apart.2 (e, t) rfl) deadline now
  | reattach e t clock => exact a.reattached (unused e rfl) t clock
  | call c =>
    cases c with
    | receive address body contentType now => exact a.receive (a.ownAt apart) address body contentType now
    | cancel e reason now => exact a.cancelExecution e reason now
    | expireOverdue at' c => exact a.expireOverdue hn
    | poll k clock first => exact a.poll (a.ownAt apart) k clock first
  | drop k now => exact a.drop k now
  | sweepFinished now retention => exact a.swept now retention

theorem accord_start {registry : Registry} (sound : registry.Sound) (single : registry.Single)
    (issuer : Option Issuer) : Accord (.start registry issuer) := by
  have noHandle {k : Nat} {h : Handle} (hk : (Gate.start registry issuer).handles.get? k = some h) : False :=
    by cases hk
  refine {
    sound, single
    owners := fun t r hr => List.mem_map.2 ⟨r, (Table.mem_values_iff sound.records).2 ⟨t, hr⟩, rfl⟩
    noted := Table.distinct_empty
    tidy := ⟨⟨fun _ _ h => ?_, fun _ _ h => (noHandle h).elim⟩, fun _ _ _ _ h => (noHandle h).elim,
      fun _ _ _ _ h => (noHandle h).elim⟩
    used := fun _ _ h => (noHandle h).elim
    flights := fun _ h => absurd h List.not_mem_nil
    ends := fun _ _ h => absurd h List.not_mem_nil
    stands := fun e => {
      unused := fun _ => .inl rfl
      flying := fun h => absurd h List.not_mem_nil
      parked := fun _ _ h => (noHandle h).elim
      told := fun _ _ h => (noHandle h).elim
      ended := fun _ h => absurd h List.not_mem_nil } }
  cases h

/-- An execution whose handle answers is known then. -/
theorem readMail_known {g : Gate} {k : Nat} {h : Handle} {now : Instant} {p : ExecutionId × ExecutionState}
    (hs : Gate.endOf? h.execution (g.readMail k h now).1 = some p) :
    (g.readMail k h now).2.state? h.execution ≠ none := by
  have known (g : Gate) (s : ExecutionState) : (g.transition h.execution s none now).state? h.execution ≠ none := by
    rw [Gate.transition_state?, if_pos rfl]
    exact Option.some_ne_none _
  rw [Gate.readMail] at hs ⊢
  cases hm : h.mail with
  | none =>
    rw [hm] at hs
    cases hs
  | lost =>
    rw [hm] at hs
    cases hs
  | signal sig =>
    simp only [hm] at hs ⊢
    cases sig with
    | decision d =>
      simp only [Gate.finish] at hs ⊢
      cases ho : WaitOutcome.ofDecision? d with
      | none =>
        rw [ho] at hs
        cases hs
      | some o => exact known _ _
    | expired => exact known _ _
    | cancelled reason => exact known _ _

theorem poll_known {g : Gate} {k : Nat} {h : Handle} (hk : g.handles.get? k = some h) {clock : Clock} {first : Bool}
    {p : ExecutionId × ExecutionState} (hs : Gate.endOf? h.execution (g.poll k clock first).1 = some p) :
    (g.poll k clock first).2.state? h.execution ≠ none := by
  rcases Gate.poll_cases hk clock first with ⟨-, heq⟩ | ⟨-, h', -, he, -, heq⟩
  · rw [heq] at hs ⊢
    exact readMail_known hs
  · rw [heq, ← he] at hs ⊢
    exact readMail_known hs

end Course

open Course in
/-- **Outcomes and states agree**, along every orderly course from a gate that is opened, possibly again.  An execution
whose handle answers with an outcome is in the state of that outcome, one whose handle answers that it was cancelled is
aborted, and so is one whose handle is dropped; and each stays so until a sweep takes its record away. -/
theorem states_agree_with_answers {store : Store} {ttl : Span} {happens : TokenOrder} {registry : Registry}
    (ho : Registry.openStore store ttl happens = (.ok (), registry)) (single : registry.Single) (issuer : Option Issuer)
    (evs : List Event) (orderly : Run.Along Course.happen (fun x ev => x.Fits ev ∧ x.Apart ev ∧ ¬x.Overtakes ev)
      (.start registry issuer) evs) :
    let x (p : List Event) := (Course.start registry issuer).run p
    (∀ p k clock first h, p ++ [.call (.poll k clock first)] <+: evs → (x p).gate.handles.get? k = some h →
      (∀ o, ((x p).gate.poll k clock first).1 = some (.ok o) →
        ((x p).gate.poll k clock first).2.state? h.execution = some o.state) ∧
      ∀ e reason, ((x p).gate.poll k clock first).1 = some (.error (.cancelled e reason)) →
        ((x p).gate.poll k clock first).2.state? h.execution = some .aborted) ∧
    (∀ p k now h, p ++ [.drop k now] <+: evs → (x p).gate.handles.get? k = some h →
      (x p).Shows h.execution (((x p).gate.drop k now).state? h.execution) .aborted) ∧
    ∀ p e s, p <+: evs → (e, s) ∈ (x p).ends → (x p).Shows e ((x p).gate.state? e) s := by
  intro x
  have accord : ∀ p, p <+: evs → (x p).Accord := Run.always_of_keeps (f := Course.happen)
    (fun a h => a.happen h.1 h.2.1 h.2.2) (accord_start (Registry.openStore_sound ho) single issuer) orderly
  have ended {p : List Event} {ev : Event} (hp : p ++ [ev] <+: evs) {e : ExecutionId} {s : ExecutionState}
      (hs : (x p).gate.end? ev = some (e, s)) : ((x p).happen ev).Shows e (((x p).gate.happen ev).state? e) s := by
    have a := accord _ hp
    have hx : x (p ++ [ev]) = (x p).happen ev := List.foldl_append
    rw [hx] at a
    refine ((a.stands e).ended s ?_).2.2
    show (e, s) ∈ ((x p).gate.end? ev).toList ++ (x p).ends
    rw [hs]
    exact List.mem_append_left _ (List.mem_singleton_self _)
  refine ⟨fun p k clock first h hp hk => ?_, fun p k now h hp hk => ?_, fun p e s hp hs =>
    (((accord p hp).stands e).ended s hs).2.2⟩
  · have agree {s : ExecutionState}
        (hs : Gate.endOf? h.execution ((x p).gate.poll k clock first).1 = some (h.execution, s)) :
        ((x p).gate.poll k clock first).2.state? h.execution = some s := by
      refine (ended hp (s := s) ?_).resolve_right fun hn => poll_known hk hs hn.1
      rw [Gate.end?, hk]
      exact hs
    exact ⟨fun o ha => agree (by rw [ha]; rfl), fun e reason ha => agree (by rw [ha]; rfl)⟩
  · refine ended hp ?_
    rw [Gate.end?, hk]
    rfl

/-- An execution is approved by a callback after a pass over overdue waits, and another one is cancelled and dropped. -/
theorem approval_and_cancellation_noted :
    let t : Token := default
    let e : ExecutionId := default
    let t' : Token := ⟨"other", by decide⟩
    let e' : ExecutionId := ⟨.numbered 2⟩
    let body := "\x7b\"result\":\"approved\"\x7d".toUTF8
    let evs : List Event := [.register { Wait.start t e .epoch with expiresAt := some .epoch },
      .register (Wait.start t' e' .epoch), .attach e t none .epoch, .reattach e' t' ⟨.epoch, 0⟩,
      .call (.expireOverdue .epoch (.still .epoch)), .call (.receive t.text body none .epoch),
      .call (.cancel e' "stop" .epoch), .call (.poll 1 ⟨.epoch, 0⟩ false), .drop 2 .epoch]
    let x := (Course.start .empty none).run evs
    x.ends = [(e', .aborted), (e, .approved)] ∧ x.Shows e (x.gate.state? e) .approved ∧
      x.Shows e' (x.gate.state? e') .aborted ∧ x.swept = [] := by
  intro t e t' e' body evs x
  have hx : x.ends = [(e', .aborted), (e, .approved)] := by decide +kernel
  have h := states_agree_with_answers (Registry.openStore_memory .byText) (fun _ _ _ _ h => by cases h) none evs
    (by decide +kernel)
  exact ⟨hx, h.2.2 evs e .approved List.prefix_rfl (hx ▸ .tail _ (.head _)),
    h.2.2 evs e' .aborted List.prefix_rfl (hx ▸ .head _), by decide +kernel⟩

/-- **Answers and states can be at odds**, though every execution is used once and owns one wait.  One that was
cancelled is parked where its token has become another wait's alias, and answers that this wait timed out; one that was
parked too early is told so, and noted as timed out before it answers. -/
theorem answers_at_odds_with_states :
    let t : Token := default
    let e : ExecutionId := default
    let clock : Clock := ⟨.epoch, 0⟩
    let misled : List Event := [.register (Wait.start t e .epoch),
      .register { Wait.start ⟨"other", by decide⟩ ⟨.numbered 2⟩ .epoch with aliasToken := some t },
      .call (.cancel e "stop" .epoch), .attach e t (some 0) .epoch, .call (.poll 1 clock false)]
    let overtaken : List Event := [.attach e t none .epoch,
      .register { Wait.start t e .epoch with expiresAt := some .epoch }, .call (.expireOverdue .epoch (.still .epoch)),
      .call (.poll 1 clock false)]
    let start := Course.start .empty none
    Run.Along Course.happen Course.Fits start misled ∧ (start.run misled).ends = [(e, .timedOut)] ∧
      (start.run misled).gate.state? e = some .aborted ∧
      Run.Along Course.happen Course.Fits start overtaken ∧ (start.run overtaken).ends = [(e, .aborted)] ∧
      (start.run overtaken).gate.state? e = some .timedOut := by
  decide

/-- A pass over overdue waits takes no notice of who is parked under an alias: the execution is noted as timed out, and
its handle is dropped. -/
theorem overdue_pass_misses_alias :
    let t : Token := default
    let a : Token := ⟨"alias", by decide⟩
    let e : ExecutionId := default
    let evs : List Event := [
      .register { Wait.start t e .epoch with aliasToken := some a, expiresAt := some .epoch },
      .reattach e a ⟨.epoch, 0⟩, .call (.expireOverdue .epoch (.still .epoch)), .drop 1 .epoch]
    let start := Course.start .empty none
    Run.Along Course.happen (fun x ev => x.Fits ev ∧ x.Apart ev) start evs ∧
      (start.run evs).ends = [(e, .aborted)] ∧ (start.run evs).gate.state? e = some .timedOut := by
  decide

end ApprovalGate
