import ApprovalGate.Proofs.Gate.Listening
import ApprovalGate.Proofs.Registry.Records
import ApprovalGate.Proofs.Runs
import ApprovalGate.Registry.Basic
/-!
# When a decision counts as delivered

The mark on a record that its decision was delivered should say that some handle was answered with this decision of
this record (`MarksTrue`).  The traffic does not tell, so it is noted beside it who reads what (`Readership`): a handle
reads the decision of a record when its own address has shown it, and what was read is forgotten when the token is
registered anew.

Two parts of steps can set the mark without a reading (`MarksUnread`): a continuation that is parked after the decision
has the decision taken for it, and may be gone before it reads it (`decision_marked_without_reader`); and a handle that
reads its decision marks whatever record is under its token by then (`late_reader_marks_successor`).  All other parts
keep the marks true (`delivered_once_read_iff`).  Dropping a handle changes no record that is over.
-/
namespace ApprovalGate

open Registry (Operation)

/-! ## Marks -/

namespace Registry

/-- Operations that hand a decision over. -/
def Operation.isMark : Operation → Bool
  | .takeDecision _ | .markDelivered _ => true
  | _ => false

theorem takeDecision_eq {g : Registry} {x t : Token} {r : WaitRecord} {d : Decision} (hx : g.find? x = some (t, r))
    (hd : r.decision = some d) (hn : r.delivered = false) :
    g.takeDecision x = (some d, g.save t { r with delivered := true }) := by
  rw [takeDecision, hx]
  simp only [hn, Bool.false_eq_true, if_false, hd]

theorem markDelivered_eq {g : Registry} {x t : Token} {r : WaitRecord} {d : Decision} (hx : g.find? x = some (t, r))
    (hd : r.decision = some d) (hn : r.delivered = false) :
    g.markDelivered x = g.save t { r with delivered := true } := by
  rw [markDelivered, hx]
  simp only [hd, hn, Option.isSome_some, Bool.not_false, Bool.and_self, if_true]

/-- Whether a record that is marked was marked before, with the same decision unless its wait was pending. -/
def MarkedBefore (g : Registry) (u : Token) (q : WaitRecord) : Prop :=
  ∃ p, g.records.get? u = some p ∧ p.delivered = true ∧ (q.decision = p.decision ∨ p.isPending = true)

theorem changePending_marked {g : Registry} {x u : Token} {change : WaitRecord → WaitRecord}
    {answer : WaitRecord → Resolution} {q : WaitRecord}
    (hu : (g.changePending x change answer).2.records.get? u = some q)
    (hc : ∀ r, (change r).delivered = r.delivered) (hm : q.delivered = true) : g.MarkedBefore u q := by
  rcases changePending_cases g x change answer with ⟨t, r, hx, hp, heq⟩ | ⟨t, r, -, -, heq⟩ | ⟨-, heq⟩
  · rw [heq, save_get?] at hu
    split at hu
    · rename_i htu
      cases hu
      exact ⟨r, htu ▸ find?_records hx, (hc r).symm.trans hm, .inr hp⟩
    · exact ⟨q, hu, hm, .inl rfl⟩
  · rw [heq] at hu
    exact ⟨q, hu, hm, .inl rfl⟩
  · rw [heq] at hu
    exact ⟨q, hu, hm, .inl rfl⟩

/-- **An operation that hands nothing over marks nothing.** -/
theorem perform_marked {g : Registry} (s : g.Sound) {op : Operation} (hop : op.isMark = false) {u : Token}
    {q : WaitRecord} (hu : (g.perform op).records.get? u = some q) (hm : q.delivered = true) : g.MarkedBefore u q := by
  have d := s.toDistinct
  have held (h : g.records.get? u = some q) : g.MarkedBefore u q := ⟨q, h, hm, .inl rfl⟩
  have forgets {ts : List Token} (f : Forgets g ts (g.perform op)) : g.MarkedBefore u q := by
    rw [f.records] at hu
    split at hu
    · cases hu
    · exact held hu
  cases op with
  | register w =>
    rcases register_cases g w with ⟨r, -, -, heq⟩ | ⟨f, store, -, heq⟩ | ⟨store, hv, -, heq⟩
    · rw [perform, heq] at hu
      exact held hu
    · rw [perform, heq] at hu
      exact held hu
    · rw [perform, heq, (registers_takeUp d hv store).records] at hu
      split at hu
      · cases hu
        cases hm
      · split at hu
        · cases hu
        · exact held hu
  | resolve x dec =>
    rw [perform, resolve] at hu
    split at hu
    · exact changePending_marked hu (fun _ => rfl) hm
    · exact changePending_marked hu (fun _ => rfl) hm
  | noteUpdate x dec => exact changePending_marked hu (fun _ => rfl) hm
  | expire x now => exact changePending_marked hu (fun _ => rfl) hm
  | cancel e => exact forgets (cancel_forgets d e)
  | remove x =>
    rcases remove_cases g x with ⟨r, -, heq⟩ | ⟨-, heq⟩
    · refine @forgets [x] ?_
      rw [perform, heq]
      exact forgets_dropAll d [x]
    · rw [perform, heq] at hu
      exact held hu
  | sweep now => exact forgets (sweep_forgets d now)
  | takeDecision x => cases hop
  | markDelivered x => cases hop

end Registry

/-- Whether a record has no decision while its wait is pending. -/
def WaitRecord.Undecided (r : WaitRecord) : Prop := r.isPending = true → r.decision = none

theorem keeps_undecided (op : Operation) : op.Keeps WaitRecord.Undecided where
  fresh _ _ _ := rfl
  changed r r' b hu hp := by
    cases b.amends with
    | noted d _ => exact hu hp
    | resolved d _ _ => cases hp
    | expired now _ => cases hp
    | delivered d _ => exact hu hp

namespace Traffic

/-- Whether the registry is sound, and no record in it has a decision while its wait is pending. -/
def Proper (x : Traffic) : Prop := x.gate.registry.Sound ∧ x.gate.registry.Forall WaitRecord.Undecided

theorem Proper.step {x : Traffic} (h : x.Proper) (st : Step) : (x.step st).Proper := by
  rw [Proper, x.step_registry]
  cases x.op? st with
  | none => exact h
  | some op => exact ⟨h.1.happen (.call op), h.2.perform h.1 (keeps_undecided op)⟩

/-! ### Readings -/

/-- Whether an address shows a decision, which is that of the record under a token. -/
def Shows (x : Traffic) (a t : Token) (d : Decision) : Prop :=
  ∃ r, x.gate.registry.find? a = some (t, r) ∧ r.decision = some d

/-- Whether a part of a step registers a wait under a token. -/
def Renews (x : Traffic) (st : Step) (t : Token) : Prop :=
  ∃ w s g, x.op? st = some (.register w) ∧ w.token = t ∧ x.gate.registry.register w = (.ok s, g)

/-- Whether a part of a step is that a handle, which was parked by an address, reads a decision. -/
def Reads (x : Traffic) (st : Step) (s : Nat) (a : Token) (d : Decision) : Prop :=
  ∃ now h o, st = .begin (.read s now) ∧ x.gate.handles.get? s = some h ∧ h.token = a ∧
    h.mail = .signal (.decision d) ∧ WaitOutcome.ofDecision? d = some o

/-- Whether a handle was answered with the outcome of a decision. -/
def Heard (x : Traffic) (s : Nat) (d : Decision) : Prop :=
  ∃ o, WaitOutcome.ofDecision? d = some o ∧ (s, .ok o) ∈ x.results

end Traffic

/-- Traffic in which it is noted who reads the decisions of the records that are there. -/
structure Readership extends Traffic where
  /-- Whether an address has shown a decision of the record under a token since that was registered. -/
  shown : Token → Token → Decision → Prop
  /-- Whether a handle has read a decision of the record under a token since that was registered. -/
  read : Nat → Token → Decision → Prop

namespace Readership

/-- A gate in which nothing is half done, with what was answered and read before. -/
def opened (gate : Gate) (results : List (Nat × Outcome WaitOutcome)) (read : Nat → Token → Decision → Prop) :
    Readership :=
  { gate, halves := [], results, shown := Traffic.Shows ⟨gate, [], results⟩, read }

def step (x : Readership) (st : Step) : Readership where
  toTraffic := x.toTraffic.step st
  shown a t d := x.shown a t d ∧ ¬x.Renews st t ∨ (x.toTraffic.step st).Shows a t d
  read s t d := (x.read s t d ∨ ∃ a, x.Reads st s a d ∧ x.shown a t d) ∧ ¬x.Renews st t

def run (x : Readership) (steps : List Step) : Readership := steps.foldl step x

/-- What is noted changes nothing. -/
theorem run_toTraffic (steps : List Step) : ∀ x : Readership, (x.run steps).toTraffic = x.toTraffic.run steps := by
  induction steps with
  | nil => exact fun _ => rfl
  | cons st steps ih => exact fun x => ih (x.step st)

/-- Whether some handle read a decision of the record under a token, and was answered with its outcome. -/
def Returned (x : Readership) (t : Token) (d : Decision) : Prop := ∃ s, x.read s t d ∧ x.Heard s d

/-- Whether every record that is marked as delivered has a decision that some handle read. -/
def MarksTrue (x : Readership) : Prop := ∀ t r, x.gate.registry.records.get? t = some r → r.delivered = true →
  ∃ d, r.decision = some d ∧ x.Returned t d

/-- Whether an address leads to a decision that is not marked, and that no handle read. -/
def Unread (x : Readership) (a t : Token) (d : Decision) : Prop := ∃ r, x.gate.registry.find? a = some (t, r) ∧
  r.decision = some d ∧ r.delivered = false ∧ ¬x.Returned t d

/-- Whether a part of a step marks a decision that no handle read: it is taken for a continuation that has just been
parked, or a handle reads another decision while its token leads to this one. -/
def MarksUnread (x : Readership) : Step → Prop
  | .resume (.collect a d?) => .collect a d? ∈ x.halves ∧ ∃ t d, x.Unread a t d
  | .begin (.read s now) => ∃ a d t d', x.Reads (.begin (.read s now)) s a d ∧ x.Unread a t d' ∧ d' ≠ d
  | _ => False

end Readership

/-- Whether a part of a step hands a decision over behind the gate's back. -/
def Step.isOutside : Step → Bool
  | .begin (.upkeep op _) => op.isMark
  | _ => false

namespace Traffic

theorem Heard.step {x : Traffic} {s : Nat} {d : Decision} (h : x.Heard s d) (st : Step) :
    (x.step st).Heard s d := by
  obtain ⟨o, ho, hm⟩ := h
  refine ⟨o, ho, ?_⟩
  cases st with
  | begin m => exact List.mem_append_left _ hm
  | resume half =>
    rw [Traffic.step]
    split <;> exact hm

/-- A handle that reads its decision is answered with its outcome. -/
theorem Reads.heard {x : Traffic} {st : Step} {s : Nat} {a : Token} {d : Decision} (h : x.Reads st s a d) :
    (x.step st).Heard s d := by
  obtain ⟨now, h, o, rfl, hs, -, hm, ho⟩ := h
  refine ⟨o, ho, List.mem_append_right _ ?_⟩
  rw [Gate.answers, hs]
  simp only [Gate.readMail, hm, Gate.finish, ho, Option.map_some, Option.toList_some]
  exact List.mem_singleton_self _

/-- A handle reads one decision, and nobody else reads at once. -/
theorem Reads.unique {x : Traffic} {st : Step} {s s' : Nat} {a a' : Token} {d d' : Decision} (h : x.Reads st s a d)
    (h' : x.Reads st s' a' d') : s' = s ∧ d' = d := by
  obtain ⟨now, h, o, rfl, hs, -, hm, -⟩ := h
  obtain ⟨now', h', o', hst, hs', -, hm', -⟩ := h'
  cases hst
  cases hs.symm.trans hs'
  cases hm.symm.trans hm'
  exact ⟨rfl, rfl⟩

/-- A record that was just registered is not marked. -/
theorem Renews.unmarked {x : Traffic} (hx : x.gate.registry.Sound) {st : Step} {t : Token} (h : x.Renews st t)
    {r : WaitRecord} (hr : (x.step st).gate.registry.records.get? t = some r) : r.delivered = false := by
  obtain ⟨w, s, g, hop, rfl, hreg⟩ := h
  rw [x.step_registry, hop] at hr
  have hr : (x.gate.registry.register w).2.records.get? w.token = some r := hr
  rw [hreg, (Registry.registers_of_ok hx.toDistinct hreg).records, if_pos rfl] at hr
  cases hr
  rfl

/-- A part of a step that hands a decision over is a handle's reading, or what is done for a continuation that was
told. -/
theorem op?_isMark {x : Traffic} {st : Step} {op : Operation} (hop : x.op? st = some op) (hm : op.isMark = true)
    (hin : st.isOutside = false) :
    (∃ s a d, x.Reads st s a d ∧ op = .markDelivered a) ∨
    ∃ t d?, st = .resume (.collect t d?) ∧ .collect t d? ∈ x.halves ∧ op = .takeDecision t := by
  cases st with
  | begin m =>
    cases m with
    | deliver a d =>
      cases hop
      cases hm
    | cancel e reason =>
      cases hop
      cases hm
    | register w =>
      cases hop
      cases hm
    | upkeep op' _ =>
      cases hop
      cases hm.symm.trans hin
    | fire s now =>
      obtain ⟨h, -, rfl⟩ := Option.map_eq_some_iff.1 hop
      cases hm
    | read s now =>
      obtain ⟨h, hs, hop⟩ := Option.bind_eq_some_iff.1 hop
      split at hop
      · rename_i d hd
        obtain ⟨o, ho, rfl⟩ := Option.map_eq_some_iff.1 hop
        exact .inl ⟨s, h.token, d, ⟨now, h, o, rfl, hs, rfl, hd, ho⟩, rfl⟩
      · cases hop
    | _ => cases hop
  | resume half =>
    rw [op?] at hop
    split at hop
    · rename_i hh
      cases half with
      | collect t d? =>
        cases hop
        exact .inr ⟨t, d?, rfl, hh, rfl⟩
      | lapse t now =>
        cases hop
        cases hm
      | _ => cases hop
    · cases hop

end Traffic

namespace Readership

/-- What holds of everything that is noted: what an address shows it has shown, and who has read was answered. -/
structure Noted (x : Readership) : Prop where
  shown : ∀ a t d, x.Shows a t d → x.shown a t d
  read : ∀ s t d, x.read s t d → x.Heard s d

theorem Noted.step {x : Readership} (n : x.Noted) (st : Step) : (x.step st).Noted where
  shown _ _ _ h := .inr h
  read s t d h := by
    rcases h with ⟨h | ⟨a, h, -⟩, -⟩
    · exact (n.read s t d h).step st
    · exact h.heard

theorem Noted.run : ∀ (steps : List Step) {x : Readership}, x.Noted → (x.run steps).Noted
  | [], _, n => n
  | st :: steps, _, n => Noted.run steps (n.step st)

variable {x : Readership} {st : Step} {a t : Token} {d : Decision}

/-- What was read of a record stays read until its token is registered anew. -/
theorem Returned.step (h : x.Returned t d) (hn : ¬x.Renews st t) : (x.step st).Returned t d := by
  obtain ⟨s, hs, ho⟩ := h
  exact ⟨s, ⟨.inl hs, hn⟩, ho.step st⟩

/-- Where one record may get its mark, a marked one has a decision that was read before, or one that was not and to
which the address leads. -/
theorem marked_or {g : Registry}
    (hc : (∃ u q d, x.gate.registry.find? a = some (u, q) ∧ q.decision = some d ∧
      g = x.gate.registry.save u { q with delivered := true }) ∨ g = x.gate.registry)
    {r : WaitRecord} (hr : g.records.get? t = some r) (hm : x.MarksTrue) (hd : r.delivered = true) :
    (∃ d, r.decision = some d ∧ x.Returned t d) ∨ ∃ d, r.decision = some d ∧ x.Unread a t d := by
  rcases hc with ⟨u, q, d, ha, hqd, heq⟩ | heq
  · rw [heq, Registry.save_get?] at hr
    split at hr
    · rename_i hut
      subst hut
      cases hr
      by_cases hret : x.Returned u d
      · exact .inl ⟨d, hqd, hret⟩
      · refine .inr ⟨d, hqd, q, ha, hqd, ?_, hret⟩
        rw [← Bool.not_eq_true]
        intro hq
        obtain ⟨d', hd', hret'⟩ := hm u q (Registry.find?_records ha) hq
        cases hqd.symm.trans hd'
        exact hret hret'
    · exact .inl (hm t r hr hd)
  · exact .inl (hm t r (heq ▸ hr) hd)

/-- **Marks stay true** through every part of a step that marks no unread decision. -/
theorem MarksTrue.step (hx : x.Proper) (hnote : x.Noted) (hm : x.MarksTrue) (hin : st.isOutside = false)
    (hn : ¬x.MarksUnread st) : (x.step st).MarksTrue := by
  intro t r hr hd
  have hreg := x.step_registry st
  -- a record that is marked was not registered just now
  have old : ¬x.Renews st t := fun h => by
    cases hd.symm.trans (h.unmarked hx.1 hr)
  have before (h : ∃ d, r.decision = some d ∧ x.Returned t d) :
      ∃ d, r.decision = some d ∧ (x.step st).Returned t d := by
    obtain ⟨d, hrd, hret⟩ := h
    exact ⟨d, hrd, hret.step old⟩
  have hr : (x.toTraffic.step st).gate.registry.records.get? t = some r := hr
  cases hop : x.op? st with
  | none =>
    rw [hreg, hop] at hr
    exact before (hm t r hr hd)
  | some op =>
    have hr' : (x.gate.registry.perform op).records.get? t = some r := by
      rw [hreg, hop] at hr
      exact hr
    cases hmark : op.isMark with
    | false =>
      obtain ⟨p, hp, hpd, hdec⟩ := Registry.perform_marked hx.1 hmark hr' hd
      obtain ⟨d, hrd, hret⟩ := hm t p hp hpd
      refine before ⟨d, ?_, hret⟩
      rcases hdec with hdec | hpend
      · exact hdec.trans hrd
      · cases (hx.2 t p hp hpend).symm.trans hrd
    | true =>
      rcases Traffic.op?_isMark hop hmark hin with ⟨s, a, d, reads, rfl⟩ | ⟨a, d?, rfl, hh, rfl⟩
      · rcases marked_or (Registry.markDelivered_cases x.gate.registry a) hr' hm hd with h' | ⟨d', hrd, hun⟩
        · exact before h'
        · -- the handle reads this very decision, or else it would be marked unread
          have same : d' = d := by
            by_contra hne
            obtain ⟨now, h, o, rfl, hs⟩ := reads
            exact hn ⟨a, d, t, d', ⟨now, h, o, rfl, hs⟩, hun, hne⟩
          subst same
          obtain ⟨q, ha, hqd, -⟩ := hun
          exact ⟨d', hrd, s, ⟨.inr ⟨a, reads, hnote.shown a t d' ⟨q, ha, hqd⟩⟩, old⟩, reads.heard⟩
      · have cases : (∃ u q d, x.gate.registry.find? a = some (u, q) ∧ q.decision = some d ∧
            x.gate.registry.perform (.takeDecision a) = x.gate.registry.save u { q with delivered := true }) ∨
            x.gate.registry.perform (.takeDecision a) = x.gate.registry := by
          rw [Registry.perform]
          rcases Registry.takeDecision_cases x.gate.registry a with ⟨u, q, d, ha, hqd, -, heq⟩ | ⟨-, heq⟩
          · exact .inl ⟨u, q, d, ha, hqd, by rw [heq]⟩
          · exact .inr (by rw [heq])
        rcases marked_or cases hr' hm hd with h' | ⟨d', -, hun⟩
        · exact before h'
        · exact absurd ⟨hh, t, d', hun⟩ hn

/-- A part of a step that marks an unread decision leaves a mark that is not true. -/
theorem MarksUnread.not_marksTrue (hnote : x.Noted) (h : x.MarksUnread st) : ¬(x.step st).MarksTrue := by
  have unread {a t : Token} {d : Decision} (hun : x.Unread a t d)
      (heq : ∀ {q}, x.gate.registry.find? a = some (t, q) → q.decision = some d → q.delivered = false →
        (x.toTraffic.step st).gate.registry = x.gate.registry.save t { q with delivered := true })
      (hn : ∀ s a, ¬x.Reads st s a d) : ¬(x.step st).MarksTrue := by
    obtain ⟨q, ha, hqd, hq, hret⟩ := hun
    intro hm
    have marked : (x.step st).gate.registry.records.get? t = some { q with delivered := true } := by
      show (x.toTraffic.step st).gate.registry.records.get? t = _
      rw [heq ha hqd hq, Registry.save_get?, if_pos rfl]
    obtain ⟨d', hd', s, ⟨hs | ⟨a, hs, -⟩, -⟩, -⟩ := hm t _ marked rfl
    · cases hqd.symm.trans hd'
      exact hret ⟨s, hs, hnote.read s t d hs⟩
    · cases hqd.symm.trans hd'
      exact hn s a hs
  cases st with
  | begin m =>
    cases m with
    | read s now =>
      obtain ⟨a, d, t, d', reads, hun, hne⟩ := h
      refine unread hun (fun ha hqd hq => ?_) fun s' a' reads' => hne (reads.unique reads').2
      obtain ⟨now', h, o, -, hs, rfl, hmail, ho⟩ := reads
      have hop : x.op? (.begin (.read s now)) = some (.markDelivered h.token) := by
        rw [Traffic.op?, Gate.op?, hs, Option.bind_some, hmail]
        simp only [ho, Option.map_some]
      rw [x.step_registry, hop]
      exact Registry.markDelivered_eq ha hqd hq
    | _ => cases h
  | resume half =>
    cases half with
    | collect a d? =>
      obtain ⟨hh, t, d, hun⟩ := h
      refine unread hun (fun ha hqd hq => ?_) fun s a reads => ?_
      · rw [x.step_registry, Traffic.op?, if_pos hh]
        exact congrArg Prod.snd (Registry.takeDecision_eq ha hqd hq)
      · obtain ⟨_, _, _, hst, -⟩ := reads
        cases hst
    | _ => cases h

end Readership

/-! ## Dropping -/

theorem Gate.drop_registry (g : Gate) (s : Nat) (now : Instant) : (g.drop s now).registry =
    match g.handles.get? s with
    | none => g.registry
    | some h => (g.registry.cancel h.execution).2 := by
  rw [drop]
  cases g.handles.get? s with
  | none => rfl
  | some h =>
    have known (g : Gate) : (g.transitionKnown h.execution .aborted now).registry = g.registry := by
      rw [transitionKnown]
      split <;> rfl
    simp only [known]
    show (cancelExecution _ _ _ _).2.registry = _
    rw [cancelExecution_registry]
    split
    · split <;> rfl
    · rfl

/-- Whether dropping a handle leaves a record that is over as it is, and every job tracked whose current wait it is. -/
def Gate.DropSpares (g : Gate) (s : Nat) (now : Instant) : Prop := ∀ t r, g.registry.records.get? t = some r →
  r.isPending = false → (g.drop s now).registry.records.get? t = some r ∧
    ∀ job, g.registry.jobToken? job = some t →
      (g.drop s now).registry.isTracked job = g.registry.isTracked job

theorem Registry.isTracked_of_current {g : Registry} {job : JobId} {t : Token} {r : WaitRecord}
    (hj : g.jobToken? job = some t) (hr : g.records.get? t = some r) : g.isTracked job = match r.status with
      | .pending => true
      | .resolved => !r.delivered
      | .expired | .cancelled => false := by
  rw [isTracked, hj, Option.bind_some, get?, find?_eq_some.2 ⟨hr, .inl rfl⟩]
  rfl

theorem Gate.dropSpares {g : Gate} (s : g.registry.Sound) (k : Nat) (now : Instant) : g.DropSpares k now := by
  intro t r hr hp
  rw [g.drop_registry]
  cases g.handles.get? k with
  | none => exact ⟨hr, fun _ _ => rfl⟩
  | some h =>
    have f := Registry.cancel_forgets s.toDistinct h.execution
    have hn : t ∉ (g.registry.cancel h.execution).1 := fun hm => by
      obtain ⟨q, hq, hqp, -⟩ := (Registry.mem_cancel s.toDistinct).1 hm
      cases hr.symm.trans hq
      cases hp.symm.trans hqp
    have hr' : (g.registry.cancel h.execution).2.records.get? t = some r := by rw [f.records, if_neg hn, hr]
    refine ⟨hr', fun job hj => ?_⟩
    rw [Registry.isTracked_of_current hj hr, Registry.isTracked_of_current ((f.jobs job t).2 ⟨hj, hn⟩) hr']

/-! ## Runs -/

/-- **A decision counts as delivered only once it was read, exactly as long as no part of a step marks an unread one.**
The run starts where a gate is opened, possibly again, after some handles were answered, and it is the same whatever is
noted.  At each of its points, dropping a handle leaves all records that are over as they are; and as long as the marks
are true, a job whose current wait has a decision that was not read is tracked. -/
theorem delivered_once_read_iff {store : Store} {ttl : Span} {happens : TokenOrder} {registry : Registry}
    (ho : Registry.openStore store ttl happens = (.ok (), registry)) (hu : ∀ r ∈ store.records.values, r.Undecided)
    (issuer : Option Issuer) (results : List (Nat × Outcome WaitOutcome)) {read : Nat → Token → Decision → Prop}
    (heard : ∀ s t d, read s t d → Traffic.Heard ⟨.start registry issuer, [], results⟩ s d) (steps : List Step)
    (hm : (Readership.opened (.start registry issuer) results read).MarksTrue)
    (hin : ∀ st ∈ steps, st.isOutside = false) :
    let x := Readership.opened (.start registry issuer) results read
    ((∀ p, p <+: steps → (x.run p).MarksTrue) ↔ ∀ p st, p ++ [st] <+: steps → ¬(x.run p).MarksUnread st) ∧
      ∀ p, p <+: steps → (x.run p).toTraffic = x.toTraffic.run p ∧ (∀ s now, (x.run p).gate.DropSpares s now) ∧
        ((x.run p).MarksTrue → ∀ job t r d, (x.run p).gate.registry.jobToken? job = some t →
          (x.run p).gate.registry.records.get? t = some r → r.status = .resolved → r.decision = some d →
          ¬(x.run p).Returned t d → (x.run p).gate.registry.isTracked job = true) := by
  intro x
  have start : x.Proper := ⟨Registry.openStore_sound ho, Registry.openStore_forall ho hu⟩
  have noted : x.Noted := ⟨fun _ _ _ h => h, heard⟩
  constructor
  · exact Run.always_iff_never (f := Readership.step) (P := Readership.MarksTrue)
      (Q := fun x => x.Proper ∧ x.Noted ∧ x.MarksTrue) (C := fun _ st => st.isOutside = false) (fun h => h.2.2)
      (fun ⟨proper, noted, hm⟩ hin hn => ⟨proper.step _, noted.step _, hm.step proper noted hin hn⟩)
      (fun h _ hb => hb.not_marksTrue h.2.1) ⟨start, noted, hm⟩
      (Run.along_of_forall (fun st hst _ => hin st hst) x)
  · intro p hp
    have sound := (Run.always_of_keeps (f := Readership.step) (Q := fun x => x.Proper) (C := fun _ _ => True)
      (fun h _ => h.step _) start (Run.along_of_forall (fun _ _ _ => trivial) x) p hp).1
    refine ⟨Readership.run_toTraffic p x, fun s now => Gate.dropSpares sound s now, ?_⟩
    intro htrue job t r d hj hr hs hd hn
    rw [Registry.isTracked_of_current hj hr, hs]
    cases hdel : r.delivered with
    | false => rfl
    | true =>
      obtain ⟨d', hd', hret⟩ := htrue t r hr hdel
      cases hd.symm.trans hd'
      exact absurd hret hn

/-- A decision that wakes a parked handle is marked once the handle reads it. -/
theorem decision_read_then_marked :
    let w : Wait := { Wait.start default default .epoch with job := some "deploy" }
    let yes : Decision := ⟨w.token, .null, .approved, none, .epoch⟩
    let steps : List Step := [.begin (.register w), .begin (.attach default w.token none .epoch),
      .resume (.look w.token), .begin (.deliver w.token yes), .resume (.wake w.token (.decision yes)),
      .begin (.read 1 .epoch)]
    let x := (Readership.opened (.start .empty none) [] fun _ _ _ => False).run steps
    x.results = [(1, .ok (.approved none))] ∧
      (x.gate.registry.records.get? w.token).map WaitRecord.delivered = some true ∧ x.MarksTrue := by
  intro w yes steps x
  have along : Run.Along Readership.step (fun x st => ¬x.MarksUnread st)
      (Readership.opened (.start .empty none) [] fun _ _ _ => False) steps := by
    refine ⟨id, id, id, id, id, ?_, trivial⟩
    -- the handle reads the very decision that its token leads to
    rintro ⟨a, d, t, d', ⟨now, h, o, -, hs, rfl, hm, -⟩, ⟨r, ha, hd, -⟩, hne⟩
    cases hs
    cases hm
    cases ha
    cases hd
    exact hne rfl
  have h := delivered_once_read_iff (Registry.openStore_memory .byText) (fun r hr => (nomatch hr)) none []
    (fun _ _ _ => False.elim) steps (fun t r hr => (nomatch hr)) (by decide)
  exact ⟨by decide, by decide, h.1.2 (Run.along_iff.1 along) steps List.prefix_rfl⟩

/-- **A decision counts as delivered although no handle was answered with it**: it is taken for a handle that is parked
after it, and when this handle is dropped its job is not tracked any more. -/
theorem decision_marked_without_reader :
    let w : Wait := { Wait.start default default .epoch with job := some "deploy" }
    let yes : Decision := ⟨w.token, .null, .approved, none, .epoch⟩
    let steps : List Step := [.begin (.register w), .begin (.deliver w.token yes),
      .resume (.wake w.token (.decision yes))]
    let parking : List Step := [.begin (.attach w.execution w.token none .epoch), .resume (.look w.token),
      .resume (.collect w.token (some yes)), .resume (.wake w.token (.decision yes))]
    let x := (Readership.opened (.start .empty none) [] fun _ _ _ => False).run steps
    let y := x.run parking
    x.gate.registry.isTracked "deploy" = true ∧ y.halves = [] ∧ y.results = [] ∧ ¬y.MarksTrue ∧
      (y.gate.drop 1 .epoch).handles.get? 1 = none ∧
      (y.gate.drop 1 .epoch).registry.jobToken? "deploy" = some w.token ∧
      (y.gate.drop 1 .epoch).registry.isTracked "deploy" = false := by
  intro w yes steps parking x y
  have hy : y.results = [] := by decide
  refine ⟨by decide, by decide, hy, fun hm => ?_, by decide, by decide, by decide⟩
  let r : WaitRecord := { (Registry.fresh w).finish .resolved .epoch with decision := some yes, delivered := true }
  obtain ⟨d, -, s, -, o, -, ho⟩ := hm w.token r (by decide) rfl
  rw [hy] at ho
  cases ho

/-- A decision is marked by a handle that reads another one: it was late, and its token was registered again.  What the
handle is answered is the same, but nobody reads the decision that came last. -/
theorem late_reader_marks_successor :
    let w : Wait := Wait.start default default .epoch
    let w' : Wait := Wait.start default ⟨.numbered 2⟩ .epoch
    let yes : Decision := ⟨w.token, .null, .approved, none, .epoch⟩
    let later : Decision := { yes with receivedAt := ⟨60, 0, by decide⟩ }
    let steps : List Step := [.begin (.register w), .begin (.attach default w.token none .epoch),
      .resume (.look w.token), .begin (.deliver w.token yes), .resume (.wake w.token (.decision yes)),
      .begin (.register w'), .begin (.deliver w.token later), .resume (.wake w.token (.decision later))]
    let x := (Readership.opened (.start .empty none) [] fun _ _ _ => False).run steps
    let y := x.step (.begin (.read 1 .epoch))
    y.results = [(1, .ok (.approved none))] ∧ ¬y.MarksTrue := by
  intro w w' yes later steps x y
  have hx : x.results = [] := by decide
  have mail : (x.gate.handles.get? 1).map Handle.mail = some (.signal (.decision yes)) := by decide +kernel
  have noted : x.Noted := Readership.Noted.run steps ⟨fun _ _ _ h => h, fun _ _ _ => False.elim⟩
  refine ⟨by decide, fun hm => ?_⟩
  let r : WaitRecord :=
    { (Registry.fresh w').finish .resolved later.receivedAt with decision := some later, delivered := true }
  obtain ⟨d, hd, s, ⟨hread | ⟨a, ⟨now, h, o, hst, hs, -, hmail, -⟩, -⟩, -⟩, -⟩ := hm w.token r (by decide) rfl
  · obtain ⟨o, -, ho⟩ := noted.read s _ d hread
    rw [hx] at ho
    cases ho
  · cases hd
    cases hst
    have told : x.gate.handles.get? 1 = some h := hs
    rw [told, Option.map_some, hmail] at mail
    exact absurd mail (by decide)

end ApprovalGate
