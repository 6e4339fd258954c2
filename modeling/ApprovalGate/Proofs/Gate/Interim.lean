import ApprovalGate.Proofs.Gate.Later
import ApprovalGate.Proofs.Gate.Receipt
import ApprovalGate.Proofs.Gate.Reattach
import ApprovalGate.Proofs.Registry.Shape
/-!
# Interim decisions wake nobody

Every decision that a continuation is woken with is the final one on a record that is resolved, since it either ended
the wait just then or is read off the record.  So whoever is parked on a resolved wait is woken when that is looked up,
and no handle ever reads an interim decision, which would leave it with nothing to answer (`records_shaped`).
-/
namespace ApprovalGate

open Registry (Operation)

/-- Whether a part that is left wakes with nothing but what answers a handle for good. -/
def Half.Firm : Half → Prop
  | .wake _ s => s.isFinal = true
  | .collect _ d? => ∃ d, d? = some d ∧ d.verdict.isTerminal = true
  | .check _ _ | .lapse _ _ | .look _ => True

theorem firm_nil : ∀ half ∈ ([] : List Half), half.Firm := fun _ h => (nomatch h)

theorem firm_singleton {half : Half} (h : half.Firm) : ∀ half' ∈ [half], half'.Firm :=
  fun _ h' => List.mem_singleton.1 h' ▸ h

namespace Gate

variable {g : Gate}

/-- The decision on a record that is found, if there is any, is final. -/
theorem final_of_find? (shaped : g.registry.Forall WaitRecord.Shaped) {x t : Token} {r : WaitRecord} {d : Decision}
    (hx : g.registry.find? x = some (t, r)) (hd : r.decision = some d) : d.verdict.isTerminal = true :=
  (shaped t r (Registry.find?_records hx)).decision_iff.2 d hd

/-- **What a move leaves to be done is firm.** -/
theorem onset_firm (g : Gate) (m : Move) : ∀ half ∈ (g.onset m).2, half.Firm := by
  cases m with
  | deliver x d =>
    rw [onset]
    rcases g.registry.resolve_cases (g.registry.canonical x) d with
      ⟨t, r, -, -, hv, heq⟩ | ⟨t, r, -, -, -, heq⟩ | ⟨t, r, -, -, heq⟩ | ⟨-, heq⟩
    · rw [heq]
      exact firm_singleton hv
    · rw [heq]
      exact firm_nil
    · rw [heq]
      exact firm_nil
    · rw [heq]
      exact firm_nil
  | cancel e reason =>
    intro half h
    obtain ⟨t, -, rfl⟩ := List.mem_map.1 h
    rfl
  | register w =>
    rw [onset]
    rcases g.registry.register w with ⟨result, registry⟩
    rcases result with f | s
    · exact firm_nil
    · cases s with
      | none => exact firm_nil
      | some p => exact firm_singleton rfl
  | overdue at' now =>
    intro half h
    obtain ⟨t, -, rfl⟩ := List.mem_map.1 h
    trivial
  | attach e t deadline now => exact firm_singleton trivial
  | fire serial now =>
    rw [onset]
    cases g.handles.get? serial with
    | none => exact firm_nil
    | some h =>
      simp only [expireFor]
      rcases g.registry.expire h.token now with ⟨answer, registry⟩
      cases answer <;> first | exact firm_singleton rfl | exact firm_singleton trivial
  | read serial now =>
    rw [onset]
    cases g.handles.get? serial <;> exact firm_nil
  | _ => exact firm_nil

/-- **Whoever is told of a resolved record is woken**: what collects its decision wakes with a final one. -/
theorem sequel_collect (shaped : g.registry.Forall WaitRecord.Shaped) {t : Token} {d? : Option Decision}
    (firm : (Half.collect t d?).Firm) :
    ∃ d, d.verdict.isTerminal = true ∧ (g.sequel (.collect t d?)).2 = [.wake t (.decision d)] := by
  obtain ⟨d, rfl, hv⟩ := firm
  rw [sequel]
  rcases g.registry.takeDecision_cases t with ⟨u, r, d', hf, hd', -, heq⟩ | ⟨-, heq⟩
  · rw [heq]
    exact ⟨d', final_of_find? shaped hf hd', rfl⟩
  · rw [heq]
    exact ⟨d, hv, rfl⟩

/-- **What a part leaves in turn is firm**, when the part is and all records are in shape. -/
theorem sequel_firm (shaped : g.registry.Forall WaitRecord.Shaped) {half : Half} (firm : half.Firm) :
    ∀ half' ∈ (g.sequel half).2, half'.Firm := by
  cases half with
  | wake t s => exact firm_nil
  | check t now =>
    rw [sequel]
    split
    · exact firm_nil
    · exact firm_singleton trivial
  | lapse t now =>
    rw [sequel]
    rcases g.registry.expire t now with ⟨answer, registry⟩
    cases answer <;> first | exact firm_nil | exact firm_singleton rfl
  | look t =>
    show ∀ half' ∈ told t (g.registry.get? t), half'.Firm
    cases hx : g.registry.get? t with
    | none => exact firm_singleton rfl
    | some r =>
      rw [told]
      cases hs : r.status with
      | pending => exact firm_nil
      | resolved =>
        rw [Registry.get?_eq_canonical] at hx
        exact firm_singleton ((shaped _ r hx).decided hs)
      | expired => exact firm_singleton rfl
      | cancelled => exact firm_singleton rfl
  | collect t d? =>
    obtain ⟨d, hv, heq⟩ := sequel_collect shaped firm
    rw [heq]
    exact firm_singleton hv

end Gate

namespace Traffic

/-- What holds of a gate and of what is half done in it as long as every record is in shape. -/
structure Firm (x : Traffic) : Prop where
  registry : x.gate.registry.Bears WaitRecord.Shaped
  halves : ∀ half ∈ x.halves, half.Firm
  mails : ∀ k h s, x.gate.handles.get? k = some h → h.mail = .signal s → s.isFinal = true

variable {x y : Traffic}

/-- Mail is firm after a part of a step, when what the part wakes with is. -/
theorem Firm.mails_step (f : x.Firm) {st : Step} (wake : ∀ t s, st = .resume (.wake t s) → s.isFinal = true) :
    ∀ k h s, (x.step st).gate.handles.get? k = some h → h.mail = .signal s → s.isFinal = true := by
  intro k h s hk hm
  have origin := (x.step_shift st).origin hk
  generalize (x.step st).gate = g at origin
  cases origin with
  | parked => cases hm
  | same hk' => exact f.mails k h s hk' hm
  | @rung _ _ hd now hk' => exact f.mails k hd s hk' hm
  | replaced => cases hm
  | woken =>
    cases hm
    exact wake _ _ rfl

theorem Firm.step (f : x.Firm) (st : Step) : (x.step st).Firm := by
  have registry : (x.step st).gate.registry.Bears WaitRecord.Shaped := by
    rw [x.step_registry]
    cases x.op? st with
    | none => exact f.registry
    | some op => exact f.registry.perform WaitRecord.Same.shaped (Registry.keeps_shaped op)
  cases st with
  | begin m =>
    refine ⟨registry, fun half h => ?_, f.mails_step fun t s h => by cases h⟩
    rcases List.mem_append.1 h with h | h
    · exact f.halves half h
    · exact x.gate.onset_firm m half h
  | resume half =>
    by_cases hm : half ∈ x.halves
    · have firm := f.halves half hm
      refine ⟨registry, fun half' h => ?_, f.mails_step fun t s h => ?_⟩
      · rw [Traffic.step, if_pos hm] at h
        rcases List.mem_append.1 h with h | h
        · exact f.halves half' (List.mem_of_mem_erase h)
        · exact Gate.sequel_firm f.registry.held firm half' h
      · cases h
        exact firm
    · -- a part that was not left does nothing
      rw [Traffic.step, if_neg hm]
      exact f

theorem firm_idle {registry : Registry} (h : registry.Bears WaitRecord.Shaped) (issuer : Option Issuer) :
    (idle (.start registry issuer)).Firm :=
  ⟨h, fun _ h => (nomatch h), fun _ _ _ h => (nomatch h)⟩

theorem Later.firm {ok : Traffic → Step → Prop} (l : x.Later ok y) (f : x.Firm) : y.Firm := by
  induction l with
  | now => exact f
  | step st _ _ ih => exact ih.step st
  | aside _ ha ih => exact ⟨ih.registry.aside ha, ih.halves, ih.mails⟩
  | restart issuer _ hr ho ih =>
    exact firm_idle (Registry.bears_of_openStore WaitRecord.Same.shaped ho (ih.registry.stored.reopen hr)) issuer

end Traffic

/-- A handle that reads a final decision answers by it. -/
theorem Gate.readMail_final (g : Gate) (k : Nat) {h : Handle} {d : Decision} (hm : h.mail = .signal (.decision d))
    (hv : d.verdict.isTerminal = true) (now : Instant) : ∃ outcome, (g.readMail k h now).1 = some (.ok outcome) := by
  rw [readMail, hm]
  simp only [finish]
  cases ho : WaitOutcome.ofDecision? d with
  | some outcome => exact ⟨outcome, rfl⟩
  | none =>
    rw [WaitOutcome.ofDecision?] at ho
    cases hd : d.verdict <;> rw [hd] at ho hv <;> cases ho
    cases hv

/-- Whoever is parked on a resolved wait is woken with its decision when that is looked up. -/
theorem Gate.settle_resolved {g : Gate} {t : Token} {r : WaitRecord} (hx : g.registry.get? t = some r)
    (hs : r.status = .resolved) {d : Decision} (hd : r.decision = some d) :
    g.Signalled t (.decision d) (g.settle t) := by
  have told : r.told? = some (.decision d) := by rw [WaitRecord.told?, hs, hd]; rfl
  obtain ⟨registry, heq⟩ := settle_told hx told
  rw [heq]
  exact signalled_signal g registry t _

/-- **The records of a registry are in shape**, whatever it has come to since it was opened on a blank store.  Hence
settling a token that leads to a resolved record wakes what is parked there, with a final decision; and whatever a gate
on such a registry comes to, by any parts of steps in any order and restarts in between, what collects a decision for a
continuation wakes it with a final one, and no handle is told anything interim, so that it always has an answer. -/
theorem records_shaped {store : Store} (blank : store.Blank) {ttl : Span} {happens : TokenOrder} {g₀ g : Registry}
    (ho : Registry.openStore store ttl happens = (.ok (), g₀)) (later : g₀.Later g) :
    g.Forall WaitRecord.Shaped ∧
    (∀ gate : Gate, gate.registry = g → ∀ t r, g.get? t = some r → r.status = .resolved →
      ∃ d, r.decision = some d ∧ d.verdict.isTerminal = true ∧ gate.Signalled t (.decision d) (gate.settle t)) ∧
    ∀ issuer y, (Traffic.idle (.start g issuer)).Later (fun _ _ => True) y →
      y.gate.registry.Forall WaitRecord.Shaped ∧
      (∀ t d?, .collect t d? ∈ y.halves →
        ∃ d, d.verdict.isTerminal = true ∧ (y.gate.sequel (.collect t d?)).2 = [.wake t (.decision d)]) ∧
      ∀ k h d, y.gate.handles.get? k = some h → h.mail = .signal (.decision d) →
        d.verdict.isTerminal = true ∧ ∀ now, ∃ outcome, (y.gate.readMail k h now).1 = some (.ok outcome) := by
  have shaped := later.shaped blank ho
  refine ⟨shaped.held, fun gate hg t r hx hs => ?_, fun issuer y l => ?_⟩
  · have hr := hx
    rw [Registry.get?_eq_canonical] at hr
    obtain ⟨d, hd, hv⟩ := (shaped.held _ r hr).decided hs
    exact ⟨d, hd, hv, Gate.settle_resolved (hg ▸ hx) hs hd⟩
  · have firm := l.firm (Traffic.firm_idle shaped issuer)
    refine ⟨firm.registry.held, fun t d? hm => Gate.sequel_collect firm.registry.held (firm.halves _ hm),
      fun k h d hk hm => ?_⟩
    have hv := firm.mails k h _ hk hm
    exact ⟨hv, fun now => y.gate.readMail_final k hm hv now⟩

/-- A wait that was approved before a restart: whoever is parked on it afterwards is told so, and has an answer. -/
theorem approval_answers_after_restart :
    let w := Wait.start default default .epoch
    let yes : Decision := ⟨default, .null, .approved, none, .epoch⟩
    let g := (Registry.empty.perform (.register w)).perform (.resolve w.token yes)
    let steps : List Step := [.begin (.attach default w.token none .epoch), .resume (.look w.token),
      .resume (.collect w.token (some yes)), .resume (.wake w.token (.decision yes))]
    let y := (Traffic.idle (.start g none)).run steps
    let h : Handle := ⟨default, w.token, none, .signal (.decision yes)⟩
    Store.memory.Blank ∧ Registry.openStore .memory Registry.defaultTtl .byText = (.ok (), Registry.empty) ∧
      g.store.reopen = .ok g.store ∧ Registry.openStore g.store Registry.defaultTtl .byText = (.ok (), g) ∧
      Registry.empty.Later g ∧ (∃ r, g.get? w.token = some r ∧ r.status = .resolved ∧ r.Shaped) ∧
      (∃ d, d.verdict.isTerminal = true ∧ Gate.Signalled (.start g none) w.token (.decision d)
        (Gate.settle (.start g none) w.token)) ∧
      (Traffic.idle (.start g none)).Later (fun _ _ => True) y ∧ y.gate.handles.get? 1 = some h ∧
      ∀ now, ∃ outcome, (y.gate.readMail 1 h now).1 = some (.ok outcome) := by
  intro w yes g steps y h
  have blank : Store.memory.Blank := Store.blank_memory {}
  let r : WaitRecord := { (Registry.fresh w).finish .resolved .epoch with decision := some yes }
  have ho : Registry.openStore g.store Registry.defaultTtl .byText = (.ok (), g) :=
    @Registry.openStore_single g.store rfl w.token r rfl (by decide) Registry.defaultTtl .byText
  have before : Registry.empty.Later g := .perform (.resolve w.token yes) (.perform (.register w) .now)
  have later : Registry.empty.Later g := before.restart rfl ho
  obtain ⟨shaped, settled, runs⟩ := records_shaped blank (Registry.openStore_memory .byText) later
  have found : g.get? w.token = some r := rfl
  have l : (Traffic.idle (.start g none)).Later (fun _ _ => True) y :=
    Traffic.Later.now.run (.of_forall fun _ _ _ => trivial)
  have there : y.gate.handles.get? 1 = some h := by decide
  obtain ⟨-, -, mails⟩ := runs none y l
  obtain ⟨d, -, hv, signalled⟩ := settled (.start g none) rfl w.token r found rfl
  exact ⟨blank, Registry.openStore_memory .byText, rfl, ho, later, ⟨r, found, rfl, shaped w.token r rfl⟩,
    ⟨d, hv, signalled⟩, l, there, (mails 1 h yes there rfl).2⟩

end ApprovalGate
