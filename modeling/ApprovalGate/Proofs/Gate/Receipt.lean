import ApprovalGate.Proofs.Callback
import ApprovalGate.Proofs.Gate.Course
import ApprovalGate.Proofs.Registry.Ledger
/-!
# What a delivery comes to

A delivery is answered in one of five ways (`Receives`), and every one of them changes at most one record and wakes at
most the continuation that is parked under its token (`delivery_answers`).
-/
namespace ApprovalGate

theorem Verdict.isTerminal_eq_false {v : Verdict} : v.isTerminal = false ↔ v = .pending := by
  cases v <;> decide

/-! ## One record changes -/

namespace Registry

/-- Whether a registry is another one but for the record under one token, which it has, and has put to its store,
as `r`. -/
structure Amended (g : Registry) (t : Token) (r : WaitRecord) (h : Registry) : Prop where
  record : h.records.get? t = some r
  others : ∀ u, u ≠ t → h.records.get? u = g.records.get? u
  jobs : h.jobs = g.jobs
  aliases : h.aliases = g.aliases
  store : h.store = (g.store.put r).2
  ttl : h.tombstoneTtl = g.tombstoneTtl

theorem amended_save (g : Registry) (t : Token) (r : WaitRecord) : g.Amended t r (g.save t r) where
  record := by rw [save_get?, if_pos rfl]
  others u hu := by rw [save_get?, if_neg hu.symm]
  jobs := rfl
  aliases := rfl
  store := rfl
  ttl := rfl

end Registry

/-- Parts of steps, however they come in between one another, keep the registry of a gate reachable. -/
theorem Traffic.registry_reachable {x : Traffic} (h : x.gate.registry.Reachable) (steps : List Step) :
    (x.run steps).gate.registry.Reachable := by
  induction steps generalizing x with
  | nil => exact h
  | cons st steps ih =>
    refine ih ?_
    rw [x.step_registry]
    cases x.op? st with
    | none => exact h
    | some op => exact h.happen (.call op)

namespace Gate

/-- Whether a gate is another one in which a signal has gone to what was parked under a token, whatever their registries
are: the continuation there is gone and its handle, if it is still there, has the signal for its mail. -/
structure Signalled (g : Gate) (t : Token) (s : Signal) (h : Gate) : Prop where
  gone : h.waiters.get? t = none
  parked : ∀ u, u ≠ t → h.waiters.get? u = g.waiters.get? u
  mail : ∀ w, g.waiters.get? t = some w →
    h.handles.get? w.serial = (g.handles.get? w.serial).map fun hd => { hd with mail := .signal s }
  handles : ∀ k, (∀ w, g.waiters.get? t = some w → w.serial ≠ k) → h.handles.get? k = g.handles.get? k
  executions : h.executions = g.executions
  issuer : h.issuer = g.issuer
  nextSerial : h.nextSerial = g.nextSerial

theorem signal_issuer (g : Gate) (t : Token) (s : Signal) : (g.signal t s).2.issuer = g.issuer := by
  rw [signal]
  cases g.waiters.get? t with
  | none => rfl
  | some w =>
    simp only [post]
    cases g.handles.get? w.serial <;> rfl

theorem signalled_signal (g : Gate) (registry : Registry) (t : Token) (s : Signal) :
    g.Signalled t s (signal { g with registry } t s).2 where
  gone := by rw [signal_waiters, if_pos rfl]
  parked u hu := by rw [signal_waiters, if_neg hu]
  mail w hw := by
    have hw' : ({ g with registry } : Gate).waiters.get? t = some w := hw
    rw [signal_handles, hw', Option.map_some, if_pos rfl]
  handles k hk := by
    rw [signal_handles, if_neg]
    intro hc
    obtain ⟨w, hw, hs⟩ := Option.map_eq_some_iff.1 hc
    exact hk w hw hs
  executions := signal_executions _ t s
  issuer := signal_issuer _ t s
  nextSerial := signal_nextSerial _ t s

/-! ## The five answers -/

/-- Whether a text is a token that leads to the wait under `t`, and `r` is the record there. -/
def Addresses (g : Gate) (address : String) (t : Token) (r : WaitRecord) : Prop :=
  ∃ x, Token.parse? address = some x ∧ g.registry.canonical x = t ∧ g.registry.records.get? t = some r

/-- How a delivery is answered, and which gate it leaves. -/
inductive Receives (g : Gate) (address : String) (body : ByteArray) (contentType : Option String) (now : Instant) :
    Receipt → Gate → Prop where
  | accepted {t : Token} {r : WaitRecord} {d : Decision} : g.Addresses address t r → r.status = .pending →
      Callback.parseDecision t body contentType now = .ok d → d.verdict.isTerminal = true →
      Receives g address body contentType now (.accepted r.wait.execution d.verdict)
        (deliver { g with
          registry := g.registry.save t { r.finish .resolved d.receivedAt with decision := some d } } t d).2
  | interim {t : Token} {r : WaitRecord} {d : Decision} : g.Addresses address t r → r.status = .pending →
      Callback.parseDecision t body contentType now = .ok d → d.verdict.isTerminal = false →
      Receives g address body contentType now .interim
        { g with registry := g.registry.save t { r with lastUpdate := some d } }
  | duplicate {t : Token} {r : WaitRecord} {d : Decision} : g.Addresses address t r → r.status = .resolved →
      Callback.parseDecision t body contentType now = .ok d → Receives g address body contentType now .duplicate g
  | malformed {t : Token} {r : WaitRecord} {f : Failure} : g.Addresses address t r →
      r.status = .pending ∨ r.status = .resolved → Callback.parseDecision t body contentType now = .error f →
      Receives g address body contentType now (.malformed f.message) g
  | notFound : (∀ t r, g.Addresses address t r → r.status ≠ .pending ∧ r.status ≠ .resolved) →
      Receives g address body contentType now .notFound g

variable {g g' : Gate} {address : String} {body : ByteArray} {contentType : Option String} {now : Instant}
  {receipt : Receipt}

theorem takesDelivery_iff {r : WaitRecord} :
    takesDelivery (some r) = true ↔ r.status = .pending ∨ r.status = .resolved := by
  simp [takesDelivery]

/-- A wait that an address leads to takes deliveries to it, as long as its status allows. -/
theorem Addresses.receive {t : Token} {r : WaitRecord} (s : g.registry.Sound) (h : g.Addresses address t r)
    (hs : r.status = .pending ∨ r.status = .resolved) :
    g.registry.find? t = some (t, r) ∧ g.receive address body contentType now =
      match Callback.parseDecision t body contentType now with
      | .error f => (.malformed f.message, g)
      | .ok d => match g.registry.resolve t d with
        | (.resolved e d, registry) => (.accepted e d.verdict, (deliver { g with registry } t d).2)
        | (.updated _, registry) => (.interim, { g with registry })
        | (.alreadyResolved .resolved, registry) => (.duplicate, { g with registry })
        | (_, registry) => (.notFound, { g with registry }) := by
  obtain ⟨x, hx, rfl, hr⟩ := h
  refine ⟨Registry.find?_eq_some.2 ⟨hr, .inl rfl⟩, ?_⟩
  simp only [Gate.receive, hx, record]
  rw [s.get?_canonical, hr, takesDelivery_iff.2 hs]
  cases Callback.parseDecision (g.registry.canonical x) body contentType now with
  | error f => rfl
  | ok d =>
    simp only [Bool.not_true, Bool.false_eq_true, if_false]
    rcases g.registry.resolve (g.registry.canonical x) d with ⟨answer, registry⟩
    cases answer with
    | alreadyResolved status => cases status <;> rfl
    | _ => rfl

/-- **A delivery is answered as its case has it.** -/
theorem Receives.eq (s : g.registry.Sound) (h : g.Receives address body contentType now receipt g') :
    g.receive address body contentType now = (receipt, g') := by
  cases h with
  | @accepted t r d ha hp hd hv =>
    obtain ⟨hf, heq⟩ := ha.receive s (.inl hp)
    have hr : g.registry.resolve t d = (.resolved r.wait.execution d,
        g.registry.save t { r.finish .resolved d.receivedAt with decision := some d }) := by
      rw [Registry.resolve, if_pos hv, Registry.changePending, hf]
      simp only [hp]
    rw [heq, hd]
    simp only [hr]
  | @interim t r d ha hp hd hv =>
    obtain ⟨hf, heq⟩ := ha.receive s (.inl hp)
    have hr : g.registry.resolve t d =
        (.updated r.wait.execution, g.registry.save t { r with lastUpdate := some d }) := by
      rw [Registry.resolve, if_neg (Bool.eq_false_iff.1 hv), Registry.noteUpdate, Registry.changePending, hf]
      simp only [hp]
    rw [heq, hd]
    simp only [hr]
  | @duplicate t r d ha hr hd =>
    obtain ⟨hf, heq⟩ := ha.receive s (.inr hr)
    have hres : g.registry.resolve t d = (.alreadyResolved .resolved, g.registry) := by
      simp only [Registry.resolve, Registry.noteUpdate, Registry.changePending, hf, hr, ite_self]
    rw [heq, hd]
    simp only [hres]
  | malformed ha hs hd =>
    obtain ⟨-, heq⟩ := ha.receive s hs
    rw [heq, hd]
  | notFound hn =>
    rw [receive]
    cases hx : Token.parse? address with
    | none => rfl
    | some x =>
      simp only [record]
      rw [s.get?_canonical]
      cases hr : g.registry.records.get? (g.registry.canonical x) with
      | none => rfl
      | some r =>
        obtain ⟨hp, hs⟩ := hn _ r ⟨x, hx, rfl, hr⟩
        rw [Bool.eq_false_iff.2 fun ht => (takesDelivery_iff.1 ht).elim hp hs]
        rfl

/-- One of the five cases is always there. -/
theorem exists_receives (g : Gate) (address : String) (body : ByteArray) (contentType : Option String) (now : Instant) :
    ∃ receipt g', g.Receives address body contentType now receipt g' := by
  by_cases h : ∃ t r, g.Addresses address t r ∧ (r.status = .pending ∨ r.status = .resolved)
  · obtain ⟨t, r, ha, hs⟩ := h
    cases hd : Callback.parseDecision t body contentType now with
    | error f => exact ⟨_, _, .malformed ha hs hd⟩
    | ok d =>
      rcases hs with hp | hr
      · cases hv : d.verdict.isTerminal with
        | true => exact ⟨_, _, .accepted ha hp hd hv⟩
        | false => exact ⟨_, _, .interim ha hp hd hv⟩
      · exact ⟨_, _, .duplicate ha hr hd⟩
  · exact ⟨_, _, .notFound fun t r ha => ⟨fun hp => h ⟨t, r, ha, .inl hp⟩, fun hr => h ⟨t, r, ha, .inr hr⟩⟩⟩

/-- **The contract of a delivery.**  Of the five answers a delivery gets the one that its address, the status of the
wait there and its body call for.  A final decision on a pending wait changes the record of that wait, and wakes no more
than what is parked under its token; an interim one is noted in that record; and every other delivery, whatever somebody
sends, leaves all as it is. -/
theorem delivery_answers (hg : g.registry.Reachable) (address : String) (body : ByteArray)
    (contentType : Option String) (now : Instant) :
    let receipt := (g.receive address body contentType now).1
    let g' := (g.receive address body contentType now).2
    let parsed := fun t => Callback.parseDecision t body contentType now
    (∀ e v, receipt = .accepted e v ↔ ∃ t r d, g.Addresses address t r ∧ r.status = .pending ∧ parsed t = .ok d ∧
        d.verdict.isTerminal = true ∧ r.wait.execution = e ∧ d.verdict = v) ∧
      (receipt = .interim ↔ ∃ t r d, g.Addresses address t r ∧ r.status = .pending ∧ parsed t = .ok d ∧
        d.verdict = .pending) ∧
      (receipt = .duplicate ↔ ∃ t r d, g.Addresses address t r ∧ r.status = .resolved ∧ parsed t = .ok d) ∧
      (∀ reason, receipt = .malformed reason ↔ ∃ t r f, g.Addresses address t r ∧
        (r.status = .pending ∨ r.status = .resolved) ∧ parsed t = .error f ∧ f.message = reason) ∧
      (receipt = .notFound ↔ ∀ t r, g.Addresses address t r → r.status ≠ .pending ∧ r.status ≠ .resolved) ∧
      (∀ t r d, g.Addresses address t r → r.status = .pending → parsed t = .ok d → d.verdict.isTerminal = true →
        d.token = t ∧ d.receivedAt = now ∧
          g.registry.Amended t { r.finish .resolved d.receivedAt with decision := some d } g'.registry ∧
          g.Signalled t (.decision d) g') ∧
      (∀ t r d, g.Addresses address t r → r.status = .pending → parsed t = .ok d → d.verdict = .pending →
        g.registry.Amended t { r with lastUpdate := some d } g'.registry ∧ g' = { g with registry := g'.registry }) ∧
      (receipt = .duplicate ∨ (∃ reason, receipt = .malformed reason) ∨ receipt = .notFound → g' = g) := by
  intro receipt g' parsed
  have answered {receipt' : Receipt} {h : Gate} (hc : g.Receives address body contentType now receipt' h) :
      receipt = receipt' ∧ g' = h := Prod.mk.inj (hc.eq hg.sound)
  have case {receipt' : Receipt} (hr : receipt = receipt') :
      ∃ h, g.Receives address body contentType now receipt' h ∧ g' = h := by
    obtain ⟨receipt'', h, hc⟩ := g.exists_receives address body contentType now
    obtain ⟨hr', hh⟩ := answered hc
    exact ⟨h, hr ▸ hr' ▸ hc, hh⟩
  refine ⟨fun e v => ⟨fun hr => ?_, ?_⟩, ⟨fun hr => ?_, ?_⟩, ⟨fun hr => ?_, ?_⟩, fun reason => ⟨fun hr => ?_, ?_⟩,
    ⟨fun hr => ?_, ?_⟩, ?_, ?_, ?_⟩
  · obtain ⟨h, hc, -⟩ := case hr
    cases hc with
    | accepted ha hp hd hv => exact ⟨_, _, _, ha, hp, hd, hv, rfl, rfl⟩
  · rintro ⟨t, r, d, ha, hp, hd, hv, rfl, rfl⟩
    exact (answered (.accepted ha hp hd hv)).1
  · obtain ⟨h, hc, -⟩ := case hr
    cases hc with
    | interim ha hp hd hv => exact ⟨_, _, _, ha, hp, hd, Verdict.isTerminal_eq_false.1 hv⟩
  · rintro ⟨t, r, d, ha, hp, hd, hv⟩
    exact (answered (.interim ha hp hd (Verdict.isTerminal_eq_false.2 hv))).1
  · obtain ⟨h, hc, -⟩ := case hr
    cases hc with
    | duplicate ha hs hd => exact ⟨_, _, _, ha, hs, hd⟩
  · rintro ⟨t, r, d, ha, hs, hd⟩
    exact (answered (.duplicate ha hs hd)).1
  · obtain ⟨h, hc, -⟩ := case hr
    cases hc with
    | malformed ha hs hd => exact ⟨_, _, _, ha, hs, hd, rfl⟩
  · rintro ⟨t, r, f, ha, hs, hd, rfl⟩
    exact (answered (.malformed ha hs hd)).1
  · obtain ⟨h, hc, -⟩ := case hr
    cases hc with
    | notFound hn => exact hn
  · intro hn
    exact (answered (.notFound hn)).1
  · intro t r d ha hp hd hv
    obtain ⟨ht, hnow, -⟩ := Callback.parseDecision_ok hd
    have hg' := (answered (.accepted ha hp hd hv)).2
    refine ⟨ht, hnow, ?_, ?_⟩
    · rw [hg', deliver, signal_registry]
      exact Registry.amended_save _ _ _
    · rw [hg']
      exact signalled_signal _ _ _ _
  · intro t r d ha hp hd hv
    have hg' := (answered (.interim ha hp hd (Verdict.isTerminal_eq_false.2 hv))).2
    rw [hg']
    exact ⟨Registry.amended_save _ _ _, rfl⟩
  · rintro (hr | ⟨reason, hr⟩ | hr)
    all_goals
      obtain ⟨h, hc, hh⟩ := case hr
      cases hc
      exact hh

/-- A wait is approved under its alias, after a delivery that says nothing: the handle that is parked under the token is
told. -/
theorem approval_under_alias_answered :
    let t : Token := default
    let a : Token := ⟨"alias", by decide⟩
    let w : Wait := { Wait.start t default .epoch with aliasToken := some a, job := some "deploy" }
    let parking : List Step := [.begin (.register w), .begin (.attach default t none .epoch), .resume (.look t)]
    let g := ((Traffic.idle (.start .empty none)).run parking).gate
    let now : Instant := ⟨60, 0, by decide⟩
    let approval := "\x7b\"result\":\"approved\"\x7d".toUTF8
    let yes : Decision := ⟨t, .obj [("result", .str "approved")], .approved, none, now⟩
    let r := { (WaitRecord.ofWait w).finish .resolved now with decision := some yes }
    let g' := (g.receive a.text approval none now).2
    (g.receive a.text "result=maybe".toUTF8 none now).2 = g ∧
      (g.receive a.text approval none now).1 = .accepted default .approved ∧ g.registry.Amended t r g'.registry ∧
      g'.handles.get? 1 = some ⟨default, t, none, .signal (.decision yes)⟩ := by
  intro t a w parking g now approval yes r g'
  have hg : g.registry.Reachable := Traffic.registry_reachable Registry.reachable_empty parking
  have addressed : g.Addresses a.text t (WaitRecord.ofWait w) := ⟨a, by decide, by decide, by decide⟩
  have parsed : Callback.parseDecision t approval none now = .ok yes := by decide +kernel
  have unread : Callback.parseDecision t "result=maybe".toUTF8 none now =
      .error (.malformedPayload t.text "field 'result': unknown decision result 'maybe'") := by decide +kernel
  obtain ⟨accepted, -, -, -, -, final, -, -⟩ := delivery_answers hg a.text approval none now
  obtain ⟨-, -, -, malformed, -, -, -, unchanged⟩ := delivery_answers hg a.text "result=maybe".toUTF8 none now
  obtain ⟨-, -, amended, signalled⟩ := final t _ yes addressed rfl parsed rfl
  refine ⟨unchanged (.inr (.inl ⟨_, (malformed _).2 ⟨t, _, _, addressed, .inl rfl, unread, rfl⟩⟩)),
    (accepted _ _).2 ⟨t, _, yes, addressed, rfl, parsed, rfl, rfl, rfl⟩, amended, ?_⟩
  rw [signalled.mail ⟨1, default⟩ (by decide)]
  decide

end Gate
end ApprovalGate
