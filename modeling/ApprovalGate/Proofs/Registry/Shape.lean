import ApprovalGate.Proofs.Registry.Shown
/-!
# The shapes of records

A record that an empty registry comes to hold is in the shape of its status (`WaitRecord.Shaped`): nothing is known of
how a pending wait ended, an expired one has the time that it ended but no decision, and a resolved one has a final
decision and ended when that came in.  No operation leaves another shape, and writing and reading keep it, so it holds
after every restart as well (`Later.shaped`), and for that a store need not even take what is written.
-/
namespace ApprovalGate

/-- Whether what is known of the end of a wait fits its status. -/
inductive WaitRecord.Shaped (r : WaitRecord) : Prop where
  | pending : r.status = .pending → r.decision = none → r.delivered = false → r.finishedAt = none → Shaped r
  | expired {ended : Instant} : r.status = .expired → r.decision = none → r.delivered = false →
      r.finishedAt = some ended → Shaped r
  | resolved {d : Decision} : r.status = .resolved → r.decision = some d → d.verdict.isTerminal = true →
      r.finishedAt = some d.receivedAt → Shaped r

namespace WaitRecord

variable {r r' : WaitRecord}

theorem Shaped.of_pending (h : r.Shaped) (hp : r.isPending = true) :
    r.decision = none ∧ r.delivered = false ∧ r.finishedAt = none := by
  have hs := isPending_iff.1 hp
  cases h with
  | pending _ hd hf ha => exact ⟨hd, hf, ha⟩
  | expired hs' => cases hs.symm.trans hs'
  | resolved hs' => cases hs.symm.trans hs'

/-- A resolved record has a final decision, and only such a one has any. -/
theorem Shaped.decision_iff (h : r.Shaped) :
    (r.status = .resolved ↔ r.decision.isSome = true) ∧ ∀ d, r.decision = some d → d.verdict.isTerminal = true := by
  cases h with
  | pending hs hd => simp [hs, hd]
  | expired hs hd => simp [hs, hd]
  | resolved hs hd hv => simp [hs, hd, hv]

theorem Shaped.decided (h : r.Shaped) (hs : r.status = .resolved) :
    ∃ d, r.decision = some d ∧ d.verdict.isTerminal = true := by
  obtain ⟨d, hd⟩ := Option.isSome_iff_exists.1 (h.decision_iff.1.1 hs)
  exact ⟨d, hd, h.decision_iff.2 d hd⟩

theorem Same.decision_none (same : r.Same r') (hd : r.decision = none) : r'.decision = none := by
  have decision := same.decision
  rw [hd] at decision
  generalize r'.decision = d'? at decision
  cases decision
  rfl

theorem Same.decision_some (same : r.Same r') {d : Decision} (hd : r.decision = some d) :
    ∃ d', r'.decision = some d' ∧ d'.verdict = d.verdict ∧ d'.receivedAt = d.receivedAt := by
  have decision := same.decision
  rw [hd] at decision
  generalize r'.decision = d'? at decision
  cases decision with
  | @some _ d' hsame =>
    have hsame : d' = { d with payload := d'.payload } := hsame
    exact ⟨d', rfl, by rw [hsame], by rw [hsame]⟩

/-- What is written and read has the shape that it had. -/
theorem Same.shaped (same : r.Same r') (h : r.Shaped) : r'.Shaped := by
  have hs' := same.status
  have hf' := same.delivered
  have ha' := same.finishedAt
  cases h with
  | pending hs hd hf ha => exact .pending (hs'.trans hs) (same.decision_none hd) (hf'.trans hf) (ha'.trans ha)
  | expired hs hd hf ha => exact .expired (hs'.trans hs) (same.decision_none hd) (hf'.trans hf) (ha'.trans ha)
  | resolved hs hd hv ha =>
    obtain ⟨d', hd', verdict, receivedAt⟩ := same.decision_some hd
    exact .resolved (hs'.trans hs) hd' (verdict ▸ hv) (receivedAt ▸ ha'.trans ha)

end WaitRecord

namespace Registry

/-- **Every operation keeps the shape of records**, whatever it brings along. -/
theorem keeps_shaped (op : Operation) : op.Keeps WaitRecord.Shaped where
  fresh _ _ := .pending rfl rfl rfl rfl
  changed r r' b h := by
    cases b.amends with
    | noted d hp =>
      obtain ⟨hd, hf, ha⟩ := h.of_pending hp
      exact .pending (WaitRecord.isPending_iff.1 hp) hd hf ha
    | resolved d hp hv => exact .resolved rfl rfl hv rfl
    | expired now hp =>
      obtain ⟨hd, hf, -⟩ := h.of_pending hp
      exact .expired rfl hd hf rfl
    | delivered d hd =>
      cases h with
      | pending _ hd' => cases hd.symm.trans hd'
      | expired _ hd' => cases hd.symm.trans hd'
      | resolved hs hd' hv ha => exact .resolved hs hd' hv ha

/-- What a registry comes to: operations are performed, the outside of its store can change in between, and at any time
the process can end and the next one open the store. -/
inductive Later (g : Registry) : Registry → Prop where
  | now : Later g g
  | perform {h : Registry} (op : Operation) : Later g h → Later g (h.perform op)
  | aside {h : Registry} {store : Store} : Later g h → h.store.Aside store → Later g { h with store }
  | restart {h h' : Registry} {store : Store} {ttl : Span} {happens : TokenOrder} : Later g h →
      h.store.reopen = .ok store → openStore store ttl happens = (.ok (), h') → Later g h'

/-- **What every operation keeps, and writing and reading, holds on**. -/
theorem Later.bears {Q : WaitRecord → Prop} (same : ∀ {r r' : WaitRecord}, r.Same r' → Q r → Q r')
    (keeps : ∀ op : Operation, op.Keeps Q) {g h : Registry} (l : g.Later h) (hg : g.Bears Q) : h.Bears Q := by
  induction l with
  | now => exact hg
  | perform op _ ih => exact ih.perform same (keeps op)
  | aside _ ha ih => exact ih.aside ha
  | restart _ hr ho ih => exact bears_of_openStore same ho (ih.stored.reopen hr)

/-- **The records of a registry are in shape**, whatever it has come to since it was opened on a blank store. -/
theorem Later.shaped {store : Store} (blank : store.Blank) {ttl : Span} {happens : TokenOrder} {g h : Registry}
    (ho : openStore store ttl happens = (.ok (), g)) (l : g.Later h) : h.Bears WaitRecord.Shaped :=
  l.bears WaitRecord.Same.shaped keeps_shaped
    (bears_of_openStore WaitRecord.Same.shaped ho (blank.mono fun _ h => h.elim))

end Registry
end ApprovalGate
