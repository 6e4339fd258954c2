import ApprovalGate.Proofs.Registry.Sound
/-!
# Where addresses lead

A wait is addressed by its token or by an alias.  Finding a wait and making an address canonical are two ways of the
same look-up (`find?_eq_canonical`).  Since no alias outlives the record that it leads to, a canonical address is its
own one, and whatever an address leads to is a record under its canonical one (`addresses_coherent`).
-/
namespace ApprovalGate.Registry

variable {g : Registry}

theorem canonical_of_record {x : Token} {r : WaitRecord} (hx : g.records.get? x = some r) : g.canonical x = x := by
  rw [canonical, Table.contains, hx]
  rfl

theorem canonical_of_none {x : Token} (hx : g.records.get? x = none) :
    g.canonical x = (g.aliases.get? x).getD x := by
  rw [canonical, Table.contains, hx]
  rfl

/-- **What an address leads to is what is under its canonical one.** -/
theorem find?_eq_canonical (g : Registry) (x : Token) :
    g.find? x = (g.records.get? (g.canonical x)).map fun r => (g.canonical x, r) := by
  unfold find?
  cases hx : g.records.get? x with
  | some r =>
    rw [canonical_of_record hx, hx]
    rfl
  | none =>
    rw [canonical_of_none hx]
    cases g.aliases.get? x with
    | none =>
      rw [Option.getD_none, hx]
      rfl
    | some t => rfl

theorem get?_eq_canonical (g : Registry) (x : Token) : g.get? x = g.records.get? (g.canonical x) := by
  rw [get?, find?_eq_canonical]
  cases g.records.get? (g.canonical x) <;> rfl

theorem find?_canonical {x t : Token} {r : WaitRecord} (h : g.find? x = some (t, r)) : t = g.canonical x := by
  rw [find?_eq_canonical] at h
  obtain ⟨q, -, hq⟩ := Option.map_eq_some_iff.1 h
  cases hq
  rfl

/-- A canonical address is its own: where an alias leads there is a record. -/
theorem Sound.canonical_canonical (s : g.Sound) (x : Token) : g.canonical (g.canonical x) = g.canonical x := by
  cases hx : g.records.get? x with
  | some r => rw [canonical_of_record hx, canonical_of_record hx]
  | none =>
    cases ha : g.aliases.get? x with
    | none =>
      have hc : g.canonical x = x := by rw [canonical_of_none hx, ha, Option.getD_none]
      rw [hc, hc]
    | some t =>
      obtain ⟨r, hr⟩ := s.led ha
      have hc : g.canonical x = t := by rw [canonical_of_none hx, ha, Option.getD_some]
      rw [hc, canonical_of_record hr]

/-- What a canonical address leads to is under it. -/
theorem Sound.canonical (s : g.Sound) {x u : Token} {r : WaitRecord} (hx : g.find? (g.canonical x) = some (u, r)) :
    u = g.canonical x := (find?_canonical hx).trans (s.canonical_canonical x)

/-- What a canonical address leads to is the record under it. -/
theorem Sound.get?_canonical (s : g.Sound) (x : Token) : g.get? (g.canonical x) = g.records.get? (g.canonical x) := by
  rw [get?_eq_canonical, s.canonical_canonical]

/-- Whether addresses lead one way: every alias to a record and every record to itself, and whatever an address leads to
is there under its canonical address, too, and is kept under it. -/
structure Coherent (g : Registry) : Prop where
  led : ∀ a t, g.aliases.get? a = some t → ∃ r, g.records.get? t = some r
  keyed : ∀ t r, g.records.get? t = some r → r.token = t
  idempotent : ∀ x, g.canonical (g.canonical x) = g.canonical x
  same : ∀ x, g.get? x = g.get? (g.canonical x)
  own : ∀ x r, g.get? x = some r → r.token = g.canonical x

theorem Sound.coherent (s : g.Sound) : g.Coherent where
  led _ _ := s.led
  keyed _ _ := s.keyed
  idempotent := s.canonical_canonical
  same x := by rw [s.get?_canonical, get?_eq_canonical]
  own x r hr := by
    rw [get?_eq_canonical] at hr
    exact s.keyed hr

/-- **Addresses lead one way** in every registry that operations lead to from an opened one, whatever its store does,
and on after its store was opened again. -/
theorem addresses_coherent {store : Store} {ttl : Span} {happens : TokenOrder} {g : Registry}
    (ho : openStore store ttl happens = (.ok (), g)) (evs : List Event) :
    (g.run evs).Coherent ∧ ∀ store' ttl' happens' g', (g.run evs).store.reopen = .ok store' →
      openStore store' ttl' happens' = (.ok (), g') → ∀ evs', (g'.run evs').Coherent :=
  ⟨((openStore_sound ho).run evs).coherent, fun _ _ _ _ _ ho' evs' => ((openStore_sound ho').run evs').coherent⟩

/-- An alias leads to its wait, also after the store was opened again, which gives the same registry. -/
theorem alias_leads_after_reopening :
    let a : Token := ⟨"a", by decide⟩
    let w : Wait := { Wait.start default default .epoch with aliasToken := some a }
    let h := empty.run [.call (.register w)]
    openStore .memory defaultTtl .byText = (.ok (), empty) ∧ h.canonical a = w.token ∧ h.Coherent ∧
      h.store.reopen = .ok h.store ∧ openStore h.store defaultTtl .byText = (.ok (), h) ∧ (h.run []).Coherent := by
  intro a w h
  obtain ⟨coherent, reopened⟩ := addresses_coherent (openStore_memory .byText) [.call (.register w)]
  have ho : openStore h.store defaultTtl .byText = (.ok (), h) := openStore_single rfl rfl (by decide) defaultTtl _
  exact ⟨openStore_memory .byText, by decide, coherent, rfl, ho, reopened _ _ _ h rfl ho []⟩

end ApprovalGate.Registry
