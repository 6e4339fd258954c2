import ApprovalGate.Proofs.Registry.Addresses
import ApprovalGate.Proofs.Registry.Reopened
/-!
# Waits that have nothing to do with one another

A change of a wait answers by the record that its address leads to, and writes no other one (`Operation.Local`).  So
two changes by addresses that lead apart come to the same in either order: each answers as if it were alone, and over a
store in memory both orders leave one and the same registry (`waits_apart`).
-/
namespace ApprovalGate

/-! ## Stores in memory -/

namespace Store

variable {s : Store}

theorem InMemory.put_eq (h : s.InMemory) (r : WaitRecord) : (s.put r).2 =
    if s.refuses.put = true then s else { s with medium := .memory (s.records.insert r.token r) } := by
  obtain ⟨medium, refuses⟩ := s
  obtain ⟨records, rfl⟩ := h
  unfold Store.put
  by_cases hp : refuses.put = true
  · rw [if_pos hp, if_pos hp]
  · rw [if_neg hp, if_neg hp]
    rfl

theorem InMemory.put (h : s.InMemory) (r : WaitRecord) : (s.put r).2.InMemory := by
  rw [h.put_eq]
  split
  · exact h
  · exact ⟨_, rfl⟩

theorem InMemory.delete (h : s.InMemory) (t : Token) : (s.delete t).2.InMemory := by
  obtain ⟨records, hm⟩ := h
  unfold Store.delete
  split
  · exact ⟨records, hm⟩
  · rw [hm]
    exact ⟨_, rfl⟩

/-- Records under different tokens are put in either order when one of the tokens is there already. -/
theorem InMemory.put_comm (h : s.InMemory) {r q old : WaitRecord} (hne : r.token ≠ q.token)
    (hr : s.records.get? r.token = some old) : ((s.put r).2.put q).2 = ((s.put q).2.put r).2 := by
  rw [(h.put r).put_eq, (h.put q).put_eq, h.put_eq, h.put_eq]
  by_cases hp : s.refuses.put = true
  · simp only [if_pos hp]
  · simp only [if_neg hp]
    show Store.mk (.memory ((s.records.insert r.token r).insert q.token q)) s.refuses =
      ⟨.memory ((s.records.insert q.token q).insert r.token r), s.refuses⟩
    rw [Table.insert_comm hne hr]

end Store

namespace Registry

theorem lasts_inMemory : Lasts Store.InMemory := ⟨fun _ r h => h.put r, fun _ t h => h.delete t⟩

/-! ## What a change reads and writes -/

/-- The address that a change is made by. -/
def Operation.address? : Operation → Option Token
  | .resolve x _ | .noteUpdate x _ | .expire x _ | .takeDecision x | .markDelivered x => some x
  | .register _ | .cancel _ | .remove _ | .sweep _ => none

/-- What an operation answers. -/
inductive Reply where
  | registered (result : Outcome Superseded)
  | resolution (resolution : Resolution)
  | cancelled (tokens : List Token)
  | removed (r? : Option WaitRecord)
  | decision (d? : Option Decision)
  | marked
  | swept (count : Nat)

def answer (g : Registry) : Operation → Reply
  | .register w => .registered (g.register w).1
  | .resolve t d => .resolution (g.resolve t d).1
  | .noteUpdate t d => .resolution (g.noteUpdate t d).1
  | .expire t now => .resolution (g.expire t now).1
  | .cancel e => .cancelled (g.cancel e).1
  | .remove t => .removed (g.remove t).1
  | .takeDecision t => .decision (g.takeDecision t).1
  | .markDelivered _ => .marked
  | .sweep now => .swept (g.sweep now).1

/-- The registry with the record that an address leads to amended, if there is one and it is to be. -/
def amendAt (g : Registry) (x : Token) (amend : WaitRecord → Option WaitRecord) : Registry :=
  match (g.get? x).bind amend with
  | none => g
  | some r => g.save (g.canonical x) r

/-- Whether an operation does nothing but answer by the record that an address leads to, and amend it. -/
structure Operation.Local (op : Operation) (x : Token) (reply : Option WaitRecord → Reply)
    (amend : WaitRecord → Option WaitRecord) : Prop where
  amends : ∀ r r', amend r = some r' → Amends r r'
  answer : ∀ g : Registry, g.answer op = reply (g.get? x)
  perform : ∀ g : Registry, g.perform op = g.amendAt x amend

/-- What an attempt to change a pending record answers. -/
def resolutionOf (answer : WaitRecord → Resolution) : Option WaitRecord → Resolution
  | none => .notFound
  | some r => match r.status with
    | .pending => answer r
    | .cancelled => .notFound
    | status => .alreadyResolved status

theorem changePending_local (g : Registry) (x : Token) (change : WaitRecord → WaitRecord)
    (answer : WaitRecord → Resolution) : g.changePending x change answer =
      (resolutionOf answer (g.get? x), g.amendAt x fun r => if r.isPending then some (change r) else none) := by
  unfold changePending amendAt resolutionOf
  rw [find?_eq_canonical, get?_eq_canonical]
  cases g.records.get? (g.canonical x) with
  | none => rfl
  | some r => cases hs : r.status <;> simp [WaitRecord.isPending, hs]

theorem takeDecision_local (g : Registry) (x : Token) : g.takeDecision x =
    ((g.get? x).bind fun r => if r.delivered then none else r.decision,
      g.amendAt x fun r => if r.delivered then none else r.decision.map fun _ => { r with delivered := true }) := by
  unfold takeDecision amendAt
  rw [find?_eq_canonical, get?_eq_canonical]
  cases g.records.get? (g.canonical x) with
  | none => rfl
  | some r => cases hd : r.decision <;> cases hr : r.delivered <;> simp [hd, hr]

theorem markDelivered_local (g : Registry) (x : Token) : g.markDelivered x =
    g.amendAt x fun r => if r.decision.isSome && !r.delivered then some { r with delivered := true } else none := by
  unfold markDelivered amendAt
  rw [find?_eq_canonical, get?_eq_canonical]
  cases g.records.get? (g.canonical x) with
  | none => rfl
  | some r => cases hd : r.decision <;> cases hr : r.delivered <;> simp [hd, hr]

/-- An operation that changes a pending record is local. -/
theorem local_of_changePending {op : Operation} {x : Token} {change : WaitRecord → WaitRecord}
    {answer : WaitRecord → Resolution} (amends : ∀ r, r.isPending = true → Amends r (change r))
    (ha : ∀ g : Registry, g.answer op = .resolution (g.changePending x change answer).1)
    (hp : ∀ g : Registry, g.perform op = (g.changePending x change answer).2) :
    ∃ reply amend, op.Local x reply amend := by
  refine ⟨fun r? => .resolution (resolutionOf answer r?), fun r => if r.isPending then some (change r) else none,
    fun r r' h => ?_, fun g => ?_, fun g => ?_⟩
  · split at h
    · rename_i hr
      cases h
      exact amends r hr
    · cases h
  · rw [ha, changePending_local]
  · rw [hp, changePending_local]

/-- **A change is local** to the record that its address leads to. -/
theorem change_local {op : Operation} {x : Token} (h : op.address? = some x) :
    ∃ reply amend, op.Local x reply amend := by
  cases op with
  | resolve y d =>
    cases h
    by_cases hv : d.verdict.isTerminal = true
    · have heq (g : Registry) : g.resolve x d = _ := if_pos hv
      exact local_of_changePending (fun r hr => .resolved d hr hv) (fun g => by rw [answer, heq])
        fun g => by rw [perform, heq]
    · have heq (g : Registry) : g.resolve x d = g.noteUpdate x d := if_neg hv
      exact local_of_changePending (fun r hr => .noted d hr) (fun g => by rw [answer, heq]; rfl)
        fun g => by rw [perform, heq]; rfl
  | noteUpdate y d =>
    cases h
    exact local_of_changePending (fun r hr => .noted d hr) (fun _ => rfl) fun _ => rfl
  | expire y now =>
    cases h
    exact local_of_changePending (fun r hr => .expired now hr) (fun _ => rfl) fun _ => rfl
  | takeDecision y =>
    cases h
    refine ⟨fun r? => .decision (r?.bind fun r => if r.delivered then none else r.decision), _, fun r r' hr => ?_,
      fun g => by rw [answer, takeDecision_local], fun g => by rw [perform, takeDecision_local]⟩
    split at hr
    · cases hr
    · obtain ⟨d, hd, rfl⟩ := Option.map_eq_some_iff.1 hr
      exact .delivered d hd
  | markDelivered y =>
    cases h
    refine ⟨fun _ => .marked, _, fun r r' hr => ?_, fun _ => rfl, fun g => markDelivered_local g x⟩
    split at hr
    · rename_i hc
      cases hr
      obtain ⟨d, hd⟩ := Option.isSome_iff_exists.1 (Bool.and_eq_true_iff.1 hc).1
      exact .delivered d hd
    · cases hr
  | _ => cases h

/-! ## Two changes -/

/-- A change of a record that is there leads no address elsewhere. -/
theorem canonical_save {g : Registry} {t : Token} {r : WaitRecord} (ht : g.records.get? t = some r) (r' : WaitRecord)
    (y : Token) : (g.save t r').canonical y = g.canonical y := by
  unfold canonical Table.contains
  rw [save_get?]
  by_cases hy : t = y
  · subst hy
    rw [if_pos rfl, ht]
    rfl
  · rw [if_neg hy]
    rfl

theorem get?_save_of_ne {g : Registry} {t y : Token} {r : WaitRecord} (ht : g.records.get? t = some r) (r' : WaitRecord)
    (hy : g.canonical y ≠ t) : (g.save t r').get? y = g.get? y := by
  rw [get?_eq_canonical, get?_eq_canonical, canonical_save ht, save_get?, if_neg hy.symm]

section Amendments

variable {g : Registry} {x y : Token} {amend amend' : WaitRecord → Option WaitRecord}

/-- What an amendment comes to: nothing, or the record under the canonical address is another one now. -/
theorem amendAt_cases (g : Registry) (x : Token) (amend : WaitRecord → Option WaitRecord) : g.amendAt x amend = g ∨
    ∃ r r', g.records.get? (g.canonical x) = some r ∧ amend r = some r' ∧
      g.amendAt x amend = g.save (g.canonical x) r' := by
  unfold amendAt
  cases hx : (g.get? x).bind amend with
  | none => exact .inl rfl
  | some r' =>
    obtain ⟨r, hr, hr'⟩ := Option.bind_eq_some_iff.1 hx
    exact .inr ⟨r, r', (get?_eq_canonical g x).symm.trans hr, hr', rfl⟩

theorem canonical_amendAt (g : Registry) (x y : Token) (amend : WaitRecord → Option WaitRecord) :
    (g.amendAt x amend).canonical y = g.canonical y := by
  rcases amendAt_cases g x amend with heq | ⟨r, r', hr, -, heq⟩
  · rw [heq]
  · rw [heq, canonical_save hr]

theorem get?_amendAt (hne : g.canonical x ≠ g.canonical y) (amend : WaitRecord → Option WaitRecord) :
    (g.amendAt x amend).get? y = g.get? y := by
  rcases amendAt_cases g x amend with heq | ⟨r, r', hr, -, heq⟩
  · rw [heq]
  · rw [heq, get?_save_of_ne hr r' hne.symm]

/-- After an amendment elsewhere there is the same to amend. -/
theorem amendAt_amendAt (hne : g.canonical x ≠ g.canonical y) (amend amend' : WaitRecord → Option WaitRecord) :
    (g.amendAt x amend).amendAt y amend' = match (g.get? y).bind amend' with
      | none => g.amendAt x amend
      | some r => (g.amendAt x amend).save (g.canonical y) r := by
  rw [amendAt, get?_amendAt hne, canonical_amendAt]

/-- An amended record is under the token of the one that was there. -/
theorem Sound.amended (s : g.Sound) (ha : ∀ r r', amend r = some r' → Amends r r') {r' : WaitRecord}
    (h : (g.get? x).bind amend = some r') :
    r'.token = g.canonical x ∧ ∃ r, g.records.get? (g.canonical x) = some r := by
  obtain ⟨r, hr, hr'⟩ := Option.bind_eq_some_iff.1 h
  rw [get?_eq_canonical] at hr
  exact ⟨(ha r r' hr').token.trans (s.keyed hr), r, hr⟩

/-- Records are saved under different tokens in either order when one of them is there already. -/
theorem save_comm (hm : g.store.InMemory) (hs : ∀ t, g.store.records.get? t = g.records.get? t) {t u : Token}
    (hne : t ≠ u) {r q old : WaitRecord} (hr : r.token = t) (hq : q.token = u) (hold : g.records.get? t = some old) :
    (g.save t r).save u q = (g.save u q).save t r := by
  subst hr hq
  unfold save
  simp only
  rw [Table.insert_comm hne hold, hm.put_comm hne ((hs r.token).trans hold)]

/-- **Amendments at addresses that lead apart** are made in either order. -/
theorem amendAt_comm (s : g.Sound) (hm : g.store.InMemory) (hs : ∀ t, g.store.records.get? t = g.records.get? t)
    (hne : g.canonical x ≠ g.canonical y) (ha : ∀ r r', amend r = some r' → Amends r r')
    (ha' : ∀ r r', amend' r = some r' → Amends r r') :
    (g.amendAt x amend).amendAt y amend' = (g.amendAt y amend').amendAt x amend := by
  rw [amendAt_amendAt hne, amendAt_amendAt hne.symm]
  unfold amendAt
  cases hx : (g.get? x).bind amend with
  | none => cases (g.get? y).bind amend' <;> rfl
  | some r =>
    cases hy : (g.get? y).bind amend' with
    | none => rfl
    | some q =>
      obtain ⟨hr, old, hold⟩ := s.amended ha hx
      exact save_comm hm hs hne hr (s.amended ha' hy).1 hold

end Amendments

/-! ## Different waits -/

/-- Whether a registry is another one but for the record under one token, and so is its store. -/
structure AlikeBut (t : Token) (g h : Registry) : Prop where
  records : ∀ u, u ≠ t → h.records.get? u = g.records.get? u
  stored : ∀ u, u ≠ t → h.store.records.get? u = g.store.records.get? u
  jobs : h.jobs = g.jobs
  aliases : h.aliases = g.aliases
  ttl : h.tombstoneTtl = g.tombstoneTtl

theorem alikeBut_refl (t : Token) (g : Registry) : AlikeBut t g g :=
  ⟨fun _ _ => rfl, fun _ _ => rfl, rfl, rfl, rfl⟩

theorem alikeBut_save (g : Registry) {t : Token} {r : WaitRecord} (hr : r.token = t) : AlikeBut t g (g.save t r) where
  records u hu := by rw [save_get?, if_neg hu.symm]
  stored u hu := by
    show (g.store.put r).2.records.get? u = _
    rcases Store.put_records g.store r with h | h
    · rw [h]
    · rw [h, hr, Table.get?_insert_of_ne _ _ hu.symm]
  jobs := rfl
  aliases := rfl
  ttl := rfl

/-- **Different waits are apart.**  Over a store in memory two changes by addresses that lead apart have the same two
answers and leave the same registry, its store included, whichever comes first; and a change leaves everything as it is
but for the record that its address leads to. -/
theorem waits_apart {store : Store} (made : store.Made) (willing : store.Willing) (memory : store.InMemory)
    {ttl : Span} {happens : TokenOrder} {g : Registry} (ho : openStore store ttl happens = (.ok (), g))
    (ops : List Operation) :
    let h := g.run (ops.map .call)
    (∀ op op' x y, op.address? = some x → op'.address? = some y → h.canonical x ≠ h.canonical y →
      (h.perform op').answer op = h.answer op ∧ (h.perform op).answer op' = h.answer op' ∧
        (h.perform op).perform op' = (h.perform op').perform op) ∧
    ∀ op x, op.address? = some x → AlikeBut (h.canonical x) h (h.perform op) := by
  intro h
  have s : h.Sound := (openStore_sound ho).run _
  have memory' : h.store.InMemory := lasts_inMemory.run ops (openStore_deletes lasts_inMemory.delete ho memory)
  have reliable : store.Reliable := by
    obtain ⟨records, hm⟩ := memory
    exact Store.reliable_of_memory willing hm
  have held : ∀ t, h.store.records.get? t = h.records.get? t := (store_mirrors_registry made reliable ho ops).1
  refine ⟨fun op op' x y hx hy hne => ?_, fun op x hx => ?_⟩
  · obtain ⟨reply, amend, l⟩ := change_local hx
    obtain ⟨reply', amend', l'⟩ := change_local hy
    refine ⟨?_, ?_, ?_⟩
    · rw [l.answer, l.answer, l'.perform, get?_amendAt hne.symm]
    · rw [l'.answer, l'.answer, l.perform, get?_amendAt hne]
    · rw [l.perform, l'.perform, l.perform, l'.perform, amendAt_comm s memory' held hne l.amends l'.amends]
  · obtain ⟨reply, amend, l⟩ := change_local hx
    rw [l.perform]
    unfold amendAt
    cases ha : (h.get? x).bind amend with
    | none => exact alikeBut_refl _ h
    | some r => exact alikeBut_save h (s.amended l.amends ha).1

/-- Two waits, one of them addressed by its alias: an approval of the one and the deadline of the other come to the same
in either order. -/
theorem approval_and_deadline_apart :
    let a : Token := ⟨"a", by decide⟩
    let other : Token := ⟨"b", by decide⟩
    let w : Wait := { Wait.start default default .epoch with aliasToken := some a }
    let yes : Decision := ⟨default, .null, .approved, none, .epoch⟩
    let ops : List Operation := [.register w, .register (Wait.start other ⟨.numbered 2⟩ .epoch)]
    let h := empty.run (ops.map .call)
    Store.memory.Made ∧ Store.memory.Willing ∧ Store.memory.InMemory ∧
      openStore .memory defaultTtl .byText = (.ok (), empty) ∧ h.canonical a ≠ h.canonical other ∧
      (h.perform (.resolve a yes)).get? a ≠ h.get? a ∧ (h.perform (.expire other .epoch)).get? other ≠ h.get? other ∧
      (h.perform (.resolve a yes)).answer (.expire other .epoch) = h.answer (.expire other .epoch) ∧
      (h.perform (.resolve a yes)).perform (.expire other .epoch) =
        (h.perform (.expire other .epoch)).perform (.resolve a yes) := by
  intro a other w yes ops h
  have memory : Store.memory.InMemory := ⟨Table.empty, rfl⟩
  have apart : h.canonical a ≠ h.canonical other := by decide
  obtain ⟨commute, -⟩ := waits_apart .memory ⟨rfl, rfl⟩ memory (openStore_memory .byText) ops
  obtain ⟨-, answer, same⟩ := commute (.resolve a yes) (.expire other .epoch) a other rfl rfl apart
  exact ⟨.memory, ⟨rfl, rfl⟩, memory, openStore_memory .byText, apart, by decide, by decide, answer, same⟩

end Registry
end ApprovalGate
