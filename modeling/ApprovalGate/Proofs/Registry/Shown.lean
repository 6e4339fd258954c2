import ApprovalGate.Proofs.Registry.Reopened
import ApprovalGate.Proofs.Store.Shown
/-!
# What holds of all records, now and after every restart

A property of records that holds of a registry's and of all that its store shows (`Registry.Bears`) holds on through
every operation that keeps it, and of the registry that is opened on the store later.  So does one of waits, which no
operation changes but by taking one up (`Registry.Shows`).  To begin with it is enough that it holds of the wait that is
registered just then, if it says nothing about others (`shows_of_register`).
-/
namespace ApprovalGate

theorem Wait.Same.status (w : Wait) (status : WaitStatus) : w.Same { w with status } := rfl

namespace Registry

theorem Amends.same {r r' : WaitRecord} (h : Amends r r') : r.wait.Same r'.wait := by
  cases h <;> rfl

/-! ## Properties of records -/

/-- Whether a property of records holds of all in a registry and of all that its store shows. -/
structure Bears (Q : WaitRecord → Prop) (g : Registry) : Prop where
  sound : g.Sound
  held : g.Forall Q
  stored : g.store.Bears Q

section Records

variable {Q : WaitRecord → Prop} {g : Registry}

theorem Bears.aside (h : g.Bears Q) {store : Store} (a : g.store.Aside store) : Bears Q { g with store } :=
  ⟨h.sound.restock store, h.held, h.stored.aside a⟩

variable (keeps : ∀ {r r' : WaitRecord}, r.Same r' → Q r → Q r')
include keeps

theorem Bears.dropAll (h : g.Bears Q) (ts : List Token) : (g.dropAll ts).store.Bears Q :=
  dropAll_deletes (fun _ t hs => hs.delete keeps t) ts h.stored

theorem Bears.register (h : g.Bears Q) {w : Wait} (hw : Q (fresh w)) : (g.register w).2.store.Bears Q := by
  have put := h.stored.put keeps hw
  rcases register_cases g w with ⟨r, -, -, heq⟩ | ⟨f, store, hput, heq⟩ | ⟨store, -, hput, heq⟩
  · rw [heq]
    exact h.stored
  · rw [heq]
    rwa [hput] at put
  · rw [heq]
    rw [hput] at put
    exact takeUp_deletes (fun _ t hs => hs.delete keeps t) w put

/-- **What an operation keeps of records, the store shows on.** -/
theorem Bears.perform (h : g.Bears Q) {op : Operation} (hop : op.Keeps Q) : (g.perform op).Bears Q := by
  have unlessNil (ts : List Token) : (if ts.isEmpty then g else g.dropAll ts).store.Bears Q := by
    split
    · exact h.stored
    · exact h.dropAll keeps ts
  have change (hc : op.isChange = true) : (g.perform op).store.Bears Q := by
    rcases perform_change g hc with heq | ⟨t, r, r', hr, b, heq⟩
    · rw [heq]
      exact h.stored
    · rw [heq]
      exact h.stored.put keeps (hop.changed r r' b (h.held t r hr))
  refine ⟨h.sound.happen (.call op), h.held.perform h.sound hop, ?_⟩
  cases op with
  | register w => exact h.register keeps (hop.fresh w rfl)
  | cancel e => exact unlessNil _
  | sweep now => exact unlessNil _
  | remove t =>
    rcases remove_cases g t with ⟨r, -, heq⟩ | ⟨-, heq⟩
    · rw [Registry.perform, heq]
      exact h.dropAll keeps [t]
    · rw [Registry.perform, heq]
      exact h.stored
  | _ => exact change rfl

/-- **What a store shows, a registry that is opened on it shows.** -/
theorem bears_of_openStore {store : Store} {ttl : Span} {happens : TokenOrder}
    (ho : openStore store ttl happens = (.ok (), g)) (h : store.Bears Q) : g.Bears Q := by
  refine ⟨openStore_sound ho, openStore_forall ho fun r hr => ?_,
    openStore_deletes (fun _ t hs => hs.delete keeps t) ho h⟩
  obtain ⟨t, ht⟩ := (Table.mem_values_iff h.sound.distinct).1 hr
  exact h.held t r ht

end Records

/-! ## Properties of waits -/

/-- Whether a property of waits holds of all records in a registry and of all that its store shows. -/
structure Shows (P : Wait → Prop) (g : Registry) : Prop where
  sound : g.Sound
  held : g.Forall fun r => P r.wait
  stored : g.store.Shows P

/-- Whether an operation takes up no wait but one with a property, or one under a token that is pending. -/
def Operation.Admits (P : Wait → Prop) (g : Registry) (op : Operation) : Prop :=
  ∀ w, op = .register w → P w ∨ ∃ r, g.records.get? w.token = some r ∧ r.isPending = true

variable {P : Wait → Prop}

theorem shows_iff_bears {g : Registry} : g.Shows P ↔ g.Bears fun r => P r.wait :=
  ⟨fun h => ⟨h.sound, h.held, Store.shows_iff_bears.1 h.stored⟩,
    fun h => ⟨h.sound, h.held, Store.shows_iff_bears.2 h.stored⟩⟩

section Keeps

variable (keeps : ∀ {w w' : Wait}, w.Same w' → P w → P w')
include keeps

/-- **A property of all waits that come in stays one of all that is shown.** -/
theorem Shows.perform {g : Registry} (h : g.Shows P) {op : Operation} (hop : op.Admits P g) :
    (g.perform op).Shows P := by
  have kept (fresh : ∀ w, op = .register w → P w) : (g.perform op).Shows P :=
    shows_iff_bears.2 ((shows_iff_bears.1 h).perform (fun same => keeps same.wait)
      ⟨fun w hw => keeps (.status w .pending) (fresh w hw), fun r r' b => keeps b.amends.same⟩)
  by_cases hreg : ∃ w, op = .register w
  · obtain ⟨w, rfl⟩ := hreg
    rcases hop w rfl with hw | ⟨r, hr, hp⟩
    · refine kept fun w' heq => ?_
      cases heq
      exact hw
    · rw [Registry.perform, register_pending hr hp]
      exact h
  · exact kept fun w hw => absurd ⟨w, hw⟩ hreg

theorem shows_of_openStore {store : Store} {ttl : Span} {happens : TokenOrder} {g : Registry}
    (ho : openStore store ttl happens = (.ok (), g)) (h : store.Shows P) : g.Shows P :=
  shows_iff_bears.2 (bears_of_openStore (fun same => keeps same.wait) ho (Store.shows_iff_bears.1 h))

/-- **What is told of the wait under one token only holds of all that is shown once the wait is registered.** -/
theorem shows_of_register {g h : Registry} {w : Wait} {s : Superseded} (sound : g.Sound)
    (stored : g.store.records.Sound) (hr : g.register w = (.ok s, h)) (others : ∀ w', w'.token ≠ w.token → P w')
    (hw : P w) : h.Shows P := by
  have hfresh : P (fresh w).wait := keeps (.status w .pending) hw
  have hsound : h.Sound := by
    have := sound.happen (.call (.register w))
    rwa [happen, perform, hr] at this
  obtain ⟨store, -, hput, htaken⟩ := register_takes hr
  -- the store shows it, and the wait that is over is deleted from what it shows
  have shown : store.Shows P := by
    obtain ⟨hcopy, hsaved⟩ := Store.put_ok (s := g.store) (r := fresh w) (by rw [hput])
    rw [hput] at hcopy hsaved
    refine Store.shows_of_saved keeps ?_ (fun t r ht => ?_) hsaved
    · rw [hcopy]
      exact stored.insert _
    · rw [hcopy, Table.get?_insert] at ht
      split at ht
      · cases ht
        exact hfresh
      · rename_i hne
        exact others _ fun h => hne (h.symm.trans (stored.keyed ht))
  have after : (g.takeUp w store).2.store.Shows P := takeUp_deletes (fun _ t hs => hs.delete keeps t) w shown
  rw [htaken] at after
  refine ⟨hsound, fun t r ht => ?_, after⟩
  rw [(registers_of_ok sound.toDistinct hr).records] at ht
  split at ht
  · cases ht
    exact hfresh
  · rename_i hne
    split at ht
    · cases ht
    · exact others _ fun h => hne ((sound.keyed ht).symm.trans h)

end Keeps

end Registry
end ApprovalGate
