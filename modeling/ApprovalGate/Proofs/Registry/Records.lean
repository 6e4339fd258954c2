import ApprovalGate.Proofs.Registry.Sound
import ApprovalGate.Proofs.Store
/-!
# The records of a registry, one by one

Where a record can come from: it was there before, it is a fresh one, or it is one that was there with a change, and
then any decision on it that is new is the one that the operation brought (`perform_records`).  So a property of single
records holds all along a run when fresh records have it and changes keep it (`run_forall`).
-/
namespace ApprovalGate.Registry

/-- The decision that an operation brings along. -/
def Operation.decision? : Operation → Option Decision
  | .resolve _ d | .noteUpdate _ d => some d
  | _ => none

/-- A change of a record by an operation that may bring a decision. -/
structure Brings (d? : Option Decision) (r r' : WaitRecord) : Prop where
  amends : Amends r r'
  decision : ∀ d, r'.decision = some d → r.decision = some d ∨ d? = some d
  lastUpdate : ∀ d, r'.lastUpdate = some d → r.lastUpdate = some d ∨ d? = some d

/-- Where a record comes from after an operation. -/
inductive Comes (g : Registry) (op : Operation) (t : Token) (r' : WaitRecord) : Prop where
  | held : g.records.get? t = some r' → Comes g op t r'
  | fresh {w : Wait} : op = .register w → w.token = t → r' = fresh w → Comes g op t r'
  | changed {r : WaitRecord} : g.records.get? t = some r → Brings op.decision? r r' → Comes g op t r'

theorem brings_noted {r : WaitRecord} (d : Decision) (hp : r.isPending = true) :
    Brings (some d) r { r with lastUpdate := some d } :=
  ⟨.noted d hp, fun _ h => .inl h, fun _ h => .inr h⟩

/-- Whether an operation can do no more than change one record that stays. -/
def Operation.isChange : Operation → Bool
  | .resolve _ _ | .noteUpdate _ _ | .expire _ _ | .takeDecision _ | .markDelivered _ => true
  | .register _ | .cancel _ | .remove _ | .sweep _ => false

/-- **What a change comes to**: nothing, or one record is another now. -/
theorem perform_change (g : Registry) {op : Operation} (h : op.isChange = true) : g.perform op = g ∨
    ∃ t r r', g.records.get? t = some r ∧ Brings op.decision? r r' ∧ g.perform op = g.save t r' := by
  cases op with
  | resolve x dec =>
    rw [perform]
    rcases resolve_cases g x dec with ⟨t, r, hx, hp, hv, heq⟩ | ⟨t, r, hx, hp, -, heq⟩ | ⟨t, r, -, -, heq⟩ | ⟨-, heq⟩
    · refine .inr ⟨t, r, _, find?_records hx, ⟨.resolved dec hp hv, fun _ h => .inr h, fun _ h => .inl h⟩, ?_⟩
      rw [heq]
    · exact .inr ⟨t, r, _, find?_records hx, brings_noted dec hp, by rw [heq]⟩
    · exact .inl (by rw [heq])
    · exact .inl (by rw [heq])
  | noteUpdate x dec =>
    rw [perform]
    rcases noteUpdate_cases g x dec with ⟨t, r, hx, hp, heq⟩ | ⟨t, r, -, -, heq⟩ | ⟨-, heq⟩
    · exact .inr ⟨t, r, _, find?_records hx, brings_noted dec hp, by rw [heq]⟩
    · exact .inl (by rw [heq])
    · exact .inl (by rw [heq])
  | expire x now =>
    rw [perform]
    rcases expire_cases g x now with ⟨t, r, hx, hp, heq⟩ | ⟨t, r, -, -, heq⟩ | ⟨-, heq⟩
    · refine .inr ⟨t, r, _, find?_records hx, ⟨.expired now hp, fun _ h => .inl h, fun _ h => .inl h⟩, ?_⟩
      rw [heq]
    · exact .inl (by rw [heq])
    · exact .inl (by rw [heq])
  | takeDecision x =>
    rw [perform]
    rcases takeDecision_cases g x with ⟨t, r, dec, hx, hd, -, heq⟩ | ⟨-, heq⟩
    · refine .inr ⟨t, r, _, find?_records hx, ⟨.delivered dec hd, fun _ h => .inl h, fun _ h => .inl h⟩, ?_⟩
      rw [heq]
    · exact .inl (by rw [heq])
  | markDelivered x =>
    rw [perform]
    rcases markDelivered_cases g x with ⟨t, r, dec, hx, hd, heq⟩ | heq
    · exact .inr ⟨t, r, _, find?_records hx, ⟨.delivered dec hd, fun _ h => .inl h, fun _ h => .inl h⟩, heq⟩
    · exact .inl heq
  | register w => cases h
  | cancel e => cases h
  | remove t => cases h
  | sweep now => cases h

/-- **Every record comes from somewhere.** -/
theorem perform_records {g : Registry} (s : g.Sound) (op : Operation) {t : Token} {r : WaitRecord}
    (h : (g.perform op).records.get? t = some r) : Comes g op t r := by
  have d := s.toDistinct
  have change (hc : op.isChange = true) : Comes g op t r := by
    rcases perform_change g hc with heq | ⟨u, q, q', hu, b, heq⟩
    · exact .held (heq ▸ h)
    · rw [heq, save_get?] at h
      split at h
      · rename_i hut
        cases h
        exact .changed (hut ▸ hu) b
      · exact .held h
  have forgets {ts : List Token} (f : Forgets g ts (g.perform op)) : Comes g op t r := by
    rw [f.records] at h
    split at h
    · cases h
    · exact .held h
  cases op with
  | register w =>
    rcases register_cases g w with ⟨r, -, -, heq⟩ | ⟨f, store, -, heq⟩ | ⟨store, hv, -, heq⟩
    · rw [perform, heq] at h
      exact .held h
    · rw [perform, heq] at h
      exact .held h
    · rw [perform, heq, (registers_takeUp d hv store).records] at h
      split at h
      · rename_i ht
        cases h
        exact .fresh rfl ht.symm rfl
      · split at h
        · cases h
        · exact .held h
  | cancel e => exact forgets (cancel_forgets d e)
  | remove x =>
    rcases remove_cases g x with ⟨q, -, heq⟩ | ⟨-, heq⟩
    · refine @forgets [x] ?_
      rw [perform, heq]
      exact forgets_dropAll d [x]
    · rw [perform, heq] at h
      exact .held h
  | sweep now => exact forgets (sweep_forgets d now)
  | _ => exact change rfl

/-- Whether all records of a registry have a property. -/
def Forall (g : Registry) (P : WaitRecord → Prop) : Prop := ∀ t r, g.records.get? t = some r → P r

/-- Whether an operation makes and leaves records with a property. -/
structure Operation.Keeps (op : Operation) (P : WaitRecord → Prop) : Prop where
  fresh : ∀ w, op = .register w → P (fresh w)
  changed : ∀ r r', Brings op.decision? r r' → P r → P r'

theorem Forall.perform {g : Registry} {P : WaitRecord → Prop} (s : g.Sound) (hg : g.Forall P) {op : Operation}
    (hop : op.Keeps P) : (g.perform op).Forall P := by
  intro t r hr
  cases perform_records s op hr with
  | held h => exact hg t r h
  | fresh hw _ hr => exact hr ▸ hop.fresh _ hw
  | changed h b => exact hop.changed _ _ b (hg t _ h)

theorem Forall.run {P : WaitRecord → Prop} : ∀ (ops : List Operation) {g : Registry}, g.Sound → g.Forall P →
    (∀ op ∈ ops, op.Keeps P) → (g.run (ops.map .call)).Forall P
  | [], _, _, hg, _ => hg
  | op :: ops, _, s, hg, hops => Forall.run ops (s.happen (.call op)) (hg.perform s (hops op List.mem_cons_self))
      fun op' hop' => hops op' (List.mem_cons_of_mem _ hop')

/-! ## Opening -/

theorem adoptAll_forall {P : WaitRecord → Prop} : ∀ (rs : List WaitRecord) {g : Registry}, g.Forall P →
    (∀ r ∈ rs, P r) → (g.adoptAll rs).2.Forall P
  | [], _, hg, _ => hg
  | r :: rs, g, hg, hrs => by
    have hrs' : ∀ q ∈ rs, P q := fun q hq => hrs q (List.mem_cons_of_mem _ hq)
    rw [adoptAll]
    split
    · cases g.store.delete r.token with
      | mk result store =>
        cases result with
        | error f => exact hg
        | ok _ => exact adoptAll_forall rs (g := { g with store }) hg hrs'
    · refine adoptAll_forall rs (fun t q hq => ?_) hrs'
      rw [adopt_records, Table.get?_insert] at hq
      split at hq
      · cases hq
        exact hrs _ List.mem_cons_self
      · exact hg t q hq

/-- **What holds of the records of a store holds of those of a registry opened on it.** -/
theorem openStore_forall {P : WaitRecord → Prop} {store : Store} {ttl : Span} {happens : TokenOrder} {g : Registry}
    (ho : openStore store ttl happens = (.ok (), g)) (hP : ∀ r ∈ store.records.values, P r) : g.Forall P := by
  have h := adoptAll_forall (P := P) (store.records.sortedBy (store.listing happens))
    (g := ⟨Table.empty, Table.empty, Table.empty, store, ttl⟩) (fun t r h => by cases h)
    fun r hr => hP r (List.mem_mergeSort.1 hr)
  rw [← openListed, (openStore_ok ho).2] at h
  exact h

end ApprovalGate.Registry
