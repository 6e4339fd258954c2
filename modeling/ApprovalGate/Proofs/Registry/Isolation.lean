import ApprovalGate.Proofs.Registry.Sound
import ApprovalGate.Proofs.Store
/-!
# Whose wait a delivery changes

A delivery should change no other wait than one that has its address for its token or for its alias.  That is so as
long as every alias leads to a record that carries it (`Honest`), and only one step can spoil this: a registration over
a tombstone whose alias it does not carry on.  The old alias then leads to the new wait, and a late delivery for the
one that is over decides the other (`isolated_iff_no_alias_left_over`, `left_over_alias_decides`).
-/
namespace ApprovalGate

/-- Whether an address is the token of a wait or its alias. -/
def WaitRecord.HasAddress (r : WaitRecord) (x : Token) : Prop := r.token = x ∨ r.wait.aliasToken = some x

namespace Registry

/-- Whatever record a delivery to an address changes has that address. -/
def Isolated (g : Registry) : Prop := ∀ x d t,
  (g.resolve x d).2.records.get? t ≠ g.records.get? t ∨ (g.noteUpdate x d).2.records.get? t ≠ g.records.get? t →
    ∃ r, g.records.get? t = some r ∧ r.HasAddress x

/-- Every alias leads to a record that has it for an address. -/
def Honest (g : Registry) : Prop := ∀ a t, g.aliases.get? a = some t → ∃ r, g.records.get? t = some r ∧ r.HasAddress a

/-- Whether an event registers a token while an alias still leads there that the new wait does not carry. -/
def LeavesOver (g : Registry) (ev : Event) : Prop := ∃ w a, g.taken? ev = some w ∧
  g.aliases.get? a = some w.token ∧ w.token ≠ a ∧ w.aliasToken ≠ some a

/-! ## Deliveries -/

theorem resolve_changes {g : Registry} {x t : Token} {d : Decision}
    (h : (g.resolve x d).2.records.get? t ≠ g.records.get? t) : ∃ r, g.find? x = some (t, r) := by
  rcases resolve_cases g x d with ⟨u, q, hx, -, -, heq⟩ | ⟨u, q, hx, -, -, heq⟩ | ⟨u, q, -, -, heq⟩ | ⟨-, heq⟩
  · rw [heq, save_get?] at h
    split at h
    · rename_i hut
      exact ⟨q, hut ▸ hx⟩
    · exact absurd rfl h
  · rw [heq, save_get?] at h
    split at h
    · rename_i hut
      exact ⟨q, hut ▸ hx⟩
    · exact absurd rfl h
  · rw [heq] at h
    exact absurd rfl h
  · rw [heq] at h
    exact absurd rfl h

theorem noteUpdate_changes {g : Registry} {x t : Token} {d : Decision}
    (h : (g.noteUpdate x d).2.records.get? t ≠ g.records.get? t) : ∃ r, g.find? x = some (t, r) := by
  rcases noteUpdate_cases g x d with ⟨u, q, hx, -, heq⟩ | ⟨u, q, -, -, heq⟩ | ⟨-, heq⟩
  · rw [heq, save_get?] at h
    split at h
    · rename_i hut
      exact ⟨q, hut ▸ hx⟩
    · exact absurd rfl h
  · rw [heq] at h
    exact absurd rfl h
  · rw [heq] at h
    exact absurd rfl h

theorem Honest.isolated {g : Registry} (s : g.Sound) (hn : g.Honest) : g.Isolated := by
  intro x d t h
  obtain ⟨r, hx⟩ := h.elim resolve_changes noteUpdate_changes
  obtain ⟨hr, rfl | ⟨-, ha⟩⟩ := find?_eq_some.1 hx
  · exact ⟨r, hr, .inl (s.keyed hr)⟩
  · exact hn x t ha

theorem resolve_changes_pending {g : Registry} {x t : Token} {r : WaitRecord} (hx : g.find? x = some (t, r))
    (hp : r.isPending = true) : ∃ d, (g.resolve x d).2.records.get? t ≠ g.records.get? t := by
  let d : Decision := ⟨x, .null, .approved, none, .epoch⟩
  refine ⟨d, ?_⟩
  rcases resolve_cases g x d with ⟨u, q, hu, -, -, heq⟩ | ⟨u, q, -, -, hv, -⟩ | ⟨u, q, hu, hq, -⟩ | ⟨hn, -⟩
  · cases hx.symm.trans hu
    rw [heq, save_get?, if_pos rfl, find?_records hx]
    intro h
    have hst : WaitStatus.resolved = r.status := congrArg WaitRecord.status (Option.some.inj h)
    rw [WaitRecord.isPending_iff, ← hst] at hp
    cases hp
  · cases hv
  · cases hx.symm.trans hu
    rw [WaitRecord.isPending_iff] at hp
    rcases hq with hq | hq <;> cases hq.symm.trans hp
  · rw [WaitRecord.isPending_iff, hn t r hx] at hp
    cases hp

/-- In a registry where an alias leads to a pending wait that does not carry it, a delivery to the alias changes that
wait, unless the alias is a token of its own. -/
theorem not_isolated {g : Registry} {a t : Token} {r : WaitRecord} (ha : g.aliases.get? a = some t)
    (hn : g.records.get? a = none) (hr : g.records.get? t = some r) (hp : r.isPending = true) (hna : ¬r.HasAddress a) :
    ¬g.Isolated := by
  intro hi
  obtain ⟨d, hd⟩ := resolve_changes_pending (find?_eq_some.2 ⟨hr, .inr ⟨hn, ha⟩⟩) hp
  obtain ⟨q, hq, hqa⟩ := hi a d t (.inl hd)
  cases hr.symm.trans hq
  exact hna hqa

/-! ## Events -/

theorem Amends.hasAddress {r r' : WaitRecord} (h : Amends r r') (x : Token) : r'.HasAddress x ↔ r.HasAddress x := by
  rw [WaitRecord.HasAddress, WaitRecord.HasAddress, h.token, h.aliasToken]

/-- **Only a registration that leaves an alias over makes a registry dishonest.** -/
theorem Effect.honest {g h : Registry} {w? : Option Wait} (s : g.Sound) (e : Effect g w? h) (hn : g.Honest)
    (hl : ∀ w a, w? = some w → g.aliases.get? a = some w.token → w.token ≠ a → w.aliasToken = some a) : h.Honest := by
  intro a t hat
  cases e with
  | kept => exact hn a t hat
  | refused _ => exact hn a t hat
  | @amends u q q' hu ha =>
    obtain ⟨r, hr, hra⟩ := hn a t hat
    rw [save_get?]
    split
    · rename_i hut
      subst hut
      cases hu.symm.trans hr
      exact ⟨q', rfl, (ha.hasAddress a).2 hra⟩
    · exact ⟨r, hr, hra⟩
  | forgets ts =>
    have f := forgets_dropAll s.toDistinct ts
    obtain ⟨hat, ht⟩ := (f.aliases a t).1 hat
    rw [f.records, if_neg ht]
    exact hn a t hat
  | @registers w store hv _ =>
    have rg := registers_takeUp s.toDistinct hv store
    rw [rg.aliases] at hat
    split at hat
    · rename_i hw
      subst hat
      exact ⟨fresh w, by rw [rg.records, if_pos rfl], .inr hw.1⟩
    · obtain ⟨hat, hsup⟩ := hat
      by_cases ht : t = w.token
      · subst ht
        refine ⟨fresh w, by rw [rg.records, if_pos rfl], ?_⟩
        by_cases hwa : w.token = a
        · exact .inl hwa
        · exact .inr (hl w a rfl hat hwa)
      · rw [rg.records, if_neg ht, if_neg hsup]
        exact hn a t hat

theorem Honest.happen {g : Registry} (s : g.Sound) (hn : g.Honest) {ev : Event} (hl : ¬g.LeavesOver ev) :
    (g.happen ev).Honest := by
  cases ev with
  | restock store => exact hn
  | call op =>
    exact (perform_effect g op).honest s hn fun w a hw ha hne =>
      Classical.byContradiction fun hwa => hl ⟨w, a, hw, ha, hne, hwa⟩

/-- A registration that leaves an alias over spoils isolation: at once, or when the wait that has the alias for its
token is removed. -/
theorem LeavesOver.not_isolated {g : Registry} (s : g.Sound) {ev : Event} (hl : g.LeavesOver ev) :
    ¬((g.happen ev).Isolated ∧ ∀ a, ((g.happen ev).remove a).2.Isolated) := by
  obtain ⟨w, a, hw, ha, hne, hwa⟩ := hl
  cases ev with
  | restock store => cases hw
  | call op => ?_
  have e := perform_effect g op
  have s' := e.sound s
  rw [hw] at e
  show ¬((g.perform op).Isolated ∧ ∀ a, ((g.perform op).remove a).2.Isolated)
  generalize g.perform op = h at e s'
  cases e with
  | @registers w store hv _ =>
    have rg := registers_takeUp s.toDistinct hv store
    generalize (g.takeUp w store).1 = sup at rg
    generalize (g.takeUp w store).2 = h at rg s'
    have hsup : sup.map Prod.fst ≠ some w.token := fun hs => by
      obtain ⟨⟨p, e⟩, hs, rfl⟩ := Option.map_eq_some_iff.1 hs
      exact (rg.superseded _ e hs).1 rfl
    have haw : h.aliases.get? a = some w.token := by
      rw [rg.aliases, if_neg fun hc => hwa hc.1]
      exact ⟨ha, hsup⟩
    have hrw : h.records.get? w.token = some (fresh w) := by rw [rg.records, if_pos rfl]
    have hna : ¬(fresh w).HasAddress a := fun h => h.elim hne hwa
    rintro ⟨hi, hrem⟩
    rcases remove_cases h a with ⟨q, hq, heq⟩ | ⟨hq, heq⟩
    · have f := forgets_dropAll s'.toDistinct [a]
      have hwa' : w.token ∉ [a] := fun hm => hne (List.mem_singleton.1 hm)
      have hi' := hrem a
      rw [heq] at hi'
      refine Registry.not_isolated ((f.aliases a w.token).2 ⟨haw, hwa'⟩) ?_ ?_ rfl hna hi'
      · rw [f.records, if_pos (List.mem_singleton.2 rfl)]
      · rw [f.records, if_neg hwa']
        exact hrw
    · exact Registry.not_isolated haw hq hrw rfl hna hi

/-! ## Opening -/

theorem adopt_honest {g : Registry} (hn : g.Honest) {r : WaitRecord} (hr : g.records.get? r.token = none) :
    (g.adopt r).Honest := by
  intro a t hat
  rw [adopt_aliases] at hat
  rw [adopt_records, Table.get?_insert]
  split at hat
  · rename_i ha
    cases hat
    exact ⟨r, if_pos rfl, .inr ha⟩
  · obtain ⟨q, hq, hqa⟩ := hn a t hat
    refine ⟨q, ?_, hqa⟩
    rw [if_neg, hq]
    rintro rfl
    cases hr.symm.trans hq

theorem adoptAll_honest : ∀ (rs : List WaitRecord) {g : Registry}, g.Honest → (rs.map WaitRecord.token).Nodup →
    (∀ r ∈ rs, g.records.get? r.token = none) → (g.adoptAll rs).2.Honest
  | [], g, hn, _, _ => hn
  | r :: rs, g, hn, hd, hr => by
    obtain ⟨hnot, hd⟩ := List.nodup_cons.1 hd
    rw [adoptAll]
    split
    · cases hdel : g.store.delete r.token with
      | mk result store =>
        cases result with
        | error f => exact hn
        | ok _ => exact adoptAll_honest rs (g := { g with store }) hn hd fun q hq => hr q (List.mem_cons_of_mem _ hq)
    · refine adoptAll_honest rs (adopt_honest hn (hr r List.mem_cons_self)) hd fun q hq => ?_
      rw [adopt_records, Table.get?_insert_of_ne, hr q (List.mem_cons_of_mem _ hq)]
      exact fun heq => hnot (heq ▸ List.mem_map.2 ⟨q, hq, rfl⟩)

theorem openStore_honest {store : Store} (hs : store.Made) {ttl : Span} {happens : TokenOrder} {g : Registry}
    (ho : openStore store ttl happens = (.ok (), g)) : g.Honest := by
  have := adoptAll_honest (store.records.sortedBy (store.listing happens))
    (g := ⟨Table.empty, Table.empty, Table.empty, store, ttl⟩) (fun a t h => by cases h)
    (Records.nodup_sortedBy hs.sound _) (fun _ _ => rfl)
  rw [← openListed, (openStore_ok ho).2] at this
  exact this

/-! ## Runs -/

theorem Honest.run : ∀ (evs : List Event) {g : Registry}, g.Sound → g.Honest →
    (∀ p ev, p ++ [ev] <+: evs → ¬(g.run p).LeavesOver ev) → (g.run evs).Honest
  | [], _, _, hn, _ => hn
  | ev :: evs, _, s, hn, hl => by
    refine Honest.run evs (s.happen ev) (hn.happen s (hl [] ev ?_)) fun p e hp => ?_
    · exact List.cons_prefix_cons.2 ⟨rfl, List.nil_prefix⟩
    · exact hl (ev :: p) e (List.cons_prefix_cons.2 ⟨rfl, hp⟩)

/-- **Deliveries stay with their own waits exactly as long as no registration leaves an alias over**: along every run
from an opened registry, with any one wait removed at any point of it. -/
theorem isolated_iff_no_alias_left_over {store : Store} (hs : store.Made) {ttl : Span} {happens : TokenOrder}
    {g : Registry} (ho : openStore store ttl happens = (.ok (), g)) (evs : List Event) :
    (∀ p, p <+: evs → (g.run p).Isolated ∧ ∀ a, ((g.run p).remove a).2.Isolated) ↔
      ∀ p ev, p ++ [ev] <+: evs → ¬(g.run p).LeavesOver ev := by
  have s := openStore_sound ho
  constructor
  · intro h p ev hp hl
    have hi := h (p ++ [ev]) hp
    rw [run_append] at hi
    exact hl.not_isolated (s.run p) hi
  · intro h p hp
    have hn : (g.run p).Honest := Honest.run p s (openStore_honest hs ho) fun q ev hq => h q ev (hq.trans hp)
    refine ⟨hn.isolated (s.run p), fun a => ?_⟩
    have hrem : ¬(g.run p).LeavesOver (.call (.remove a)) := fun ⟨w, b, hw, _⟩ => by cases hw
    exact (hn.happen (s.run p) hrem).isolated ((s.run p).run [.call (.remove a)])

theorem isolated_with_alias_in_use :
    let a : Token := ⟨"a", by decide⟩
    let w : Wait := { Wait.start default default .epoch with aliasToken := some a }
    let evs : List Event := [.call (.register w), .call (.resolve a ⟨a, .null, .approved, none, .epoch⟩)]
    (empty.run evs).canonical a = w.token ∧ (empty.run evs).Isolated := by
  intro a w evs
  refine ⟨by decide, ((isolated_iff_no_alias_left_over .memory (openStore_memory .byText) evs).2 ?_ evs
    List.prefix_rfl).1⟩
  intro p ev hp hl
  obtain ⟨v, b, hv, hb, -⟩ := hl
  match p, hp with
  | [], hp => cases hb
  | [e], hp =>
    obtain ⟨-, hp⟩ := List.cons_prefix_cons.1 hp
    obtain ⟨rfl, -⟩ := List.cons_prefix_cons.1 hp
    cases hv
  | e :: e' :: p, hp =>
    have := hp.length_le
    simp [evs] at this

/-- **A late delivery for a wait that is over decides the next one of its token**, which has not its address: the wait
was registered with an alias and decided, its token is registered again without one, and the alias still leads there. -/
theorem left_over_alias_decides :
    let t : Token := default
    let a : Token := ⟨"a", by decide⟩
    let yes : Decision := ⟨a, .null, .approved, none, .epoch⟩
    let first : Wait := { Wait.start t default .epoch with aliasToken := some a }
    let second : Wait := Wait.start t ⟨.numbered 2⟩ .epoch
    let g := empty.run [.call (.register first), .call (.resolve a yes), .call (.register second)]
    g.records.get? t = some (fresh second) ∧ ¬(fresh second).HasAddress a ∧
      (g.resolve a yes).1 = .resolved second.execution yes ∧ ¬g.Isolated := by
  intro t a yes first second g
  have hg : g.records.get? t = some (fresh second) := by decide
  have hna : ¬(fresh second).HasAddress a := fun h => by
    rcases h with h | h
    · revert h
      decide
    · cases h
  exact ⟨hg, hna, by decide, not_isolated (by decide) (by decide) hg rfl hna⟩

end Registry
end ApprovalGate
