import ApprovalGate.Proofs.Registry.Operation
import ApprovalGate.Proofs.Store
/-!
# Sound registries

What holds of every registry that a run leads to, whatever its store does: no index has a token twice, each record is
kept under its own token, none is cancelled, and every alias leads to a record (`Reachable.sound`).
-/
namespace ApprovalGate.Registry

structure Sound (g : Registry) : Prop extends Distinct g where
  keyed : ∀ {t r}, g.records.get? t = some r → r.token = t
  live : ∀ {t r}, g.records.get? t = some r → r.status ≠ .cancelled
  led : ∀ {a t}, g.aliases.get? a = some t → ∃ r, g.records.get? t = some r

/-- What an operation can do to a registry: nothing, or nothing but to a store that turns a registration down, or
something to one record, or take some away, or else take one up. -/
inductive Effect (g : Registry) : Option Wait → Registry → Prop where
  | kept : Effect g none g
  | refused {w : Wait} {f : Failure} {store : Store} : g.store.put (fresh w) = (.error f, store) →
      Effect g none { g with store }
  | amends {t : Token} {r r' : WaitRecord} : g.records.get? t = some r → Amends r r' → Effect g none (g.save t r')
  | forgets (ts : List Token) : Effect g none (g.dropAll ts)
  | registers {w : Wait} {store : Store} : (∀ r, g.records.get? w.token = some r → r.isPending = false) →
      g.store.put (fresh w) = (.ok (), store) → Effect g (some w) (g.takeUp w store).2

/-! ## Distinct tokens -/

theorem Distinct.save {g : Registry} (d : g.Distinct) (t : Token) (r : WaitRecord) : (g.save t r).Distinct :=
  ⟨d.records.insert t r, d.jobs, d.aliases⟩

theorem Distinct.dropAll {g : Registry} (d : g.Distinct) (ts : List Token) : (g.dropAll ts).Distinct where
  records := dropAll_records g ts ▸ Table.Distinct.foldl_erase ts d.records
  jobs := dropAll_jobs g ts ▸ d.jobs.filter _
  aliases := dropAll_aliases g ts ▸ d.aliases.filter _

theorem Distinct.takeJob? {g : Registry} (d : g.Distinct) (job? : Option JobId) (t : Token) :
    (g.takeJob? job? t).2.Distinct := by
  cases job? with
  | none => exact d
  | some job =>
    rcases takeJob_cases g job t with ⟨-, heq⟩ | ⟨p, r, -, -, -, -, heq⟩
    · rw [Registry.takeJob?, heq]
      exact ⟨d.records, d.jobs.insert _ _, d.aliases⟩
    · rw [Registry.takeJob?, heq]
      exact ⟨d.records.erase p, d.jobs.insert _ _, d.aliases.filter _⟩

theorem Distinct.lead {g : Registry} (d : g.Distinct) (a? : Option Token) (t : Token) : (g.lead a? t).Distinct := by
  cases a? with
  | none => exact d
  | some a =>
    rw [Registry.lead]
    split
    · exact d
    · exact ⟨d.records, d.jobs, d.aliases.insert _ _⟩

theorem Distinct.takeUp {g : Registry} (d : g.Distinct) (w : Wait) (store : Store) : (g.takeUp w store).2.Distinct := by
  have d' : Distinct { g with store, records := g.records.insert w.token (fresh w) } :=
    ⟨d.records.insert _ _, d.jobs, d.aliases⟩
  exact (d'.takeJob? w.job w.token).lead w.aliasToken w.token

/-! ## One operation -/

theorem find?_records {g : Registry} {x t : Token} {r : WaitRecord} (h : g.find? x = some (t, r)) :
    g.records.get? t = some r := (find?_eq_some.1 h).1

theorem register_effect (g : Registry) (w : Wait) : Effect g (g.taken? (.call (.register w))) (g.register w).2 := by
  rw [taken?]
  rcases register_cases g w with ⟨r, -, -, heq⟩ | ⟨f, store, hput, heq⟩ | ⟨store, hv, hput, heq⟩
  · rw [heq]
    exact .kept
  · rw [heq]
    exact .refused hput
  · rw [heq]
    exact .registers hv hput

theorem Effect.unless_nil (g : Registry) (ts : List Token) :
    Effect g none (if ts.isEmpty then g else g.dropAll ts) := by
  split
  · exact .kept
  · exact .forgets ts

/-- **Every operation has one of the five effects.** -/
theorem perform_effect (g : Registry) (op : Operation) : Effect g (g.taken? (.call op)) (g.perform op) := by
  cases op with
  | register w => exact register_effect g w
  | resolve x dec =>
    show Effect g none (g.resolve x dec).2
    rcases resolve_cases g x dec with ⟨t, r, hx, hp, hv, heq⟩ | ⟨t, r, hx, hp, -, heq⟩ | ⟨t, r, -, -, heq⟩ | ⟨-, heq⟩
    · rw [heq]
      exact .amends (find?_records hx) (.resolved dec hp hv)
    · rw [heq]
      exact .amends (find?_records hx) (.noted dec hp)
    · rw [heq]
      exact .kept
    · rw [heq]
      exact .kept
  | noteUpdate x dec =>
    show Effect g none (g.noteUpdate x dec).2
    rcases noteUpdate_cases g x dec with ⟨t, r, hx, hp, heq⟩ | ⟨t, r, -, -, heq⟩ | ⟨-, heq⟩
    · rw [heq]
      exact .amends (find?_records hx) (.noted dec hp)
    · rw [heq]
      exact .kept
    · rw [heq]
      exact .kept
  | expire x now =>
    show Effect g none (g.expire x now).2
    rcases expire_cases g x now with ⟨t, r, hx, hp, heq⟩ | ⟨t, r, -, -, heq⟩ | ⟨-, heq⟩
    · rw [heq]
      exact .amends (find?_records hx) (.expired now hp)
    · rw [heq]
      exact .kept
    · rw [heq]
      exact .kept
  | cancel e => exact .unless_nil g _
  | remove t =>
    show Effect g none (g.remove t).2
    rcases remove_cases g t with ⟨r, -, heq⟩ | ⟨-, heq⟩
    · rw [heq]
      exact .forgets [t]
    · rw [heq]
      exact .kept
  | takeDecision x =>
    show Effect g none (g.takeDecision x).2
    rcases takeDecision_cases g x with ⟨t, r, dec, hx, hd, -, heq⟩ | ⟨-, heq⟩
    · rw [heq]
      exact .amends (find?_records hx) (.delivered dec hd)
    · rw [heq]
      exact .kept
  | markDelivered x =>
    show Effect g none (g.markDelivered x)
    rcases markDelivered_cases g x with ⟨t, r, dec, hx, hd, heq⟩ | heq
    · rw [heq]
      exact .amends (find?_records hx) (.delivered dec hd)
    · rw [heq]
      exact .kept
  | sweep now => exact .unless_nil g _

/-! ## Soundness -/

theorem Amends.token {r r' : WaitRecord} (h : Amends r r') : r'.token = r.token := by cases h <;> rfl

theorem Amends.aliasToken {r r' : WaitRecord} (h : Amends r r') : r'.wait.aliasToken = r.wait.aliasToken := by
  cases h <;> rfl

theorem Amends.execution {r r' : WaitRecord} (h : Amends r r') : r'.wait.execution = r.wait.execution := by
  cases h <;> rfl

theorem Amends.of_pending {r r' : WaitRecord} (h : Amends r r') (hp : r'.isPending = true) : r.isPending = true := by
  cases h with
  | noted d hr => exact hr
  | resolved d hr _ => exact hr
  | expired now hr => exact hr
  | delivered d _ => exact hp

theorem Amends.status_ne {r r' : WaitRecord} (h : Amends r r') (hr : r.status ≠ .cancelled) :
    r'.status ≠ .cancelled := by
  cases h with
  | noted d _ => exact hr
  | resolved d _ _ => exact fun h => by cases h
  | expired now _ => exact fun h => by cases h
  | delivered d _ => exact hr

theorem save_get? (g : Registry) (t u : Token) (r : WaitRecord) :
    (g.save t r).records.get? u = if t = u then some r else g.records.get? u := Table.get?_insert _ _ _ _

/-- The store has no part in it. -/
theorem Sound.restock {g : Registry} (s : g.Sound) (store : Store) : Sound { g with store } :=
  ⟨⟨s.records, s.jobs, s.aliases⟩, s.keyed, s.live, s.led⟩

theorem Effect.sound {g h : Registry} {w? : Option Wait} (s : g.Sound) (e : Effect g w? h) : h.Sound := by
  cases e with
  | kept => exact s
  | refused _ => exact s.restock _
  | @amends t r r' ht ha =>
    refine ⟨s.toDistinct.save t r', fun {u q} hu => ?_, fun {u q} hu => ?_, fun {a u} hu => ?_⟩
    · rw [save_get?] at hu
      split at hu
      · rename_i htu
        cases hu
        rw [ha.token, s.keyed ht, htu]
      · exact s.keyed hu
    · rw [save_get?] at hu
      split at hu
      · cases hu
        exact ha.status_ne (s.live ht)
      · exact s.live hu
    · obtain ⟨q, hq⟩ := s.led hu
      rw [save_get?]
      split
      · exact ⟨r', rfl⟩
      · exact ⟨q, hq⟩
  | forgets ts =>
    have f := forgets_dropAll s.toDistinct ts
    refine ⟨s.toDistinct.dropAll ts, fun {u q} hu => ?_, fun {u q} hu => ?_, fun {a u} hu => ?_⟩
    · rw [f.records] at hu
      split at hu
      · cases hu
      · exact s.keyed hu
    · rw [f.records] at hu
      split at hu
      · cases hu
      · exact s.live hu
    · obtain ⟨hu, hn⟩ := (f.aliases a u).1 hu
      rw [f.records, if_neg hn]
      exact s.led hu
  | @registers w store hv _ =>
    have rg := registers_takeUp s.toDistinct hv store
    refine ⟨s.toDistinct.takeUp w store, fun {u q} hu => ?_, fun {u q} hu => ?_, fun {a u} hu => ?_⟩
    · rw [rg.records] at hu
      split at hu
      · rename_i hw
        cases hu
        exact hw.symm
      · split at hu
        · cases hu
        · exact s.keyed hu
    · rw [rg.records] at hu
      split at hu
      · cases hu
        exact fun h => by cases h
      · split at hu
        · cases hu
        · exact s.live hu
    · rw [rg.aliases] at hu
      split at hu
      · subst hu
        exact ⟨_, by rw [rg.records, if_pos rfl]⟩
      · rw [rg.records]
        split
        · exact ⟨_, rfl⟩
        · rw [if_neg hu.2]
          exact s.led hu.1

theorem Sound.happen {g : Registry} (s : g.Sound) (ev : Event) : (g.happen ev).Sound := by
  cases ev with
  | restock store => exact s.restock store
  | call op => exact (perform_effect g op).sound s

theorem Sound.run {g : Registry} (s : g.Sound) : ∀ evs : List Event, (g.run evs).Sound
  | [] => s
  | ev :: evs => (s.happen ev).run evs

/-! ## Opening -/

theorem adopt_records (g : Registry) (r : WaitRecord) : (g.adopt r).records = g.records.insert r.token r := rfl

theorem adopt_aliases (g : Registry) (r : WaitRecord) (a : Token) : (g.adopt r).aliases.get? a =
    if r.wait.aliasToken = some a then some r.token else g.aliases.get? a := by
  rw [adopt]
  cases r.wait.aliasToken with
  | none => rfl
  | some b =>
    show (g.aliases.insert b r.token).get? a = _
    rw [Table.get?_insert]
    simp only [Option.some.injEq]

theorem adopt_sound {g : Registry} (s : g.Sound) {r : WaitRecord} (hr : r.status ≠ .cancelled) : (g.adopt r).Sound := by
  have hrec : ∀ u, (g.adopt r).records.get? u = if r.token = u then some r else g.records.get? u := fun u =>
    Table.get?_insert _ _ _ _
  have hjobs : (g.adopt r).jobs.Distinct := by
    rw [adopt]
    cases r.wait.job with
    | none => exact s.jobs
    | some job =>
      simp only
      split
      · exact s.jobs.insert _ _
      · exact s.jobs
  have haliases : (g.adopt r).aliases.Distinct := by
    rw [adopt]
    cases r.wait.aliasToken with
    | none => exact s.aliases
    | some a => exact s.aliases.insert _ _
  refine ⟨⟨s.records.insert _ _, hjobs, haliases⟩, fun {u q} hu => ?_, fun {u q} hu => ?_, fun {a u} hu => ?_⟩
  · rw [hrec] at hu
    split at hu
    · rename_i htu
      cases hu
      exact htu
    · exact s.keyed hu
  · rw [hrec] at hu
    split at hu
    · cases hu
      exact hr
    · exact s.live hu
  · rw [hrec]
    rw [adopt_aliases] at hu
    split at hu
    · cases hu
      exact ⟨r, if_pos rfl⟩
    · split
      · exact ⟨r, rfl⟩
      · exact s.led hu

theorem adoptAll_sound : ∀ (rs : List WaitRecord) {g : Registry}, g.Sound → (g.adoptAll rs).2.Sound
  | [], g, s => s
  | r :: rs, g, s => by
    rw [adoptAll]
    split
    · cases hd : g.store.delete r.token with
      | mk result store =>
        cases result with
        | error f => exact s.restock store
        | ok _ => exact adoptAll_sound rs (s.restock store)
    · rename_i hr
      exact adoptAll_sound rs (adopt_sound s hr)

theorem sound_of_empty (store : Store) (ttl : Span) :
    Sound ⟨Table.empty, Table.empty, Table.empty, store, ttl⟩ where
  records := Table.distinct_empty
  jobs := Table.distinct_empty
  aliases := Table.distinct_empty
  keyed h := by cases h
  live h := by cases h
  led h := by cases h

theorem openStore_of_load {store : Store} {happens : TokenOrder} {rs : List WaitRecord}
    (h : store.load happens = .ok rs) (ttl : Span) : openStore store ttl happens = openListed store ttl rs := by
  rw [openStore, h]

theorem openStore_ok {store : Store} {ttl : Span} {happens : TokenOrder} {g : Registry}
    (h : openStore store ttl happens = (.ok (), g)) : store.refuses.load = false ∧
      openListed store ttl (store.records.sortedBy (store.listing happens)) = (.ok (), g) := by
  cases hl : store.load happens with
  | error f =>
    rw [openStore, hl] at h
    cases h
  | ok rs =>
    obtain ⟨loads, rfl⟩ := Store.load_eq_ok.1 hl
    exact ⟨loads, openStore_of_load hl ttl ▸ h⟩

theorem openStore_sound {store : Store} {ttl : Span} {happens : TokenOrder} {g : Registry}
    (h : openStore store ttl happens = (.ok (), g)) : g.Sound := by
  have := adoptAll_sound (store.records.sortedBy (store.listing happens)) (sound_of_empty store ttl)
  rw [← openListed, (openStore_ok h).2] at this
  exact this

/-- **Every registry that a run leads to is sound.** -/
theorem Reachable.sound {g : Registry} (h : Reachable g) : g.Sound := by
  induction h with
  | opened ho => exact openStore_sound ho
  | happen ev _ ih => exact ih.happen ev

theorem openStore_empty {store : Store} (hl : store.refuses.load = false) (he : store.records = Table.empty)
    (ttl : Span) (happens : TokenOrder) :
    openStore store ttl happens = (.ok (), ⟨Table.empty, Table.empty, Table.empty, store, ttl⟩) := by
  have loads : store.load happens = .ok [] := Store.load_eq_ok.2 ⟨hl, by rw [he]; exact List.mergeSort_nil.symm⟩
  rw [openStore_of_load loads]
  rfl

theorem openStore_single {store : Store} (hl : store.refuses.load = false) {t : Token} {r : WaitRecord}
    (he : store.records = ⟨[(t, r)]⟩) (hr : r.status ≠ .cancelled) (ttl : Span) (happens : TokenOrder) :
    openStore store ttl happens = (.ok (), adopt ⟨Table.empty, Table.empty, Table.empty, store, ttl⟩ r) := by
  have loads : store.load happens = .ok [r] :=
    Store.load_eq_ok.2 ⟨hl, by rw [he]; exact (List.mergeSort_singleton r).symm⟩
  rw [openStore_of_load loads, openListed, adoptAll, if_neg hr, adoptAll]

theorem openStore_memory (happens : TokenOrder) : openStore .memory defaultTtl happens = (.ok (), empty) :=
  openStore_empty rfl rfl defaultTtl happens

theorem reachable_empty : Reachable empty := .opened (openStore_memory .byText)

end ApprovalGate.Registry
