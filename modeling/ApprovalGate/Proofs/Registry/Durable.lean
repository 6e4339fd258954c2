import ApprovalGate.Proofs.Registry.Adopted
import ApprovalGate.Proofs.Store.Reopen
/-!
# What survives of a registry

Over a store that makes every change asked of it, the store holds after each operation just the records that the
registry holds (`Effect.mirrors`), and its file has the snapshot of them.  So a registry that is opened between any two
operations, on the store itself or on what is read anew from its file, has all of them again
(`store_mirrors_registry`).
-/
namespace ApprovalGate.Registry

/-- A store that was another one at first and has made every change since: it makes the next ones too, and unless it is
still as it was its file holds the snapshot of its records. -/
structure Backed (origin s : Store) : Prop where
  made : s.Made
  reliable : s.Reliable
  loads : s.refuses.load = false
  saved : s = origin ∨ s.Saved

/-- A registry whose store holds the same records. -/
structure Mirrors (origin : Store) (g : Registry) : Prop extends Backed origin g.store where
  held : ∀ t, g.store.records.get? t = g.records.get? t

theorem Backed.put {origin s : Store} (b : Backed origin s) (r : WaitRecord) :
    (s.put r).1 = .ok () ∧ Backed origin (s.put r).2 := by
  obtain ⟨hok, hrel⟩ := b.reliable.write (.put r)
  refine ⟨hok, b.made.put r, hrel, ?_, .inr (Store.put_ok hok).2⟩
  rw [Store.put_refuses]
  exact b.loads

theorem Backed.delete {origin s : Store} (b : Backed origin s) (t : Token) :
    (s.delete t).1 = .ok () ∧ Backed origin (s.delete t).2 := by
  obtain ⟨hok, hrel⟩ := b.reliable.write (.delete t)
  refine ⟨hok, b.made.delete t, hrel, ?_, ?_⟩
  · rw [Store.delete_refuses]
    exact b.loads
  · rcases (Store.delete_ok hok).2 with h | h
    · rw [h]
      exact b.saved
    · exact .inr h

/-! ## Operations -/

theorem Mirrors.save {origin : Store} {g : Registry} (m : Mirrors origin g) {t : Token} {r : WaitRecord}
    (hr : r.token = t) : Mirrors origin (g.save t r) := by
  obtain ⟨hok, b⟩ := m.toBacked.put r
  refine ⟨b, fun u => ?_⟩
  show (g.store.put r).2.records.get? u = (g.records.insert t r).get? u
  rw [(Store.put_ok hok).1, hr, Table.get?_insert, Table.get?_insert, m.held]

theorem Mirrors.dropRecord {origin : Store} {g : Registry} (m : Mirrors origin g) (t : Token) :
    Mirrors origin (g.dropRecord t) := by
  obtain ⟨hok, b⟩ := m.toBacked.delete t
  refine ⟨b, fun u => ?_⟩
  show (g.store.delete t).2.records.get? u = (g.records.erase t).get? u
  rw [(Store.delete_ok hok).1, Table.get?_erase, m.held]

theorem Mirrors.dropAll {origin : Store} {g : Registry} (m : Mirrors origin g) (ts : List Token) :
    Mirrors origin (g.dropAll ts) := by
  have h : ∀ ts : List Token, ∀ {g : Registry}, Mirrors origin g → Mirrors origin (ts.foldl Registry.dropRecord g) := by
    intro ts
    induction ts with
    | nil => exact id
    | cons t ts ih => exact fun m => ih (m.dropRecord t)
  exact ⟨(h ts m).toBacked, (h ts m).held⟩

theorem Mirrors.takeUp {origin : Store} {g : Registry} (m : Mirrors origin g) {w : Wait} {store : Store}
    (hput : g.store.put (fresh w) = (.ok (), store)) : Mirrors origin (g.takeUp w store).2 := by
  have hsave : Mirrors origin { g with store, records := g.records.insert w.token (fresh w) } := by
    have := m.save (r := fresh w) (show (fresh w).token = w.token from rfl)
    rw [Registry.save, hput] at this
    exact this
  have hjob : Mirrors origin
      ({ g with store, records := g.records.insert w.token (fresh w) }.takeJob? w.job w.token).2 := by
    cases w.job with
    | none => exact hsave
    | some job =>
      rcases takeJob_cases { g with store, records := g.records.insert w.token (fresh w) } job w.token with
        ⟨-, heq⟩ | ⟨p, r, -, -, -, -, heq⟩
      · rw [takeJob?, heq]
        exact ⟨hsave.toBacked, hsave.held⟩
      · rw [takeJob?, heq]
        exact ⟨(hsave.dropRecord p).toBacked, (hsave.dropRecord p).held⟩
  refine ⟨?_, fun t => ?_⟩
  · rw [Registry.takeUp, lead_store]
    exact hjob.toBacked
  · rw [Registry.takeUp, lead_store, lead_records]
    exact hjob.held t

/-- **Whatever an operation does to the records it does to the store.** -/
theorem Effect.mirrors {origin : Store} {g h : Registry} {w? : Option Wait} (s : g.Sound) (m : Mirrors origin g)
    (e : Effect g w? h) : Mirrors origin h := by
  cases e with
  | kept => exact m
  | @refused w f store hput =>
    have hok := (m.toBacked.put (fresh w)).1
    rw [hput] at hok
    cases hok
  | amends ht ha => exact m.save (ha.token.trans (s.keyed ht))
  | forgets ts => exact m.dropAll ts
  | registers _ hput => exact m.takeUp hput

theorem mirrors_run {origin : Store} : ∀ (ops : List Operation) {g : Registry}, g.Sound → Mirrors origin g →
    Mirrors origin (g.run (ops.map .call))
  | [], _, _, m => m
  | op :: ops, g, s, m => mirrors_run ops (s.happen (.call op)) ((perform_effect g op).mirrors s m)

/-! ## Opening -/

theorem Backed.without {origin s : Store} (b : Backed origin s) : ∀ ts : List Token, Backed origin (s.without ts)
  | [] => by
    rw [Store.without_nil]
    exact b
  | t :: ts => by
    obtain ⟨hok, b'⟩ := b.delete t
    rw [Store.delete_eq_without hok] at b'
    have := b'.without ts
    rwa [Store.without_without, List.singleton_append] at this

/-- **Opening a store** that loads and makes every change goes through, and gives the registry of all its records but
the cancelled ones. -/
theorem openStore_mirrors {store : Store} (hm : store.Made) (hr : store.Reliable) (hl : store.refuses.load = false)
    (ttl : Span) (happens : TokenOrder) : ∃ g, openStore store ttl happens = (.ok (), g) ∧ Mirrors store g ∧
      ∀ t, g.records.get? t = (store.records.get? t).filter fun r => decide (r.status ≠ .cancelled) := by
  let rs := store.records.sortedBy (store.listing happens)
  have hok : (openListed store ttl rs).1 = .ok () :=
    (openListed_ok_iff _ _ _).2 fun t _ => (hr.write (.delete t)).1
  obtain ⟨g, ho⟩ : ∃ g, openListed store ttl rs = (.ok (), g) := ⟨_, Prod.ext hok rfl⟩
  have a : Adopted (fun _ _ => True) (live rs) g := adopted_of_openListed (fun _ => trivial)
    (Records.nodup_sortedBy hm.sound _) (List.pairwise_of_forall fun _ _ => trivial) ho
  have hstore := (openListed_rest ho).1
  have listed {t r} : r ∈ rs ∧ r.token = t ↔ store.records.get? t = some r :=
    Records.mem_sortedBy_iff_get? hm.sound
  have hrec : ∀ t, g.records.get? t = (store.records.get? t).filter fun r => decide (r.status ≠ .cancelled) := fun t =>
    Option.ext fun r => by
      rw [a.records, mem_live, Option.filter_eq_some_iff, decide_eq_true_eq, ← listed]
      exact and_right_comm
  refine ⟨g, ?_, ⟨?_, fun t => ?_⟩, hrec⟩
  · rw [openStore_of_load (Store.load_eq_ok.2 ⟨hl, rfl⟩), ho]
  · rw [hstore]
    exact Backed.without ⟨hm, hr, hl, .inl rfl⟩ _
  · -- what is gone from the store is what was not taken up
    rw [hstore, Store.records_without, Records.get?_without hm.sound.distinct, hrec]
    cases hx : store.records.get? t with
    | none => exact ite_self none
    | some r =>
      have hmem : t ∈ cancelled rs ↔ r.status = .cancelled := by
        rw [mem_cancelled]
        constructor
        · rintro ⟨q, hq, hc, hqt⟩
          cases hx.symm.trans (listed.1 ⟨hq, hqt⟩)
          exact hc
        · exact fun hc => ⟨r, (listed.2 hx).1, hc, (listed.2 hx).2⟩
      rw [Option.filter_some]
      simp only [hmem, decide_not, Bool.not_eq_true', decide_eq_false_iff_not, ite_not]

/-- A store that has the records of a registry is opened as a registry of them. -/
theorem opens_same {s : Store} {g : Registry} (sound : g.Sound) (made : s.Made) (reliable : s.Reliable)
    (loads : s.refuses.load = false) (same : ∀ t, s.records.get? t = g.records.get? t) (ttl : Span)
    (happens : TokenOrder) :
    ∃ h, openStore s ttl happens = (.ok (), h) ∧ ∀ t, h.records.get? t = g.records.get? t := by
  obtain ⟨h, ho, -, hrec⟩ := openStore_mirrors made reliable loads ttl happens
  refine ⟨h, ho, fun t => ?_⟩
  rw [hrec, same]
  cases hx : g.records.get? t with
  | none => rfl
  | some r => rw [Option.filter_some, if_pos (decide_eq_true (sound.live hx))]

theorem openStore_mirrored {store : Store} (hm : store.Made) (hr : store.Reliable) {ttl : Span} {happens : TokenOrder}
    {g : Registry} (ho : openStore store ttl happens = (.ok (), g)) (ops : List Operation) :
    Mirrors store (g.run (ops.map .call)) := by
  obtain ⟨g', ho', m, -⟩ := openStore_mirrors hm hr (openStore_ok ho).1 ttl happens
  cases ho.symm.trans ho'
  exact mirrors_run ops (openStore_sound ho) m

/-- **A registry and its store hold the same**: whatever runs on a store that makes every change, the store has the
records of the registry, it loads them all, its file has the snapshot of them once anything was written, and a registry
opened on it at any time has the same ones.  So has one that is opened after a crash, when the file is read anew:
memory outlives the crash, and a file is read if what is in it is shallow. -/
theorem store_mirrors_registry {store : Store} (hm : store.Made) (hr : store.Reliable) {ttl : Span}
    {happens : TokenOrder} {g : Registry} (ho : openStore store ttl happens = (.ok (), g)) (ops : List Operation) :
    let h := g.run (ops.map .call)
    (∀ t, h.store.records.get? t = h.records.get? t) ∧
      (∀ happens', h.store.load happens' = .ok (h.records.sortedBy (h.store.listing happens'))) ∧
      (h.store = store ∨ h.store.Saved) ∧
      (∀ ttl' happens', ∃ h', openStore h.store ttl' happens' = (.ok (), h') ∧
        ∀ t, h'.records.get? t = h.records.get? t) ∧
      (h.store.InMemory ∨ (∀ r ∈ h.records.sorted, r.Held ∧ r.Steady ∧ r.Shallow) →
        ∃ s, h.store.reopen = .ok s ∧ ∀ ttl' happens', ∃ h', openStore s ttl' happens' = (.ok (), h') ∧
          ∀ t, h'.records.get? t = h.records.get? t) := by
  intro h
  have s : h.Sound := (openStore_sound ho).run _
  have m : Mirrors store h := openStore_mirrored hm hr ho ops
  have hs : Records.Sound h.records := ⟨s.records, s.keyed⟩
  refine ⟨m.held, fun happens' => ?_, m.saved, opens_same s m.made m.reliable m.loads m.held, fun shallow => ?_⟩
  · rw [Store.load_eq_ok, Records.sortedBy_congr m.made.sound hs m.held]
    exact ⟨m.loads, rfl⟩
  · rw [← Records.sorted_congr m.made.sound hs m.held] at shallow
    obtain ⟨s', again⟩ := m.made.again m.reliable shallow
    refine ⟨s', again.opens, opens_same s again.made (again.reliable m.reliable) (again.refuses ▸ m.loads) fun t => ?_⟩
    rw [Records.get?_of_sorted again.made.sound m.made.sound again.records, m.held]

/-- A decision on a wait in a new snapshot file, which is there when the file is read anew. -/
theorem decision_kept_in_file :
    let store : Store := ⟨.file "waits.json" Table.empty .empty, {}⟩
    let w := Wait.start default default .epoch
    let yes : Decision := ⟨default, .null, .approved, none, .epoch⟩
    let ops : List Operation := [.register w, .resolve w.token yes]
    let h := run ⟨Table.empty, Table.empty, Table.empty, store, defaultTtl⟩ (ops.map .call)
    (h.records.get? w.token).bind WaitRecord.decision = some yes ∧ (h.store = store ∨ h.store.Saved) ∧
      ∃ s h', h.store.reopen = .ok s ∧ openStore s defaultTtl .byText = (.ok (), h') ∧
        (h'.records.get? w.token).bind WaitRecord.decision = some yes := by
  intro store w yes ops h
  have made : store.Made := .file _ (show Store.openFile "waits.json" .empty = .ok store.medium from rfl)
  have reliable : store.Reliable :=
    Store.reliable_of_writable ⟨rfl, rfl⟩ rfl ⟨by decide, by decide, by decide⟩
  have hyes : (h.records.get? w.token).bind WaitRecord.decision = some yes := by decide
  let q : WaitRecord := { (fresh w).finish .resolved .epoch with decision := some yes }
  have flat : q.Held ∧ q.Steady ∧ q.Shallow := by
    have payload : ∀ d, q.decision = some d ∨ q.lastUpdate = some d → d.payload = .null := by
      rintro d (hd | hd) <;> cases hd
      rfl
    have every {M P : Json → Prop} (hM : M .null) (hP : P .null) : q.Carries M P :=
      ⟨hM, fun d hd => (payload d hd).symm ▸ hP⟩
    exact ⟨every ⟨rfl, trivial⟩ ⟨rfl, trivial⟩, every trivial trivial, every (by decide) (by decide)⟩
  have only : ∀ r ∈ h.records.sorted, r = q := by
    have records : h.records = ⟨[(w.token, q)]⟩ := by decide
    rw [records]
    exact fun r hr => List.mem_singleton.1 (List.mem_mergeSort.1 hr)
  obtain ⟨-, -, hsaved, -, hopen⟩ :=
    store_mirrors_registry made reliable (openStore_empty rfl rfl defaultTtl .byText) ops
  obtain ⟨s, again, hopen⟩ := hopen (.inr fun r hr => only r hr ▸ flat)
  obtain ⟨h', heq, hget⟩ := hopen defaultTtl .byText
  exact ⟨hyes, hsaved, s, h', again, heq, by rw [hget]; exact hyes⟩

end ApprovalGate.Registry
