import ApprovalGate.Proofs.Registry.Durable
import ApprovalGate.Proofs.Registry.Records
import ApprovalGate.Proofs.Store.Reopen
/-!
# Opening the file of a registry again

A registry that ran on a file can be opened on it again as long as its records are shallow, and then it finds the same
records; with a record that is not, the file is corrupt (`reopen_run`).  What comes in with the operations has to be
held as values are, and what was found in the file at first is.  A record that was put on a file that takes every change
is there again (`reopens_put`), and so is one whose registration had failed before
(`failed_registration_reappears`).
-/
namespace ApprovalGate.Registry

/-! ## What changes leave of a store -/

section Deletions

variable {P : Store → Prop} (hd : ∀ s t, P s → P (s.delete t).2)
include hd

theorem dropAll_deletes (ts : List Token) {g : Registry} (h : P g.store) : P (g.dropAll ts).store := by
  have all : ∀ (ts : List Token) {g : Registry}, P g.store → P (ts.foldl Registry.dropRecord g).store := by
    intro ts
    induction ts with
    | nil => exact id
    | cons t ts ih => exact fun h => ih (hd _ t h)
  exact all ts h

theorem takeUp_deletes {g : Registry} (w : Wait) {store : Store} (h : P store) : P (g.takeUp w store).2.store := by
  rw [Registry.takeUp, lead_store]
  cases w.job with
  | none => exact h
  | some job =>
    rcases takeJob_cases { g with store, records := g.records.insert w.token (fresh w) } job w.token with
      ⟨-, heq⟩ | ⟨p, r, -, -, -, -, heq⟩
    · rw [takeJob?, heq]
      exact h
    · rw [takeJob?, heq]
      exact hd _ p h

theorem adoptAll_deletes : ∀ (rs : List WaitRecord) {g : Registry}, P g.store → P (g.adoptAll rs).2.store
  | [], _, h => h
  | r :: rs, g, h => by
    rw [Registry.adoptAll]
    split
    · have hdel := hd g.store r.token h
      cases hres : g.store.delete r.token with
      | mk result store =>
        rw [hres] at hdel
        cases result with
        | error f => exact hdel
        | ok _ => exact adoptAll_deletes rs hdel
    · exact adoptAll_deletes rs h

/-- **What deletions keep, a registry that is opened keeps of its store**: nothing else is done to it. -/
theorem openStore_deletes {store : Store} {ttl : Span} {happens : TokenOrder} {g : Registry}
    (ho : openStore store ttl happens = (.ok (), g)) (h : P store) : P g.store := by
  have := adoptAll_deletes hd (store.records.sortedBy (store.listing happens))
    (g := ⟨Table.empty, Table.empty, Table.empty, store, ttl⟩) h
  rw [← openListed, (openStore_ok ho).2] at this
  exact this

end Deletions

/-- A property of stores that every change keeps. -/
structure Lasts (P : Store → Prop) : Prop where
  put : ∀ s r, P s → P (s.put r).2
  delete : ∀ s t, P s → P (s.delete t).2

namespace Lasts

variable {P : Store → Prop}

theorem effect (l : Lasts P) {g h : Registry} {w? : Option Wait} (e : Effect g w? h) (hg : P g.store) : P h.store := by
  cases e with
  | kept => exact hg
  | @refused w f store hput =>
    have := l.put g.store (fresh w) hg
    rw [hput] at this
    exact this
  | amends ht ha => exact l.put _ _ hg
  | forgets ts => exact dropAll_deletes l.delete ts hg
  | @registers w store hv hput =>
    have := l.put g.store (fresh w) hg
    rw [hput] at this
    exact takeUp_deletes l.delete w this

theorem run (l : Lasts P) : ∀ (ops : List Operation) {g : Registry}, P g.store → P (g.run (ops.map .call)).store
  | [], _, h => h
  | op :: ops, g, h => l.run ops (l.effect (perform_effect g op) h)

end Lasts

/-- A store that takes every change stays on its file. -/
theorem lasts_rooted (path : String) : Lasts fun s => s.Reliable ∧ s.Rooted path where
  put s r h := by
    obtain ⟨hok, hrel⟩ := h.1.write (.put r)
    exact ⟨hrel, h.2.put hok⟩
  delete s t h := by
    obtain ⟨hok, hrel⟩ := h.1.write (.delete t)
    exact ⟨hrel, h.2.delete hok⟩

/-! ## Values that come in -/

/-- An operation that brings along what has certain properties: `M` what is known of a wait, and `P` the payload of a
decision. -/
structure Operation.Carries (M P : Json → Prop) (op : Operation) : Prop where
  metadata : ∀ w, op = .register w → M w.metadata
  payload : ∀ d, op.decision? = some d → P d.payload

/-- Whether an operation brings along nothing. -/
def Operation.isBare : Operation → Bool
  | .register _ | .resolve _ _ | .noteUpdate _ _ => false
  | .expire _ _ | .cancel _ | .remove _ | .takeDecision _ | .markDelivered _ | .sweep _ => true

theorem Operation.carries_of_isBare {M P : Json → Prop} {op : Operation} (h : op.isBare = true) : op.Carries M P := by
  refine ⟨?_, fun d hd => ?_⟩
  · rintro w rfl
    cases h
  · cases op with
    | resolve _ _ => cases h
    | noteUpdate _ _ => cases h
    | _ => cases hd

theorem Amends.metadata {r r' : WaitRecord} (h : Amends r r') : r'.wait.metadata = r.wait.metadata := by
  cases h <;> rfl

theorem Operation.Carries.keeps {M P : Json → Prop} {op : Operation} (h : op.Carries M P) :
    op.Keeps (WaitRecord.Carries M P) where
  fresh w hw := ⟨h.metadata w hw, (by rintro d (hd | hd) <;> cases hd)⟩
  changed r r' b hr := by
    refine ⟨b.amends.metadata ▸ hr.metadata, ?_⟩
    rintro d (hd | hd)
    · exact (b.decision d hd).elim (fun h' => hr.payload d (.inl h')) (h.payload d)
    · exact (b.lastUpdate d hd).elim (fun h' => hr.payload d (.inr h')) (h.payload d)

/-- **What comes in has the properties, so the records have them**: with what was found at first, and what the
operations bring along. -/
theorem carries_run {M P : Json → Prop} {store : Store} {ttl : Span} {happens : TokenOrder} {g : Registry}
    (ho : openStore store ttl happens = (.ok (), g)) (found : ∀ r ∈ store.records.sorted, r.Carries M P)
    {ops : List Operation} (hops : ∀ op ∈ ops, op.Carries M P) :
    ∀ r ∈ (g.run (ops.map .call)).records.sorted, r.Carries M P := by
  have sound := openStore_sound ho
  have first : g.Forall (WaitRecord.Carries M P) :=
    openStore_forall ho fun r hr => found r (List.mem_mergeSort.2 hr)
  have all := Forall.run ops sound first fun op hop => (hops op hop).keeps
  have sound := sound.run (ops.map .call)
  exact fun r hr => all _ r ((Records.mem_sortedBy ⟨sound.records, sound.keyed⟩).1 hr)

/-! ## Opening again -/

/-- **A registry's file opens again exactly as long as the records in it are shallow.** -/
theorem reopen_run {path : String} {disk : Disk} {medium : Medium} (hm : Store.openFile path disk = .ok medium)
    (hr : Store.Reliable ⟨medium, {}⟩) {ttl : Span} {happens : TokenOrder} {g : Registry}
    (ho : openStore ⟨medium, {}⟩ ttl happens = (.ok (), g)) {ops : List Operation}
    (hops : ∀ op ∈ ops, op.Carries Json.Held Json.Held) :
    let h := g.run (ops.map .call)
    (∀ r ∈ h.records.sorted, r.Steady) →
      ((∀ r ∈ h.records.sorted, r.Shallow) →
        ∃ s, h.store.reopen = .ok s ∧ ∀ happens', s.load happens' = .ok h.records.sorted) ∧
      ((¬∀ r ∈ h.records.sorted, r.Shallow) →
        h.store.reopen = .error (.store path Snapshot.Fault.corrupt.message)) := by
  intro h hsteady
  have made : Store.Made ⟨medium, {}⟩ := .file {} hm
  have hsound := openStore_sound ho
  have sound : h.Sound := hsound.run _
  have mirrors : Mirrors ⟨medium, {}⟩ h := openStore_mirrored made hr ho ops
  have same : h.store.records.sorted = h.records.sorted :=
    Records.sorted_congr mirrors.made.sound ⟨sound.records, sound.keyed⟩ mirrors.held
  have rooted : h.store.Rooted path :=
    ((lasts_rooted path).run ops
      (openStore_deletes (lasts_rooted path).delete ho ⟨hr, Store.rooted_of_openFile hm {}⟩)).2
  have found := Store.held_of_openFile hm {}
  have held : ∀ r ∈ h.records.sorted, r.Held := carries_run ho (fun r hr => (found r hr).1) hops
  have loads : ∀ {s : Store}, s.refuses = h.store.refuses → s.listing = h.store.listing →
      s.records.sorted = h.records.sorted → ∀ happens', s.load happens' = .ok h.records.sorted := by
    intro s hs hl hrec happens'
    rw [Store.load_eq_ok, hs, hl, rooted.listing, ← hrec]
    exact ⟨mirrors.loads, rfl⟩
  rcases mirrors.saved with hstore | hsaved
  · -- nothing was written, and what was found is shallow
    have hsh : ∀ r ∈ h.records.sorted, r.Shallow := by
      rw [← same, hstore]
      exact fun r hr => (found r hr).2
    refine ⟨fun _ => ⟨_, ?_, loads rfl rfl same⟩, fun hn => absurd hsh hn⟩
    rw [hstore]
    exact Store.reopen_opened hm {}
  · rw [← same] at held hsteady
    obtain ⟨hgood, hbad⟩ := Store.reopen_saved rooted hsaved mirrors.made.sound held hsteady
    rw [same] at hgood hbad
    refine ⟨fun hsh => ?_, hbad⟩
    obtain ⟨s, again⟩ := hgood hsh
    exact ⟨s, again.opens, loads again.refuses again.listing (again.records.trans same)⟩

/-- **A record that was put on a reliable file is there when the registry is opened again**, and so are the others. -/
theorem reopens_put {path : String} {s : Store} (reliable : s.Reliable) (rooted : s.Rooted path)
    (sound : s.records.Sound) (loads : s.refuses.load = false) (r : WaitRecord)
    (all : ∀ q ∈ (s.put r).2.records.sorted, q.Held ∧ q.Steady ∧ q.Shallow) :
    ∃ s', (s.put r).2.reopen = .ok s' ∧ ∀ ttl happens, ∃ h, openStore s' ttl happens = (.ok (), h) ∧
      ∀ t q, (s.put r).2.records.get? t = some q → q.status ≠ .cancelled → h.records.get? t = some q := by
  obtain ⟨hok, reliable⟩ := reliable.write (.put r)
  obtain ⟨hs, saved⟩ := Store.put_ok hok
  have sound : (s.put r).2.records.Sound := hs ▸ sound.insert r
  obtain ⟨s', again⟩ := (Store.reopen_saved (rooted.put hok) saved sound (fun q hq => (all q hq).1)
    fun q hq => (all q hq).2.1).1 fun q hq => (all q hq).2.2
  have loads : s'.refuses.load = false := by rw [again.refuses, Store.put_refuses, loads]
  refine ⟨s', again.opens, fun ttl happens => ?_⟩
  obtain ⟨h, ho, -, hget⟩ := openStore_mirrors again.made (again.reliable reliable) loads ttl happens
  refine ⟨h, ho, fun t q hq hc => ?_⟩
  have there : q ∈ (s.put r).2.records.sorted := (Records.mem_sortedBy sound).2 (sound.keyed hq ▸ hq)
  have kept : s'.records.get? t = some q :=
    sound.keyed hq ▸ (Records.mem_sortedBy again.made.sound).1 (again.records ▸ there)
  rw [hget, kept, Option.filter_some, if_pos (decide_eq_true hc)]

theorem takeUp_store {g : Registry} {w : Wait} {store : Store} (h : (g.takeUp w store).1 = none) :
    (g.takeUp w store).2.store = store := by
  rw [takeUp] at h ⊢
  rw [lead_store]
  cases hj : w.job with
  | none => rfl
  | some job =>
    rw [hj] at h
    rcases takeJob_cases { g with store, records := g.records.insert w.token (fresh w) } job w.token with
      ⟨-, heq⟩ | ⟨p, r, -, -, -, -, heq⟩
    · rw [takeJob?, heq]
    · rw [takeJob?, heq] at h
      cases h

/-- A registration that puts an end to no wait puts its record, and that is all that it does to the store. -/
theorem register_put {g h : Registry} {w : Wait} (hr : g.register w = (.ok none, h)) :
    g.store.put (fresh w) = (.ok (), h.store) := by
  obtain ⟨store, -, hput, htaken⟩ := register_takes hr
  have same : (g.takeUp w store).2.store = store := takeUp_store (by rw [htaken])
  rw [htaken] at same
  rw [hput, same]

/-! ## After a registration that failed -/

/-- **A registration that the store fails on leaves the registry's records, but not the store's.** -/
theorem failed_registration {path : String} {copy : Records} {disk : Disk} {g g' : Registry} {w : Wait} {f : Failure}
    (hstore : g.store = ⟨.file path copy disk, {}⟩) (hn : g.records.get? w.token = none)
    (hreg : g.register w = (.error f, g')) :
    g'.records = g.records ∧ g'.store.records = copy.insert w.token (fresh w) := by
  have hput : (g.store.put (fresh w)).2.records = copy.insert w.token (fresh w) := by
    rw [hstore]
    rfl
  rw [register, hn] at hreg
  change register.store g (fresh w) = _ at hreg
  rw [register_store] at hreg
  rcases hp : g.store.put (fresh w) with ⟨result, store⟩
  rw [hp] at hreg hput
  cases result with
  | ok _ => cases hreg
  | error f' =>
    cases hreg
    exact ⟨rfl, hput⟩

/-- **A registration that failed is pending when the registry is opened again** after one more record was put on a disk
that took it. -/
theorem failed_registration_reappears {path : String} {copy : Records} {disk disk' : Disk} {g g' : Registry} {w : Wait}
    {f : Failure} (hstore : g.store = ⟨.file path copy disk, {}⟩) (hsound : copy.Sound)
    (hn : g.records.get? w.token = none) (hreg : g.register w = (.error f, g')) (hw : Store.Writable path disk')
    (hd : disk'.HasDirs (Path.ofString path).parent) {r : WaitRecord} (hne : r.token ≠ w.token) :
    let s := (Store.put ⟨.file path g'.store.records disk', {}⟩ r).2
    (∀ q ∈ s.records.sorted, q.Held ∧ q.Steady ∧ q.Shallow) →
      g'.records.get? w.token = none ∧ ∃ s', s.reopen = .ok s' ∧
        ∀ ttl happens, ∃ h, openStore s' ttl happens = (.ok (), h) ∧ h.records.get? w.token = some (fresh w) := by
  intro s hall
  obtain ⟨hrec, hcopy⟩ := failed_registration hstore hn hreg
  have reliable : Store.Reliable ⟨.file path g'.store.records disk', {}⟩ :=
    Store.reliable_of_writable ⟨rfl, rfl⟩ rfl hw
  have hs : s.records = (copy.insert w.token (fresh w)).insert r.token r :=
    hcopy ▸ (Store.put_ok (reliable.write (.put r)).1).1
  obtain ⟨s', hopen, opens⟩ := reopens_put reliable ⟨_, _, rfl, hd⟩ (hcopy ▸ hsound.insert (fresh w)) rfl r hall
  refine ⟨by rw [hrec, hn], s', hopen, fun ttl happens => ?_⟩
  obtain ⟨h, ho, found⟩ := opens ttl happens
  refine ⟨h, ho, found (fresh w).token (fresh w) ?_ nofun⟩
  show s.records.get? (fresh w).token = _
  rw [hs]
  exact (Table.get?_insert_of_ne _ _ hne).trans (Table.get?_insert_self _ _ _)

end ApprovalGate.Registry
