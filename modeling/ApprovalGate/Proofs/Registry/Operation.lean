import ApprovalGate.Proofs.Table
import ApprovalGate.Registry.Change
import ApprovalGate.Registry.Open
/-!
# What the operations of a registry do

The nine operations as data, runs of them, and one inversion lemma per operation: what it answers and what it leaves
of the records, the jobs and the aliases.  Later modules read these lemmas and do not open the operations again.

Between two operations the store may become any other one (`Event.restock`), so a run also covers stores whose writes
fail now and then.
-/
namespace ApprovalGate

@[simp] theorem WaitRecord.isPending_iff {r : WaitRecord} : r.isPending = true ↔ r.status = .pending := beq_iff_eq

namespace Registry

/-- The operations that can change a registry, with their arguments. -/
inductive Operation where
  | register (w : Wait)
  | resolve (t : Token) (d : Decision)
  | noteUpdate (t : Token) (d : Decision)
  | expire (t : Token) (now : Instant)
  | cancel (e : ExecutionId)
  | remove (t : Token)
  | takeDecision (t : Token)
  | markDelivered (t : Token)
  | sweep (now : Instant)

def perform (g : Registry) : Operation → Registry
  | .register w => (g.register w).2
  | .resolve t d => (g.resolve t d).2
  | .noteUpdate t d => (g.noteUpdate t d).2
  | .expire t now => (g.expire t now).2
  | .cancel e => (g.cancel e).2
  | .remove t => (g.remove t).2
  | .takeDecision t => (g.takeDecision t).2
  | .markDelivered t => g.markDelivered t
  | .sweep now => (g.sweep now).2

/-- What happens in a run: an operation, or a change of the store by itself. -/
inductive Event where
  | call (op : Operation)
  | restock (store : Store)

def happen (g : Registry) : Event → Registry
  | .call op => g.perform op
  | .restock store => { g with store }

/-- The wait that an event takes up: that of a registration that is accepted. -/
def taken? (g : Registry) : Event → Option Wait
  | .call (.register w) => if (g.register w).1.isOk then some w else none
  | _ => none

def run (g : Registry) (events : List Event) : Registry := events.foldl happen g

theorem run_append (g : Registry) (evs evs' : List Event) : g.run (evs ++ evs') = (g.run evs).run evs' :=
  List.foldl_append

/-- The registries that runs lead to from one that was opened on any store. -/
inductive Reachable : Registry → Prop where
  | opened {store : Store} {ttl : Span} {happens : TokenOrder} {g : Registry} :
    openStore store ttl happens = (.ok (), g) → Reachable g
  | happen {g : Registry} (ev : Event) : Reachable g → Reachable (g.happen ev)

theorem Reachable.run {g : Registry} (h : Reachable g) : ∀ evs : List Event, Reachable (g.run evs)
  | [] => h
  | ev :: evs => (h.happen ev).run evs

/-! ## Looking up -/

/-- **An address leads to a record that is its own, or else to the one it is an alias of.** -/
theorem find?_eq_some {g : Registry} {x t : Token} {r : WaitRecord} : g.find? x = some (t, r) ↔
    g.records.get? t = some r ∧ (x = t ∨ g.records.get? x = none ∧ g.aliases.get? x = some t) := by
  rw [find?]
  cases hx : g.records.get? x with
  | some q =>
    constructor
    · intro h
      cases h
      exact ⟨hx, .inl rfl⟩
    · rintro ⟨ht, rfl | ⟨hn, -⟩⟩
      · rw [hx] at ht
        rw [Option.some.inj ht]
      · cases hn
  | none =>
    cases ha : g.aliases.get? x with
    | none =>
      constructor
      · intro h
        cases h
      · rintro ⟨ht, rfl | ⟨-, h⟩⟩
        · rw [hx] at ht
          cases ht
        · cases h
    | some u =>
      simp only [Option.map_eq_some_iff, Prod.mk.injEq]
      constructor
      · rintro ⟨q, hq, rfl, rfl⟩
        exact ⟨hq, .inr ⟨trivial, rfl⟩⟩
      · rintro ⟨ht, rfl | ⟨-, h⟩⟩
        · rw [hx] at ht
          cases ht
        · cases h
          exact ⟨r, ht, rfl, rfl⟩

/-! ## Parts of a change -/

theorem foldl_dropRecord (ts : List Token) : ∀ g : Registry,
    (ts.foldl dropRecord g).records = ts.foldl Table.erase g.records ∧
    (ts.foldl dropRecord g).jobs = g.jobs ∧ (ts.foldl dropRecord g).aliases = g.aliases := by
  induction ts with
  | nil => exact fun g => ⟨rfl, rfl, rfl⟩
  | cons t ts ih =>
    intro g
    obtain ⟨h1, h2, h3⟩ := ih (g.dropRecord t)
    exact ⟨h1, h2, h3⟩

theorem dropAll_records (g : Registry) (ts : List Token) : (g.dropAll ts).records = ts.foldl Table.erase g.records :=
  (foldl_dropRecord ts g).1

theorem dropAll_jobs (g : Registry) (ts : List Token) :
    (g.dropAll ts).jobs = g.jobs.filter fun _ t => decide (t ∉ ts) :=
  congrArg (Table.filter · fun _ t => decide (t ∉ ts)) (foldl_dropRecord ts g).2.1

theorem dropAll_aliases (g : Registry) (ts : List Token) :
    (g.dropAll ts).aliases = g.aliases.filter fun _ t => decide (t ∉ ts) :=
  congrArg (Table.filter · fun _ t => decide (t ∉ ts)) (foldl_dropRecord ts g).2.2

/-- What is left of a registry that forgets the records under some tokens. -/
structure Forgets (g : Registry) (ts : List Token) (h : Registry) : Prop where
  records : ∀ t, h.records.get? t = if t ∈ ts then none else g.records.get? t
  jobs : ∀ j t, h.jobs.get? j = some t ↔ g.jobs.get? j = some t ∧ t ∉ ts
  aliases : ∀ a t, h.aliases.get? a = some t ↔ g.aliases.get? a = some t ∧ t ∉ ts

/-- No token is twice in any index. -/
structure Distinct (g : Registry) : Prop where
  records : g.records.Distinct
  jobs : g.jobs.Distinct
  aliases : g.aliases.Distinct

theorem forgets_dropAll {g : Registry} (d : g.Distinct) (ts : List Token) : Forgets g ts (g.dropAll ts) where
  records t := by rw [dropAll_records, Table.get?_foldl_erase]
  jobs j t := by rw [dropAll_jobs, Table.get?_filter_eq_some d.jobs, decide_eq_true_eq]
  aliases a t := by rw [dropAll_aliases, Table.get?_filter_eq_some d.aliases, decide_eq_true_eq]

theorem forgets_nil (g : Registry) : Forgets g [] g where
  records t := by simp
  jobs j t := by simp
  aliases a t := by simp

theorem forgets_unless_nil {g : Registry} (d : g.Distinct) (ts : List Token) :
    Forgets g ts (if ts.isEmpty then g else g.dropAll ts) := by
  cases ts with
  | nil => exact forgets_nil g
  | cons t ts => exact forgets_dropAll d (t :: ts)

/-! ## Registering -/

theorem takeJob_cases (g : Registry) (job : JobId) (t : Token) :
    (∀ p r, g.jobs.get? job = some p → p ≠ t → g.records.get? p = some r → r.isPending = false) ∧
      g.takeJob job t = (none, { g with jobs := g.jobs.insert job t }) ∨
    ∃ p r, g.jobs.get? job = some p ∧ p ≠ t ∧ g.records.get? p = some r ∧ r.isPending = true ∧
      g.takeJob job t = (some (p, r.wait.execution),
        ({ g with jobs := g.jobs.insert job t }.dropRecord p).dropAliases [p]) := by
  rw [takeJob]
  cases hp : (g.jobs.get? job).filter fun p => decide (p ≠ t) with
  | none =>
    refine .inl ⟨fun p r hj hne _ => ?_, rfl⟩
    rw [hj, Option.filter_some, if_pos (decide_eq_true hne)] at hp
    cases hp
  | some p =>
    obtain ⟨hj, hne⟩ := Option.filter_eq_some_iff.1 hp
    have hne : p ≠ t := of_decide_eq_true hne
    simp only
    cases hr : g.records.get? p with
    | none =>
      refine .inl ⟨fun q r hq _ hqr => ?_, rfl⟩
      cases hj.symm.trans hq
      rw [hr] at hqr
      cases hqr
    | some r =>
      simp only
      cases hpend : r.isPending with
      | true => exact .inr ⟨p, r, hj, hne, hr, hpend, rfl⟩
      | false =>
        refine .inl ⟨fun q r' hq _ hqr => ?_, rfl⟩
        cases hj.symm.trans hq
        rw [hr] at hqr
        cases hqr
        exact hpend

/-- The record of a wait that is taken up. -/
abbrev fresh (w : Wait) : WaitRecord := WaitRecord.ofWait { w with status := .pending }

/-- A registry in which an address that is not the token itself is an alias of the token. -/
def lead (g : Registry) (a? : Option Token) (t : Token) : Registry :=
  match a? with
  | some a => if a = t then g else { g with aliases := g.aliases.insert a t }
  | none => g

def takeJob? (g : Registry) (job? : Option JobId) (t : Token) : Superseded × Registry :=
  match job? with
  | some job => g.takeJob job t
  | none => (none, g)

/-- A wait taken up after the store has its record. -/
def takeUp (g : Registry) (w : Wait) (store : Store) : Superseded × Registry :=
  let taken := { g with store, records := g.records.insert w.token (fresh w) }.takeJob? w.job w.token
  (taken.1, taken.2.lead w.aliasToken w.token)

theorem register_store (g : Registry) (w : Wait) : register.store g (fresh w) = match g.store.put (fresh w) with
    | (.error f, store) => (.error f, { g with store })
    | (.ok (), store) => (.ok (g.takeUp w store).1, (g.takeUp w store).2) := by
  rw [register.store]
  cases g.store.put (fresh w) with
  | mk result store =>
    cases result with
    | error f => rfl
    | ok _ =>
      obtain ⟨token, execution, job, createdAt, expiresAt, status, metadata, alias?⟩ := w
      cases job <;> cases alias? <;> rfl

/-- A pending wait stands in the way of another one under its token. -/
theorem register_pending {g : Registry} {w : Wait} {r : WaitRecord} (hr : g.records.get? w.token = some r)
    (hp : r.isPending = true) : g.register w = (.error (.duplicateToken w.token.text), g) := by
  rw [register, hr]
  simp only [hp, if_true]

/-- **What a registration comes to**: it is turned down, or its store turns it down, or it is taken up. -/
theorem register_cases (g : Registry) (w : Wait) :
    (∃ r, g.records.get? w.token = some r ∧ r.isPending = true ∧
      g.register w = (.error (.duplicateToken w.token.text), g)) ∨
    (∃ f store, g.store.put (fresh w) = (.error f, store) ∧ g.register w = (.error f, { g with store })) ∨
    ∃ store, (∀ r, g.records.get? w.token = some r → r.isPending = false) ∧
      g.store.put (fresh w) = (.ok (), store) ∧ g.register w = (.ok (g.takeUp w store).1, (g.takeUp w store).2) := by
  have stores (hv : ∀ r, g.records.get? w.token = some r → r.isPending = false)
      (hr : g.register w = register.store g (fresh w)) :
      (∃ f store, g.store.put (fresh w) = (.error f, store) ∧ g.register w = (.error f, { g with store })) ∨
      ∃ store, (∀ r, g.records.get? w.token = some r → r.isPending = false) ∧
        g.store.put (fresh w) = (.ok (), store) ∧
        g.register w = (.ok (g.takeUp w store).1, (g.takeUp w store).2) := by
    rw [hr, register_store]
    cases g.store.put (fresh w) with
    | mk result store =>
      cases result with
      | error f => exact .inl ⟨f, store, rfl, rfl⟩
      | ok _ => exact .inr ⟨store, hv, rfl, rfl⟩
  cases hx : g.records.get? w.token with
  | none =>
    refine .inr (hx ▸ stores (fun r h => ?_) ?_)
    · rw [hx] at h
      cases h
    · rw [register, hx]
  | some x =>
    cases hp : x.isPending with
    | true => exact .inl ⟨x, rfl, hp, register_pending hx hp⟩
    | false =>
      refine .inr (hx ▸ stores (fun r h => ?_) ?_)
      · rw [hx] at h
        cases h
        exact hp
      · rw [register, hx]
        simp only [hp, Bool.false_eq_true, if_false]

/-- A registration that goes through takes up its wait, once the store has its record. -/
theorem register_takes {g h : Registry} {w : Wait} {s : Superseded} (hr : g.register w = (.ok s, h)) :
    ∃ store, (∀ r, g.records.get? w.token = some r → r.isPending = false) ∧
      g.store.put (fresh w) = (.ok (), store) ∧ g.takeUp w store = (s, h) := by
  rcases register_cases g w with ⟨r, -, -, heq⟩ | ⟨f, store, -, heq⟩ | ⟨store, hv, hput, heq⟩
  · cases heq.symm.trans hr
  · cases heq.symm.trans hr
  · refine ⟨store, hv, hput, ?_⟩
    cases heq.symm.trans hr
    rfl

theorem lead_aliases (g : Registry) (a? : Option Token) (t b u : Token) : (g.lead a? t).aliases.get? b = some u ↔
    if a? = some b ∧ b ≠ t then u = t else g.aliases.get? b = some u := by
  cases a? with
  | none => simp [lead]
  | some a =>
    rw [lead]
    by_cases hat : a = t
    · have hn : ¬(some a = some b ∧ b ≠ t) := fun h => h.2 (Option.some.inj h.1 ▸ hat)
      rw [if_pos hat, if_neg hn]
    · rw [if_neg hat, Table.get?_insert]
      by_cases hab : a = b
      · subst hab
        rw [if_pos rfl, if_pos ⟨rfl, hat⟩, Option.some.injEq, eq_comm]
      · rw [if_neg hab, if_neg fun h => hab (Option.some.inj h.1)]

@[simp] theorem lead_records (g : Registry) (a? : Option Token) (t : Token) : (g.lead a? t).records = g.records := by
  cases a? with
  | none => rfl
  | some a => rw [lead]; split <;> rfl

@[simp] theorem lead_jobs (g : Registry) (a? : Option Token) (t : Token) : (g.lead a? t).jobs = g.jobs := by
  cases a? with
  | none => rfl
  | some a => rw [lead]; split <;> rfl

@[simp] theorem lead_store (g : Registry) (a? : Option Token) (t : Token) : (g.lead a? t).store = g.store := by
  cases a? with
  | none => rfl
  | some a => rw [lead]; split <;> rfl

/-- What taking over a job leaves: the job leads to the token, and nothing is left of the wait that is over. -/
structure TakesJob (g : Registry) (job? : Option JobId) (t : Token) (s : Superseded) (h : Registry) : Prop where
  records : ∀ u, h.records.get? u = if s.map Prod.fst = some u then none else g.records.get? u
  jobs : ∀ j, h.jobs.get? j = if job? = some j then some t else g.jobs.get? j
  aliases : ∀ a u, h.aliases.get? a = some u ↔ g.aliases.get? a = some u ∧ s.map Prod.fst ≠ some u
  superseded : ∀ p e, s = some (p, e) → p ≠ t ∧ ∃ r job, g.records.get? p = some r ∧ r.isPending = true ∧
    r.wait.execution = e ∧ job? = some job ∧ g.jobs.get? job = some p
  current : ∀ job p r, job? = some job → g.jobs.get? job = some p → p ≠ t → g.records.get? p = some r →
    r.isPending = true → s = some (p, r.wait.execution)

theorem takesJob_takeJob? {g : Registry} (d : g.Distinct) (job? : Option JobId) (t : Token) :
    TakesJob g job? t (g.takeJob? job? t).1 (g.takeJob? job? t).2 := by
  cases job? with
  | none =>
    exact {
      records := fun u => rfl
      jobs := fun j => rfl
      aliases := fun a u => ⟨fun h => ⟨h, fun h' => by cases h'⟩, fun h => h.1⟩
      superseded := fun p e h => by cases h
      current := fun job p r h => by cases h }
  | some job =>
    have hjobs : ∀ j, (g.jobs.insert job t).get? j = if some job = some j then some t else g.jobs.get? j := fun j => by
      rw [Table.get?_insert]
      simp only [Option.some.injEq]
    rcases takeJob_cases g job t with ⟨hn, heq⟩ | ⟨p, r, hj, hne, hr, hp, heq⟩
    · rw [takeJob?, heq]
      exact {
        records := fun u => rfl
        jobs := hjobs
        aliases := fun a u => ⟨fun h => ⟨h, fun h' => by cases h'⟩, fun h => h.1⟩
        superseded := fun p e h => by cases h
        current := fun j p r h1 h2 h3 h4 h5 => by
          cases h1
          rw [hn p r h2 h3 h4] at h5
          cases h5 }
    · rw [takeJob?, heq]
      exact {
        records := fun u => by
          show (g.records.erase p).get? u = _
          rw [Table.get?_erase]
          simp only [Option.map_some, Option.some.injEq, eq_comm]
        jobs := hjobs
        aliases := fun a u => by
          show (g.aliases.filter fun _ t => decide (t ∉ [p])).get? a = some u ↔ _
          rw [Table.get?_filter_eq_some d.aliases, decide_eq_true_eq, List.mem_singleton, Option.map_some, ne_eq,
            Option.some.injEq, eq_comm (a := u)]
        superseded := fun q e h => by
          cases h
          exact ⟨hne, r, job, hr, hp, rfl, rfl, hj⟩
        current := fun j q r' h1 h2 _ h4 _ => by
          cases h1
          cases hj.symm.trans h2
          cases hr.symm.trans h4
          rfl }

/-- A registration that was taken up and what it leaves: the new record with the job and the alias that lead to it, and
nothing of the wait that it put an end to. -/
structure Registers (g : Registry) (w : Wait) (s : Superseded) (h : Registry) : Prop where
  vacant : ∀ r, g.records.get? w.token = some r → r.isPending = false
  records : ∀ t, h.records.get? t =
    if t = w.token then some (fresh w) else if s.map Prod.fst = some t then none else g.records.get? t
  jobs : ∀ j, h.jobs.get? j = if w.job = some j then some w.token else g.jobs.get? j
  aliases : ∀ a t, h.aliases.get? a = some t ↔
    if w.aliasToken = some a ∧ a ≠ w.token then t = w.token
    else g.aliases.get? a = some t ∧ s.map Prod.fst ≠ some t
  superseded : ∀ p e, s = some (p, e) → p ≠ w.token ∧ ∃ r job, g.records.get? p = some r ∧ r.isPending = true ∧
    r.wait.execution = e ∧ w.job = some job ∧ g.jobs.get? job = some p
  current : ∀ job p r, w.job = some job → g.jobs.get? job = some p → p ≠ w.token → g.records.get? p = some r →
    r.isPending = true → s = some (p, r.wait.execution)

theorem registers_takeUp {g : Registry} (d : g.Distinct) {w : Wait}
    (hv : ∀ r, g.records.get? w.token = some r → r.isPending = false) (store : Store) :
    Registers g w (g.takeUp w store).1 (g.takeUp w store).2 := by
  have tj := takesJob_takeJob? (g := { g with store, records := g.records.insert w.token (fresh w) })
    ⟨d.records.insert _ _, d.jobs, d.aliases⟩ w.job w.token
  have hins : ∀ {u}, u ≠ w.token → (g.records.insert w.token (fresh w)).get? u = g.records.get? u := fun hu =>
    Table.get?_insert_of_ne _ _ (Ne.symm hu)
  have hsup : ∀ p e, (g.takeUp w store).1 = some (p, e) → p ≠ w.token ∧ ∃ r job, g.records.get? p = some r ∧
      r.isPending = true ∧ r.wait.execution = e ∧ w.job = some job ∧ g.jobs.get? job = some p := fun p e hs => by
    obtain ⟨hne, r, job, hp, hrest⟩ := tj.superseded p e hs
    exact ⟨hne, r, job, (hins hne).symm.trans hp, hrest⟩
  refine ⟨hv, fun t => ?_, fun j => ?_, fun a t => ?_, hsup, fun job p r h1 h2 h3 h4 => ?_⟩
  · rw [takeUp, lead_records, tj.records]
    by_cases ht : t = w.token
    · subst ht
      rw [if_pos rfl]
      split
      · rename_i hs
        obtain ⟨⟨p, e⟩, hs, rfl⟩ := Option.map_eq_some_iff.1 hs
        exact absurd rfl (hsup _ _ hs).1
      · exact Table.get?_insert_self _ _ _
    · rw [if_neg ht]
      show (if _ then none else (g.records.insert w.token (fresh w)).get? t) = _
      rw [hins ht]
  · rw [takeUp, lead_jobs, tj.jobs]
  · rw [takeUp, lead_aliases, tj.aliases]
  · exact tj.current job p r h1 h2 h3 ((hins h3).trans h4)

theorem registers_of_ok {g h : Registry} (d : g.Distinct) {w : Wait} {s : Superseded} (hr : g.register w = (.ok s, h)) :
    Registers g w s h := by
  obtain ⟨store, hv, -, htaken⟩ := register_takes hr
  have rg := registers_takeUp d hv store
  rwa [htaken] at rg

/-! ## Changing one record -/

/-- How an operation can change a record that stays. -/
inductive Amends (r : WaitRecord) : WaitRecord → Prop where
  | noted (d : Decision) : r.isPending = true → Amends r { r with lastUpdate := some d }
  | resolved (d : Decision) : r.isPending = true → d.verdict.isTerminal = true →
      Amends r { r.finish .resolved d.receivedAt with decision := some d }
  | expired (now : Instant) : r.isPending = true → Amends r (r.finish .expired now)
  | delivered (d : Decision) : r.decision = some d → Amends r { r with delivered := true }

theorem changePending_cases (g : Registry) (x : Token) (change : WaitRecord → WaitRecord)
    (answer : WaitRecord → Resolution) :
    (∃ t r, g.find? x = some (t, r) ∧ r.isPending = true ∧
      g.changePending x change answer = (answer r, g.save t (change r))) ∨
    (∃ t r, g.find? x = some (t, r) ∧ (r.status = .resolved ∨ r.status = .expired) ∧
      g.changePending x change answer = (.alreadyResolved r.status, g)) ∨
    (∀ t r, g.find? x = some (t, r) → r.status = .cancelled) ∧
      g.changePending x change answer = (.notFound, g) := by
  rw [changePending]
  cases hx : g.find? x with
  | none => exact .inr (.inr ⟨fun t r h => by (cases h), rfl⟩)
  | some q =>
    obtain ⟨t, r⟩ := q
    simp only
    cases hs : r.status with
    | pending => exact .inl ⟨t, r, rfl, WaitRecord.isPending_iff.2 hs, rfl⟩
    | resolved => exact .inr (.inl ⟨t, r, rfl, .inl hs, by rw [hs]⟩)
    | expired => exact .inr (.inl ⟨t, r, rfl, .inr hs, by rw [hs]⟩)
    | cancelled => exact .inr (.inr ⟨fun t' r' h => by cases h; exact hs, rfl⟩)

theorem resolve_cases (g : Registry) (x : Token) (d : Decision) :
    (∃ t r, g.find? x = some (t, r) ∧ r.isPending = true ∧ d.verdict.isTerminal = true ∧
      g.resolve x d = (.resolved r.wait.execution d,
        g.save t { r.finish .resolved d.receivedAt with decision := some d })) ∨
    (∃ t r, g.find? x = some (t, r) ∧ r.isPending = true ∧ d.verdict.isTerminal = false ∧
      g.resolve x d = (.updated r.wait.execution, g.save t { r with lastUpdate := some d })) ∨
    (∃ t r, g.find? x = some (t, r) ∧ (r.status = .resolved ∨ r.status = .expired) ∧
      g.resolve x d = (.alreadyResolved r.status, g)) ∨
    (∀ t r, g.find? x = some (t, r) → r.status = .cancelled) ∧ g.resolve x d = (.notFound, g) := by
  rw [resolve, noteUpdate]
  cases hv : d.verdict.isTerminal with
  | true =>
    rw [if_pos rfl]
    rcases changePending_cases g x (fun r => { r.finish .resolved d.receivedAt with decision := some d })
      (fun r => .resolved r.wait.execution d) with ⟨t, r, hx, hp, heq⟩ | h | h
    · exact .inl ⟨t, r, hx, hp, rfl, heq⟩
    · exact .inr (.inr (.inl h))
    · exact .inr (.inr (.inr h))
  | false =>
    rw [if_neg Bool.false_ne_true]
    rcases changePending_cases g x (fun r => { r with lastUpdate := some d })
      (fun r => .updated r.wait.execution) with ⟨t, r, hx, hp, heq⟩ | h | h
    · exact .inr (.inl ⟨t, r, hx, hp, rfl, heq⟩)
    · exact .inr (.inr (.inl h))
    · exact .inr (.inr (.inr h))

theorem noteUpdate_cases (g : Registry) (x : Token) (d : Decision) :
    (∃ t r, g.find? x = some (t, r) ∧ r.isPending = true ∧
      g.noteUpdate x d = (.updated r.wait.execution, g.save t { r with lastUpdate := some d })) ∨
    (∃ t r, g.find? x = some (t, r) ∧ (r.status = .resolved ∨ r.status = .expired) ∧
      g.noteUpdate x d = (.alreadyResolved r.status, g)) ∨
    (∀ t r, g.find? x = some (t, r) → r.status = .cancelled) ∧ g.noteUpdate x d = (.notFound, g) :=
  changePending_cases g x _ _

theorem expire_cases (g : Registry) (x : Token) (now : Instant) :
    (∃ t r, g.find? x = some (t, r) ∧ r.isPending = true ∧
      g.expire x now = (.expired r.wait.execution, g.save t (r.finish .expired now))) ∨
    (∃ t r, g.find? x = some (t, r) ∧ (r.status = .resolved ∨ r.status = .expired) ∧
      g.expire x now = (.alreadyResolved r.status, g)) ∨
    (∀ t r, g.find? x = some (t, r) → r.status = .cancelled) ∧ g.expire x now = (.notFound, g) :=
  changePending_cases g x _ _

theorem takeDecision_cases (g : Registry) (x : Token) :
    (∃ t r d, g.find? x = some (t, r) ∧ r.decision = some d ∧ r.delivered = false ∧
      g.takeDecision x = (some d, g.save t { r with delivered := true })) ∨
    (∀ t r, g.find? x = some (t, r) → r.delivered = false → r.decision = none) ∧ g.takeDecision x = (none, g) := by
  rw [takeDecision]
  cases hx : g.find? x with
  | none => exact .inr ⟨fun t r h => by (cases h), rfl⟩
  | some q =>
    obtain ⟨t, r⟩ := q
    simp only
    cases hdel : r.delivered with
    | true =>
      refine .inr ⟨fun t' r' h hf => ?_, by rw [if_pos rfl]⟩
      cases h
      rw [hdel] at hf
      cases hf
    | false =>
      rw [if_neg Bool.false_ne_true]
      cases hd : r.decision with
      | none => exact .inr ⟨fun t' r' h _ => by cases h; exact hd, rfl⟩
      | some d => exact .inl ⟨t, r, d, rfl, hd, hdel, by rw [hd]⟩

theorem markDelivered_cases (g : Registry) (x : Token) :
    (∃ t r d, g.find? x = some (t, r) ∧ r.decision = some d ∧
      g.markDelivered x = g.save t { r with delivered := true }) ∨ g.markDelivered x = g := by
  rw [markDelivered]
  cases hx : g.find? x with
  | none => exact .inr rfl
  | some q =>
    obtain ⟨t, r⟩ := q
    simp only
    split
    · rename_i h
      obtain ⟨hd, -⟩ := Bool.and_eq_true_iff.1 h
      obtain ⟨d, hd⟩ := Option.isSome_iff_exists.1 hd
      exact .inl ⟨t, r, d, rfl, hd, rfl⟩
    · exact .inr rfl

/-! ## Forgetting records -/

theorem mem_overdue {g : Registry} (d : g.Distinct) {now : Instant} {t : Token} : t ∈ g.overdue now ↔
    ∃ r, g.records.get? t = some r ∧ r.isPending = true ∧ r.wait.isExpiredAt now = true := by
  refine (Table.mem_keys_filter d.records (p := fun _ r => r.isPending && r.wait.isExpiredAt now)).trans ?_
  simp only [Bool.and_eq_true]

theorem mem_cancel {g : Registry} (d : g.Distinct) {e : ExecutionId} {t : Token} : t ∈ (g.cancel e).1 ↔
    ∃ r, g.records.get? t = some r ∧ r.isPending = true ∧ r.wait.execution = e := by
  refine (Table.mem_keys_filter d.records (p := fun _ r => r.isPending && decide (r.wait.execution = e))).trans ?_
  simp only [Bool.and_eq_true, decide_eq_true_eq]

theorem cancel_forgets {g : Registry} (d : g.Distinct) (e : ExecutionId) : Forgets g (g.cancel e).1 (g.cancel e).2 :=
  forgets_unless_nil d _

/-- The tokens of the tombstones past their time. -/
def stale (g : Registry) (now : Instant) : List Token :=
  (g.records.entries.filter fun (_, r) => isStale g.tombstoneTtl now r).map Prod.fst

theorem mem_stale {g : Registry} (d : g.Distinct) {now : Instant} {t : Token} :
    t ∈ g.stale now ↔ ∃ r, g.records.get? t = some r ∧ isStale g.tombstoneTtl now r = true :=
  Table.mem_keys_filter d.records (p := fun _ r => isStale g.tombstoneTtl now r)

theorem sweep_forgets {g : Registry} (d : g.Distinct) (now : Instant) : Forgets g (g.stale now) (g.sweep now).2 :=
  forgets_unless_nil d _

theorem remove_cases (g : Registry) (t : Token) :
    (∃ r, g.records.get? t = some r ∧ g.remove t = (some r, g.dropAll [t])) ∨
    g.records.get? t = none ∧ g.remove t = (none, g) := by
  rw [remove]
  cases hr : g.records.get? t with
  | none => exact .inr ⟨rfl, rfl⟩
  | some r => exact .inl ⟨r, rfl, rfl⟩

end Registry
end ApprovalGate
