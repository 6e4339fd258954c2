import ApprovalGate.Proofs.Gate.Conclusion
/-!
# One pass over everything that time brings to an end

A pass expires the waits that are overdue and that nothing is parked on, then forgets tombstones and then executions
that ended long enough ago, those of the same pass included.  What expires is stamped with later readings of the clock
than the instant of the pass, so it may be too young to be forgotten at once.  A pass leaves nothing of the kind behind
and does nothing else, whatever the clock reads (`Gate.Passed`), so a second pass for the same instant finds nothing to
do.  Main statement: `pass_complete_and_harmless`.
-/
namespace ApprovalGate

/-- Whether it is a span of time or longer since an instant. -/
def Aged (limit : Span) (now at' : Instant) : Prop := (limit.nanos : Int) ≤ now.since at'

theorem aged_iff (limit : Span) (now at' : Instant) : (match now.since? at' with
    | some age => decide (limit ≤ age)
    | none => false) = true ↔ Aged limit now at' := by
  unfold Instant.since? Aged
  by_cases h : 0 ≤ now.since at'
  · rw [if_pos h, decide_eq_true_eq]
    show limit.nanos ≤ (now.since at').toNat ↔ _
    omega
  · rw [if_neg h]
    exact ⟨nofun, fun hle => absurd (Int.le_trans (Int.natCast_nonneg _) hle) h⟩

/-- Whether a number is how many things there are with a property. -/
def Counts {α : Type} (p : α → Prop) (n : Nat) : Prop := ∃ xs : List α, xs.Nodup ∧ (∀ a, a ∈ xs ↔ p a) ∧ xs.length = n

namespace Registry

theorem isStale_iff {ttl : Span} {now : Instant} {r : WaitRecord} : isStale ttl now r = true ↔
    r.isPending = false ∧ ∃ at', r.finishedAt = some at' ∧ Aged ttl now at' := by
  have ended : r.status.isTerminal = true ↔ r.isPending = false := by
    cases hs : r.status <;> simp [WaitRecord.isPending, WaitStatus.isTerminal, hs]
  unfold isStale
  rw [Bool.and_eq_true, ended]
  refine and_congr_right fun _ => ?_
  cases r.finishedAt with
  | none => simp
  | some at' =>
    simp only [Option.bind_some, Option.some.injEq, exists_eq_left']
    exact aged_iff ttl now at'

theorem dropAll_ttl (g : Registry) (ts : List Token) : (g.dropAll ts).tombstoneTtl = g.tombstoneTtl := by
  show (ts.foldl dropRecord g).tombstoneTtl = g.tombstoneTtl
  induction ts generalizing g with
  | nil => rfl
  | cons t ts ih => exact ih (g.dropRecord t)

theorem sweep_ttl (g : Registry) (now : Instant) : (g.sweep now).2.tombstoneTtl = g.tombstoneTtl := by
  simp only [sweep]
  split
  · rfl
  · exact g.dropAll_ttl _

end Registry

theorem Execution.advance_timedOut (x : Execution) (now now' : Instant) :
    (x.advance .timedOut none now).advance .timedOut none now' = x.advance .timedOut none now := by
  unfold advance
  split
  · rfl
  · exact if_pos rfl

namespace Gate

/-! ## What a pass comes to -/

/-- Whether the wait under a token lapses in a pass: it is pending and overdue, and nothing is parked on it. -/
def Lapses (g : Gate) (now : Instant) (t : Token) (r : WaitRecord) : Prop :=
  r.isPending = true ∧ r.wait.isExpiredAt now = true ∧ g.hasWaiter t = false

instance (g : Gate) (now : Instant) (t : Token) (r : WaitRecord) : Decidable (g.Lapses now t r) :=
  inferInstanceAs (Decidable (_ ∧ _ ∧ _))

/-- The record of a wait once everything that lapses has expired. -/
def lapse (g : Gate) (now : Instant) (c : Readings) (t : Token) (r : WaitRecord) : WaitRecord :=
  if g.Lapses now t r then r.finish .expired (c.finished t) else r

/-- Whether an execution loses a wait that lapses. -/
def Loses (g : Gate) (now : Instant) (e : ExecutionId) : Prop :=
  ∃ t r, g.registry.records.get? t = some r ∧ g.Lapses now t r ∧ r.wait.execution = e

/-- What is noted of an execution once everything that lapses has expired. -/
inductive Outlasts (g : Gate) (now : Instant) (c : Readings) (e : ExecutionId) : Execution → Execution → Prop where
  | timedOut {x : Execution} : g.Loses now e → Outlasts g now c e x (x.advance .timedOut none (c.updated e))
  | same {x : Execution} : ¬g.Loses now e → Outlasts g now c e x x

/-- Whether a pass takes the wait under a token away: once everything that lapses has expired, the wait has ended and is
old enough. -/
def Sweeps (g : Gate) (now : Instant) (c : Readings) (t : Token) : Prop :=
  ∃ r, g.registry.records.get? t = some r ∧ (g.lapse now c t r).isPending = false ∧
    ∃ at', (g.lapse now c t r).finishedAt = some at' ∧ Aged g.registry.tombstoneTtl now at'

/-- Whether an execution ended long enough ago to be forgotten. -/
def Bygone (retention : Span) (now : Instant) (x : Execution) : Prop :=
  x.state.isTerminal = true ∧ Aged retention now x.updatedAt

theorem isForgettable_iff {retention : Span} {now : Instant} {x : Execution} :
    isForgettable retention now x = true ↔ Bygone retention now x := by
  unfold isForgettable Bygone
  rw [Bool.and_eq_true]
  exact and_congr_right fun _ => aged_iff retention now x.updatedAt

/-- What a pass for an instant reports and leaves of a gate, with what the clock read while waits expired. -/
structure Passed (g : Gate) (now : Instant) (retention : Span) (c : Readings) (report : SweepReport) (g' : Gate) :
    Prop where
  /-- Of the waits that are still pending and overdue every one has something parked on it. -/
  overdue : ∀ t r at', g'.registry.records.get? t = some r → r.isPending = true → r.wait.expiresAt = some at' →
    at' ≤ now → g'.hasWaiter t = true
  tombstones : ∀ t r at', g'.registry.records.get? t = some r → r.isPending = false → r.finishedAt = some at' →
    ¬Aged g.registry.tombstoneTtl now at'
  endings : ∀ e x, g'.execution? e = some x → ¬Bygone retention now x
  /-- The records are those that were there, expired if they lapse, without those that are taken away. -/
  records : ∀ t r', g'.registry.records.get? t = some r' ↔
    ∃ r, g.registry.records.get? t = some r ∧ g.lapse now c t r = r' ∧ ¬g.Sweeps now c t
  /-- A wait that does not lapse stays pending as it is. -/
  pending : ∀ t r, g.registry.records.get? t = some r → r.isPending = true → ¬g.Lapses now t r →
    g'.registry.records.get? t = some r
  jobs : ∀ job t, g'.registry.jobs.get? job = some t ↔ g.registry.jobs.get? job = some t ∧ ¬g.Sweeps now c t
  aliases : ∀ a t, g'.registry.aliases.get? a = some t ↔ g.registry.aliases.get? a = some t ∧ ¬g.Sweeps now c t
  executions : ∀ e x', g'.execution? e = some x' ↔
    ∃ x, g.execution? e = some x ∧ g.Outlasts now c e x x' ∧ ¬Bygone retention now x'
  /-- Nobody is woken, and nothing else changes. -/
  rest : g' = { g with registry := g'.registry, executions := g'.executions }
  ttl : g'.registry.tombstoneTtl = g.registry.tombstoneTtl
  expired : Counts (fun t => ∃ r, g.registry.records.get? t = some r ∧ g.Lapses now t r) report.expired
  swept : Counts (g.Sweeps now c) report.tombstones
  forgotten : Counts (fun e => ∃ x x', g.execution? e = some x ∧ g.Outlasts now c e x x' ∧ Bygone retention now x')
    report.executions

/-! ## Waits that lapse -/

/-- Whether one of the waits under some tokens is of an execution. -/
def Hold (g : Gate) (ts : List Token) (e : ExecutionId) : Prop :=
  ∃ t ∈ ts, (g.registry.records.get? t).map (fun r => r.wait.execution) = some e

instance (g : Gate) (ts : List Token) (e : ExecutionId) : Decidable (g.Hold ts e) :=
  inferInstanceAs (Decidable (∃ t ∈ ts, _))

/-- What expiring the waits under some tokens, on which nothing is parked, leaves of a gate. -/
structure Expires (g : Gate) (ts : List Token) (c : Readings) (g' : Gate) : Prop where
  sound : g'.registry.Sound
  distinct : g'.executions.Distinct
  records : ∀ t, g'.registry.records.get? t =
    (g.registry.records.get? t).map fun r => if t ∈ ts then r.finish .expired (c.finished t) else r
  jobs : g'.registry.jobs = g.registry.jobs
  aliases : g'.registry.aliases = g.registry.aliases
  ttl : g'.registry.tombstoneTtl = g.registry.tombstoneTtl
  executions : ∀ e, g'.execution? e =
    (g.execution? e).map fun x => if g.Hold ts e then x.advance .timedOut none (c.updated e) else x
  rest : g' = { g with registry := g'.registry, executions := g'.executions }

theorem Expires.refl {g : Gate} (sound : g.registry.Sound) (d : g.executions.Distinct) (c : Readings) :
    g.Expires [] c g where
  sound := sound
  distinct := d
  records t := by simp
  jobs := rfl
  aliases := rfl
  ttl := rfl
  executions e := by simp [Hold]
  rest := rfl

theorem Expires.trans {g g₁ g₂ : Gate} {ts ts' : List Token} {c : Readings} (x : g.Expires ts c g₁)
    (y : g₁.Expires ts' c g₂) : g.Expires (ts ++ ts') c g₂ where
  sound := y.sound
  distinct := y.distinct
  records t := by
    rw [y.records, x.records, Option.map_map]
    refine congrArg (Option.map · _) (funext fun r => ?_)
    by_cases ht : t ∈ ts <;> by_cases ht' : t ∈ ts' <;> simp [ht, ht', WaitRecord.finish]
  jobs := y.jobs.trans x.jobs
  aliases := y.aliases.trans x.aliases
  ttl := y.ttl.trans x.ttl
  executions e := by
    have held : g₁.Hold ts' e ↔ g.Hold ts' e := by
      unfold Hold
      simp only [x.records, Option.map_map]
      refine exists_congr fun t => and_congr_right fun _ => ?_
      refine Eq.congr_left (congrArg (Option.map · _) (funext fun r => ?_))
      by_cases ht : t ∈ ts <;> simp [ht, WaitRecord.finish]
    have both : g.Hold (ts ++ ts') e ↔ g.Hold ts e ∨ g.Hold ts' e := by
      simp only [Hold, List.mem_append, or_and_right, exists_or]
    rw [y.executions, x.executions, Option.map_map]
    refine congrArg (Option.map · _) (funext fun x => ?_)
    by_cases h : g.Hold ts e <;> by_cases h' : g.Hold ts' e <;> simp [h, h', held, both, x.advance_timedOut]
  rest := by rw [y.rest, x.rest]

/-- A wait on which nothing is parked expires, and its execution has timed out unless it had ended before. -/
theorem expireOrphan_expires {g : Gate} (sound : g.registry.Sound) (d : g.executions.Distinct) {t : Token}
    {r : WaitRecord} (hr : g.registry.records.get? t = some r) (hp : r.isPending = true) (hw : g.hasWaiter t = false)
    (c : Readings) : (g.expireOrphan t c).1 = true ∧ g.Expires [t] c (g.expireOrphan t c).2 := by
  have expire : g.registry.expire t (c.finished t) =
      (.expired r.wait.execution, g.registry.save t (r.finish .expired (c.finished t))) := by
    have found : g.registry.find? t = some (t, r) := Registry.find?_eq_some.2 ⟨hr, .inl rfl⟩
    simp only [Registry.expire, Registry.changePending, found, WaitRecord.isPending_iff.1 hp]
  have alone : g.waiters.get? t = none := Option.isNone_iff_eq_none.1 (Option.isSome_eq_false_iff.1 hw)
  have orphan : g.expireOrphan t c = (true, transitionKnown
      { g with registry := g.registry.save t (r.finish .expired (c.finished t)) } r.wait.execution .timedOut
      (c.updated r.wait.execution)) := by
    simp only [expireOrphan, hw, expire, signal, alone]
    rfl
  rw [orphan]
  refine ⟨rfl, ?_⟩
  have moved := transitionKnown_eq { g with registry := g.registry.save t (r.finish .expired (c.finished t)) }
    r.wait.execution .timedOut (c.updated r.wait.execution)
  have saved : (g.registry.perform (.expire t (c.finished t))).Sound := sound.happen (.call (.expire t (c.finished t)))
  rw [Registry.perform, expire] at saved
  constructor
  case sound => exact moved ▸ saved
  case distinct =>
    exact transitionKnown_distinct (g := { g with registry := g.registry.save t (r.finish .expired (c.finished t)) })
      d _ _ _
  case records =>
    intro u
    rw [moved]
    show (g.registry.save t (r.finish .expired (c.finished t))).records.get? u = _
    rw [Registry.save_get?]
    by_cases hu : t = u
    · subst hu
      simp [hr]
    · simp [hu, Ne.symm hu]
  case jobs => rw [moved]; rfl
  case aliases => rw [moved]; rfl
  case ttl => rw [moved]; rfl
  case executions =>
    intro e
    have held : g.Hold [t] e ↔ r.wait.execution = e := by simp [Hold, hr]
    rw [transitionKnown_execution?]
    simp only [held]
    by_cases he : r.wait.execution = e
    · subst he
      simp only [if_pos]
      rfl
    · simp only [if_neg he, Option.map_id']
      rfl
  case rest => rw [moved]

theorem expireOrphans_expires (c : Readings) : ∀ (ts : List Token) {g : Gate}, g.registry.Sound →
    g.executions.Distinct → ts.Nodup → (∀ t ∈ ts, ∃ r, g.registry.records.get? t = some r ∧ r.isPending = true) →
      (g.expireOrphans c ts).1 = (ts.filter fun t => !g.hasWaiter t).length ∧
      g.Expires (ts.filter fun t => !g.hasWaiter t) c (g.expireOrphans c ts).2
  | [], _, sound, d, _, _ => ⟨rfl, .refl sound d c⟩
  | t :: ts, g, sound, d, nodup, pending => by
    obtain ⟨ht, nodup⟩ := List.nodup_cons.1 nodup
    cases hw : g.hasWaiter t with
    | true =>
      have orphan : g.expireOrphan t c = (false, g) := if_pos hw
      obtain ⟨count, x⟩ := expireOrphans_expires c ts sound d nodup fun u hu => pending u (List.mem_cons_of_mem t hu)
      simp only [expireOrphans, orphan, List.filter_cons, hw]
      exact ⟨count, x⟩
    | false =>
      obtain ⟨r, hr, hp⟩ := pending t List.mem_cons_self
      obtain ⟨one, x⟩ := expireOrphan_expires sound d hr hp hw c
      have parked (u : Token) : (g.expireOrphan t c).2.hasWaiter u = g.hasWaiter u := by rw [x.rest]; rfl
      obtain ⟨count, y⟩ := expireOrphans_expires c ts x.sound x.distinct nodup fun u hu => by
        obtain ⟨q, hq, hqp⟩ := pending u (List.mem_cons_of_mem t hu)
        have hut : u ≠ t := fun h => ht (h ▸ hu)
        exact ⟨q, by rw [x.records, hq]; simp [hut], hqp⟩
      simp only [parked] at count y
      simp only [expireOrphans, one, List.filter_cons, hw, Bool.not_false, if_true, List.length_cons, count]
      exact ⟨trivial, x.trans y⟩

/-! ## The pass -/

section

variable {g : Gate} (sound : g.registry.Sound) (d : g.executions.Distinct) (now : Instant) (retention : Span)
  (c : Readings)

/-- The tokens of the waits that lapse. -/
def lapsing (g : Gate) (now : Instant) : List Token := (g.registry.overdue now).filter fun t => !g.hasWaiter t

include sound in
theorem mem_lapsing {t : Token} :
    t ∈ g.lapsing now ↔ ∃ r, g.registry.records.get? t = some r ∧ g.Lapses now t r := by
  simp only [lapsing, List.mem_filter, Registry.mem_overdue sound.toDistinct, Lapses, Bool.not_eq_true',
    exists_and_right, ← and_assoc]

include sound in
theorem lapsing_nodup : (g.lapsing now).Nodup :=
  List.Nodup.filter _ (sound.records.filter fun _ r => r.isPending && r.wait.isExpiredAt now)

theorem process_eq : g.process now retention c =
    let g₁ := (g.expireOverdue now c).2
    ({ expired := (g.expireOverdue now c).1
       tombstones := (g₁.registry.stale now).length
       executions := (g₁.executions.filter fun _ x => isForgettable retention now x).keys.length },
      { g₁ with
        registry := (g₁.registry.sweep now).2
        executions := g₁.executions.filter fun _ x => !isForgettable retention now x }) := by
  simp only [← Table.size_sub_filter]
  rfl

include sound d in
/-- Everything that lapses expires. -/
theorem expireOverdue_expires : (g.expireOverdue now c).1 = (g.lapsing now).length ∧
    g.Expires (g.lapsing now) c (g.expireOverdue now c).2 := by
  refine expireOrphans_expires c _ sound d (sound.records.filter fun _ r => r.isPending && r.wait.isExpiredAt now)
    fun t ht => ?_
  obtain ⟨r, hr, hp, -⟩ := (Registry.mem_overdue sound.toDistinct).1 ht
  exact ⟨r, hr, hp⟩

variable {now c} {g₁ : Gate} (x : g.Expires (g.lapsing now) c g₁)

include sound x in
theorem Expires.get?_eq_some {t : Token} {r' : WaitRecord} : g₁.registry.records.get? t = some r' ↔
    ∃ r, g.registry.records.get? t = some r ∧ g.lapse now c t r = r' := by
  rw [x.records, Option.map_eq_some_iff]
  refine exists_congr fun r => and_congr_right fun hr => Eq.congr_left ?_
  have lapses : t ∈ g.lapsing now ↔ g.Lapses now t r := by simp [mem_lapsing sound, hr]
  simp only [lapses]
  rfl

include sound x in
theorem Expires.execution?_eq_some {e : ExecutionId} {y' : Execution} : g₁.execution? e = some y' ↔
    ∃ y, g.execution? e = some y ∧ g.Outlasts now c e y y' := by
  have loses : g.Hold (g.lapsing now) e ↔ g.Loses now e := by
    constructor
    · rintro ⟨t, ht, he⟩
      obtain ⟨r, hr, hl⟩ := (mem_lapsing sound now).1 ht
      rw [hr] at he
      exact ⟨t, r, hr, hl, Option.some.inj he⟩
    · rintro ⟨t, r, hr, hl, rfl⟩
      exact ⟨t, (mem_lapsing sound now).2 ⟨r, hr, hl⟩, by rw [hr]; rfl⟩
  rw [x.executions, Option.map_eq_some_iff]
  refine exists_congr fun y => and_congr_right fun _ => ?_
  by_cases h : g.Loses now e
  · rw [if_pos (loses.2 h)]
    constructor
    · rintro rfl
      exact .timedOut h
    · rintro (_ | hn)
      · rfl
      · exact absurd h hn
  · rw [if_neg fun hl => h (loses.1 hl)]
    constructor
    · rintro rfl
      exact .same h
    · rintro (hl | _)
      · exact absurd hl h
      · rfl

include sound x in
/-- What the sweep takes away after the expiries. -/
theorem Expires.mem_stale {t : Token} : t ∈ g₁.registry.stale now ↔ g.Sweeps now c t := by
  rw [Registry.mem_stale x.sound.toDistinct, x.ttl]
  simp only [Expires.get?_eq_some sound x, Registry.isStale_iff, Sweeps]
  constructor
  · rintro ⟨_, ⟨r, hr, rfl⟩, hs⟩
    exact ⟨r, hr, hs⟩
  · rintro ⟨r, hr, hs⟩
    exact ⟨_, ⟨r, hr, rfl⟩, hs⟩

theorem lapse_of_pending {t : Token} {r : WaitRecord} (hp : (g.lapse now c t r).isPending = true) :
    ¬g.Lapses now t r ∧ g.lapse now c t r = r := by
  by_cases h : g.Lapses now t r
  · rw [lapse, if_pos h] at hp
    cases hp
  · exact ⟨h, if_neg h⟩

variable (now c)

include sound d in
/-- **A pass leaves nothing behind and does nothing else.** -/
theorem process_passed : g.Passed now retention c (g.process now retention c).1 (g.process now retention c).2 := by
  obtain ⟨count, x⟩ := expireOverdue_expires sound d now c
  have swept := Registry.sweep_forgets x.sound.toDistinct now
  have ttl := (g.expireOverdue now c).2.registry.sweep_ttl now
  rw [process_eq]
  simp only
  generalize (g.expireOverdue now c).2 = g₁ at *
  have stale {t : Token} : t ∈ g₁.registry.stale now ↔ g.Sweeps now c t := Expires.mem_stale sound x
  have records {t : Token} {r' : WaitRecord} : (g₁.registry.sweep now).2.records.get? t = some r' ↔
      ∃ r, g.registry.records.get? t = some r ∧ g.lapse now c t r = r' ∧ ¬g.Sweeps now c t := by
    rw [swept.records]
    by_cases hs : g.Sweeps now c t
    · simp [if_pos (stale.2 hs), hs]
    · simp [if_neg fun h => hs (stale.1 h), hs, Expires.get?_eq_some sound x]
  have executions {e : ExecutionId} {y' : Execution} :
      (g₁.executions.filter fun _ x => !isForgettable retention now x).get? e = some y' ↔
        ∃ y, g.execution? e = some y ∧ g.Outlasts now c e y y' ∧ ¬Bygone retention now y' := by
    rw [Table.get?_filter_eq_some x.distinct, Bool.not_eq_true', ← Bool.not_eq_true, isForgettable_iff]
    refine (and_congr_left fun _ => Expires.execution?_eq_some sound x).trans ?_
    simp only [and_assoc, ← exists_and_right]
  constructor
  case overdue =>
    intro t r' at' hr' hp he hle
    obtain ⟨r, hr, rfl, -⟩ := records.1 hr'
    obtain ⟨hl, same⟩ := lapse_of_pending hp
    rw [same] at hp he
    have overdue : r.wait.isExpiredAt now = true := by
      unfold Wait.isExpiredAt
      rw [he]
      exact decide_eq_true hle
    have parked : g.hasWaiter t = true := by
      by_contra hw
      exact hl ⟨hp, overdue, Bool.eq_false_iff.2 hw⟩
    rw [x.rest]
    exact parked
  case tombstones =>
    intro t r' at' hr' hp hf aged
    obtain ⟨r, hr, rfl, kept⟩ := records.1 hr'
    exact kept ⟨r, hr, hp, at', hf, aged⟩
  case endings =>
    intro e y hy
    obtain ⟨-, -, -, hy⟩ := executions.1 hy
    exact hy
  case records => exact fun t r' => records
  case pending =>
    intro t r hr hp hl
    have same : g.lapse now c t r = r := if_neg hl
    refine records.2 ⟨r, hr, same, ?_⟩
    rintro ⟨q, hq, hqp, -⟩
    cases hr.symm.trans hq
    rw [same, hp] at hqp
    cases hqp
  case jobs =>
    intro job t
    rw [swept.jobs, x.jobs, stale]
  case aliases =>
    intro a t
    rw [swept.aliases, x.aliases, stale]
  case executions => exact fun e y' => executions
  case rest => rw [x.rest]
  case ttl => exact ttl.trans x.ttl
  case expired => exact ⟨_, lapsing_nodup sound now, fun t => mem_lapsing sound now, count.symm⟩
  case swept =>
    exact ⟨_, x.sound.records.filter fun _ r => Registry.isStale g₁.registry.tombstoneTtl now r, fun t => stale, rfl⟩
  case forgotten =>
    refine ⟨_, x.distinct.filter _, fun e => ?_, rfl⟩
    rw [Table.mem_keys_filter x.distinct]
    simp only [isForgettable_iff]
    constructor
    · rintro ⟨y', hy', hb⟩
      obtain ⟨y, hy, o⟩ := (Expires.execution?_eq_some sound x).1 hy'
      exact ⟨y, y', hy, o, hb⟩
    · rintro ⟨y, y', hy, o, hb⟩
      exact ⟨y', (Expires.execution?_eq_some sound x).2 ⟨y, hy, o⟩, hb⟩

include sound d in
theorem process_sound : (g.process now retention c).2.registry.Sound ∧
    (g.process now retention c).2.executions.Distinct := by
  obtain ⟨-, x⟩ := expireOverdue_expires sound d now c
  rw [process_eq]
  exact ⟨x.sound.happen (.call (.sweep now)), x.distinct.filter _⟩

end

/-! ## A second pass -/

theorem expireOrphans_parked {g : Gate} (c : Readings) : ∀ {ts : List Token}, (∀ t ∈ ts, g.hasWaiter t = true) →
    g.expireOrphans c ts = (0, g)
  | [], _ => rfl
  | t :: ts, parked => by
    have orphan : g.expireOrphan t c = (false, g) := if_pos (parked t List.mem_cons_self)
    simp only [expireOrphans, orphan, expireOrphans_parked c fun u hu => parked u (List.mem_cons_of_mem t hu)]
    rfl

/-- **After a pass there is nothing to do for a second one** for the same instant, whatever the clock reads by then. -/
theorem Passed.again {g g' : Gate} {now : Instant} {retention : Span} {c : Readings} {report : SweepReport}
    (p : g.Passed now retention c report g') (sound : g'.registry.Sound) (d : g'.executions.Distinct) (c' : Readings) :
    g'.process now retention c' = (⟨0, 0, 0⟩, g') := by
  have idle : g'.expireOverdue now c' = (0, g') := by
    refine expireOrphans_parked c' fun t ht => ?_
    obtain ⟨r, hr, hp, overdue⟩ := (Registry.mem_overdue sound.toDistinct).1 ht
    unfold Wait.isExpiredAt at overdue
    cases he : r.wait.expiresAt with
    | none =>
      rw [he] at overdue
      cases overdue
    | some at' =>
      rw [he] at overdue
      exact p.overdue t r at' hr hp he (of_decide_eq_true overdue)
  have clean : g'.registry.stale now = [] := by
    rw [List.eq_nil_iff_forall_not_mem]
    intro t ht
    obtain ⟨r, hr, stale⟩ := (Registry.mem_stale sound.toDistinct).1 ht
    obtain ⟨hp, at', hf, aged⟩ := Registry.isStale_iff.1 stale
    exact p.tombstones t r at' hr hp hf (p.ttl ▸ aged)
  have swept : (g'.registry.sweep now).2 = g'.registry := if_pos (List.isEmpty_iff.2 clean)
  have running {e : ExecutionId} {x : Execution} (hx : g'.executions.get? e = some x) :
      isForgettable retention now x = false := by
    rw [← Bool.not_eq_true, isForgettable_iff]
    exact p.endings e x hx
  have kept : (g'.executions.filter fun _ x => !isForgettable retention now x) = g'.executions :=
    Table.filter_eq_self d fun e x hx => by rw [running hx]; rfl
  have forgotten : (g'.executions.filter fun _ x => isForgettable retention now x).keys = [] := by
    rw [List.eq_nil_iff_forall_not_mem]
    intro e he
    obtain ⟨x, hx, hf⟩ := (Table.mem_keys_filter d).1 he
    rw [running hx] at hf
    cases hf
  rw [process_eq, idle]
  simp only [clean, swept, kept, forgotten, List.length_nil]

end Gate

/-! ## Every gate -/

/-- Whether what a part of a step makes known of executions is one thing of each. -/
def Step.Definite : Step → Prop
  | .begin (.account executions) => executions.Distinct
  | _ => True

theorem Gate.readMail_distinct {g : Gate} (d : g.executions.Distinct) (s : Nat) (h : Handle) (now : Instant) :
    (g.readMail s h now).2.executions.Distinct := by
  have noted (state : ExecutionState) : ((g.close s).transition h.execution state none now).executions.Distinct :=
    Gate.transition_distinct (g := (g.close s)) d h.execution state none now
  unfold readMail
  split
  · exact d
  · exact d
  · rename_i sig _
    cases sig with
    | decision d' =>
      simp only [finish]
      split
      · exact d
      · exact noted _
    | expired => exact noted .timedOut
    | cancelled reason => exact noted .aborted

namespace Traffic

theorem step_noted {x : Traffic} {st : Step} (d : x.gate.executions.Distinct) (hst : st.Definite) :
    (x.step st).gate.executions.Distinct := by
  cases st with
  | begin m =>
    show (x.gate.onset m).1.executions.Distinct
    cases m with
    | deliver y d' =>
      simp only [Gate.onset]
      split <;> exact d
    | cancel e reason => exact d
    | register w =>
      simp only [Gate.onset]
      split <;> exact d
    | upkeep op quiet => exact d
    | overdue at' now => exact d
    | attach e t deadline now =>
      show (x.gate.park e t deadline now).executions.Distinct
      rw [Gate.park_executions]
      exact Gate.transition_distinct d e .waiting (some t) now
    | fire s now =>
      simp only [Gate.onset]
      split
      · exact d
      · simp only [Gate.expireFor]
        split <;> exact d
    | read s now =>
      simp only [Gate.onset]
      split
      · exact d
      · exact Gate.readMail_distinct d s _ now
    | leave s =>
      show (x.gate.unpark s).executions.Distinct
      rw [(Course.unpark_rest x.gate s).2]
      exact d
    | close s => exact d
    | account executions => exact hst
  | resume half =>
    simp only [step]
    split
    · cases half with
      | wake t sig =>
        show (x.gate.signal t sig).2.executions.Distinct
        rw [Gate.signal_executions]
        exact d
      | check t now => exact d
      | lapse t now =>
        simp only [Gate.sequel]
        split <;> exact d
      | look t => exact d
      | collect t d? => exact d
    · exact d

theorem run_noted : ∀ (steps : List Step) {x : Traffic}, x.gate.executions.Distinct → (∀ st ∈ steps, st.Definite) →
    (x.run steps).gate.executions.Distinct
  | [], _, d, _ => d
  | st :: steps, _, d, hs =>
    run_noted steps (step_noted d (hs st List.mem_cons_self)) fun st' hst => hs st' (List.mem_cons_of_mem st hst)

end Traffic

namespace Gate

/-- **A pass is complete and harmless**, whatever has been done in a gate before or is half done, and whatever the clock
reads when waits expire: it leaves nothing behind of what it is there for and changes nothing else, it reports how much
it did, and a second pass for the same instant does nothing. -/
theorem pass_complete_and_harmless {store : Store} {ttl : Span} {happens : TokenOrder} {registry : Registry}
    (opened : Registry.openStore store ttl happens = (.ok (), registry)) (issuer : Option Issuer) {steps : List Step}
    (definite : ∀ st ∈ steps, st.Definite) (now : Instant) (retention : Span) (c : Readings) :
    let g := ((Traffic.idle (.start registry issuer)).run steps).gate
    let report := (g.process now retention c).1
    let g' := (g.process now retention c).2
    g.Passed now retention c report g' ∧ ∀ c', g'.process now retention c' = (⟨0, 0, 0⟩, g') := by
  intro g report g'
  have orderly : g.Orderly := (orderly_start (Registry.openStore_sound opened) issuer).run steps
  have noted : g.executions.Distinct :=
    Traffic.run_noted steps (x := .idle (.start registry issuer)) Table.distinct_empty definite
  have passed := process_passed orderly.registry noted now retention c
  obtain ⟨sound, distinct⟩ := process_sound orderly.registry noted now retention c
  exact ⟨passed, passed.again sound distinct⟩

/-- Three waits in a pass that forgets what has ended at once: one is overdue, one is too but somebody is parked on it,
and one expired an hour ago.  The first one is kept with its execution when the clock has gone on meanwhile, and not if
it stands still. -/
theorem three_waits_passed :
    let token (job : String) : Token := Token.mint "ci" job default
    let e : ExecutionId := ⟨⟨List.replicate 32 (Text.nibble 1), List.length_replicate⟩⟩
    let now : Instant := ⟨3600, 0, by decide⟩
    let waits (job : String) (due : Instant) : Step :=
      .begin (.register { Wait.start (token job) default .epoch with job := some job, expiresAt := some due })
    let aborted : Execution := { Execution.start e none .epoch with state := .aborted }
    let steps : List Step := [waits "build" now, waits "deploy" now, waits "test" .epoch,
      .begin (.overdue .epoch fun _ => .epoch), .resume (.check (token "test") .epoch),
      .resume (.lapse (token "test") .epoch),
      .begin (.account (Table.empty.insert e aborted)), .begin (.attach default (token "deploy") none .epoch)]
    let zero : Span := .ofSeconds 0
    let registry : Registry := { Registry.empty with tombstoneTtl := zero }
    let g := ((Traffic.idle (.start registry none)).run steps).gate
    let c : Readings := .still ⟨3601, 0, by decide⟩
    let report := (g.process now zero c).1
    let g' := (g.process now zero c).2
    Registry.openStore .memory zero .byText = (.ok (), registry) ∧ (∀ st ∈ steps, st.Definite) ∧
      g.Passed now zero c report g' ∧ report = ⟨1, 1, 1⟩ ∧ (g.process now zero).1 = ⟨1, 2, 2⟩ ∧
      ∀ c', g'.process now zero c' = (⟨0, 0, 0⟩, g') := by
  intro token e now waits aborted steps zero registry g c report g'
  have definite : ∀ st ∈ steps, st.Definite := by
    simp only [steps, List.forall_mem_cons]
    refine ⟨trivial, trivial, trivial, trivial, trivial, trivial, ?_, trivial, by simp⟩
    exact Table.distinct_empty.insert _ _
  have opened : Registry.openStore .memory zero .byText = (.ok (), registry) :=
    Registry.openStore_empty rfl rfl zero .byText
  obtain ⟨passed, again⟩ := pass_complete_and_harmless opened none definite now zero c
  exact ⟨opened, definite, passed, by decide +kernel, by decide +kernel, again⟩

end Gate
end ApprovalGate
