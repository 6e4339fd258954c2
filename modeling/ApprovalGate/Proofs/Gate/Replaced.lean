import ApprovalGate.Proofs.Gate.Cancelled
import ApprovalGate.Proofs.Gate.Handles
/-!
# Handles that had to make room

A handle whose continuation was replaced is lost.  Polled, it says so and changes nothing but itself.  Dropped, it still
gives up its execution (`Gate.GivesUp`): the waits of the execution are cancelled, and the continuation that took its
place is woken if it is parked on one of them.  So dropping it changes nothing only when the execution has no wait left
and has ended (`replaced_handle_gives_up`).
-/
namespace ApprovalGate

namespace Gate

/-- What is told to the continuations of an execution whose handle is dropped. -/
def abandonment : String := "wait handle dropped"

/-- What a gate comes to in which a handle gives up an execution that has pending waits under some tokens. -/
structure GivesUp (g : Gate) (s : Nat) (e : ExecutionId) (tokens : List Token) (g' : Gate) : Prop where
  mem : ∀ t, t ∈ tokens ↔ g.registry.Awaits e t
  /-- The waits are gone with what leads to them, and nothing else is. -/
  registry : g.registry.Forgets tokens g'.registry
  waiters : ∀ t, g'.waiters.get? t = if t ∈ tokens then none else g.waiters.get? t
  /-- Who is parked on one of them is told that it is cancelled. -/
  woken : ∀ t ∈ tokens, ∀ w, g.waiters.get? t = some w → g'.handles.get? w.serial =
    (g.handles.get? w.serial).map fun h => { h with mail := .signal (.cancelled abandonment) }
  gone : g'.handles.get? s = none
  handles : ∀ k, k ≠ s → (∀ t ∈ tokens, ∀ w, g.waiters.get? t = some w → w.serial ≠ k) →
    g'.handles.get? k = g.handles.get? k
  /-- The execution is aborted, unless it had ended before or there is nothing of it at all. -/
  state : g'.state? e = match g.state? e with
    | some state => some (state.next .aborted)
    | none => if tokens = [] then none else some .aborted
  executions : ∀ e', e' ≠ e → g'.execution? e' = g.execution? e'

end Gate

namespace Forsaken

variable {g : Gate} {t : Token} {s : Nat} {h : Handle}

/-- A handle that is lost says so when it is polled, and goes, unless its timer goes off first. -/
theorem poll (fs : Forsaken g t s) (hs : g.handles.get? s = some h) {clock : Clock} {first : Bool}
    (early : h.isDue clock = false ∨ first = false) :
    g.poll s clock first = (some (.error (.waitAbandoned t.text)), g.close s) := by
  obtain ⟨rfl, hm⟩ := fs.lost h hs
  rcases early with early | rfl
  · simp [Gate.poll, Gate.readMail, hs, hm, early]
  · simp [Gate.poll, Gate.readMail, hs, hm]

/-- Nothing is parked for it that would go with it. -/
theorem unpark (fs : Forsaken g t s) : g.unpark s = g := by
  unfold Gate.unpark
  split
  · rfl
  · split
    · rename_i w hw
      exact if_neg (fs.alone _ w hw)
    · rfl

theorem drop (fs : Forsaken g t s) (hs : g.handles.get? s = some h) (now : Instant) : g.drop s now =
    ((g.cancelExecution h.execution Gate.abandonment now).2.close s).transitionKnown h.execution .aborted now := by
  rw [Course.drop_eq hs, fs.unpark]
  rfl

/-- **Dropped, a handle that is lost gives up its execution** all the same. -/
theorem givesUp (fs : Forsaken g t s) (o : g.Orderly) (hs : g.handles.get? s = some h) (now : Instant) :
    g.GivesUp s h.execution (g.registry.cancel h.execution).1 (g.drop s now) := by
  have d := o.registry.toDistinct
  obtain ⟨handles, waiters⟩ := cancelExecution_handles g h.execution Gate.abandonment now
  have registry := cancelExecution_registry g h.execution Gate.abandonment now
  have state := g.cancelExecution_state? h.execution Gate.abandonment now
  have executions {e' : ExecutionId} (he : e' ≠ h.execution) :
      (g.cancelExecution h.execution Gate.abandonment now).2.execution? e' = g.execution? e' := by
    unfold Gate.execution?
    rw [Gate.cancelExecution_executions, Gate.noteCancelled_of_ne g he]
  rw [fs.drop hs]
  generalize (g.cancelExecution h.execution Gate.abandonment now).2 = c at *
  have closed {k : Nat} (hk : k ≠ s) : (c.close s).handles.get? k = c.handles.get? k :=
    (Table.get?_erase c.handles s k).trans (if_neg hk)
  constructor
  case mem => exact fun t => Registry.mem_cancel d
  case registry =>
    rw [Gate.transitionKnown_eq]
    exact registry ▸ Registry.cancel_forgets d h.execution
  case waiters =>
    intro u
    rw [Gate.transitionKnown_eq]
    exact waiters ▸ signals_waiters _ u _ _
  case woken =>
    intro u hu w hw
    have owned : Owns { g with registry := (g.registry.cancel h.execution).2 } u w.serial := o.sole u w hw
    rw [Gate.transitionKnown_eq]
    refine (closed (fs.alone u w hw)).trans ?_
    rw [handles, signals_handles _ _ owned, if_pos ⟨hu, Option.isSome_iff_exists.2 ⟨w, hw⟩⟩]
  case gone =>
    rw [Gate.transitionKnown_eq]
    exact Table.get?_erase_self _ _
  case handles =>
    intro k hk other
    rw [Gate.transitionKnown_eq]
    refine (closed hk).trans ?_
    rw [handles]
    exact Gate.signals_handles_of_ne _ _ other
  case state =>
    rw [Gate.transitionKnown_state?, if_pos rfl]
    show (c.state? h.execution).map _ = _
    rw [state]
    cases g.state? h.execution with
    | none => by_cases ht : (g.registry.cancel h.execution).1 = [] <;> simp [ht, ExecutionState.next]
    | some state =>
      by_cases hab : some state = some .submitting ∨
        (g.registry.cancel h.execution).1 ≠ [] ∧ (some state).all (fun s => !s.isTerminal) = true
      · rw [if_pos hab]
        cases state <;> simp_all [ExecutionState.next, ExecutionState.isTerminal]
      · rw [if_neg hab]
        rfl
  case executions =>
    intro e' he
    rw [Gate.transitionKnown_execution?, if_neg he.symm]
    exact executions he

/-- Dropped, it leaves everything else as it is only if its execution has nothing to give up. -/
theorem unchanged_iff (fs : Forsaken g t s) (o : g.Orderly) (hs : g.handles.get? s = some h) (now : Instant) :
    ((g.drop s now).registry = g.registry ∧ (g.drop s now).waiters = g.waiters ∧
        ∀ e, (g.drop s now).execution? e = g.execution? e) ↔
      (∀ u, ¬g.registry.Awaits h.execution u) ∧
        ∀ state, g.state? h.execution = some state → state.isTerminal = true := by
  have up := fs.givesUp o hs now
  constructor
  · rintro ⟨registry, -, executions⟩
    refine ⟨fun u hu => ?_, fun state hstate => ?_⟩
    · have gone := up.registry.records u
      rw [if_pos ((up.mem u).2 hu), registry] at gone
      obtain ⟨r, hr, -⟩ := hu
      cases gone.symm.trans hr
    · have same : (g.drop s now).state? h.execution = some state :=
        (congrArg (Option.map Execution.state) (executions h.execution)).trans hstate
      have aborted := up.state
      rw [same, hstate] at aborted
      have next : state = state.next .aborted := Option.some.inj aborted
      by_contra running
      rw [ExecutionState.next, if_neg running] at next
      exact running (next ▸ rfl)
  · rintro ⟨free, ended⟩
    have ht : (g.registry.cancel h.execution).1 = [] :=
      List.eq_nil_iff_forall_not_mem.2 fun u hu => free u ((up.mem u).1 hu)
    have idle : (g.cancelExecution h.execution Gate.abandonment now).2 = g := by
      refine Gate.cancelExecution_idle ht (fun hsub => ?_) _ now
      cases ended _ hsub
    rw [fs.drop hs, idle]
    exact ⟨by rw [Gate.transitionKnown_eq]; rfl, by rw [Gate.transitionKnown_eq]; rfl,
      Gate.transitionKnown_of_ended (g := g.close s) ended .aborted now⟩

end Forsaken

theorem Traffic.forsaken_run {t : Token} {s : Nat} : ∀ (steps : List Step) {x : Traffic}, Forsaken x.gate t s →
    Forsaken (x.run steps).gate t s
  | [], _, fs => fs
  | st :: steps, x, fs => forsaken_run steps ((x.step_shift st).forsaken fs)

namespace Gate

/-- **A handle that had to make room is inert when it is polled, and gives up its execution when it is dropped.**
Whatever else has been done since its continuation was replaced, or is half done: it is lost; polled before its
deadline, or looking at its mail before its timer, it says so, and no more is gone than the handle.  Dropped, it ends
the pending waits of its execution and wakes who is parked on them, also the one that took its place; only if the
execution has no such wait and has ended, everything else stays as it is. -/
theorem replaced_handle_gives_up {store : Store} {ttl : Span} {happens : TokenOrder} {registry : Registry}
    (opened : Registry.openStore store ttl happens = (.ok (), registry)) (issuer : Option Issuer) (steps : List Step) :
    let x := (Traffic.idle (.start registry issuer)).run steps
    ∀ t w, x.gate.waiters.get? t = some w → ∀ e deadline now steps' h,
      let g := ((x.step (.begin (.attach e t deadline now))).run steps').gate
      g.handles.get? w.serial = some h →
        h.token = t ∧ h.mail = .lost ∧
        (∀ clock first, h.isDue clock = false ∨ first = false →
          g.poll w.serial clock first = (some (.error (.waitAbandoned t.text)), g.close w.serial)) ∧
        ∀ now', let g' := g.drop w.serial now'
          (∃ tokens, g.GivesUp w.serial h.execution tokens g') ∧
          ((g'.registry = g.registry ∧ g'.waiters = g.waiters ∧ ∀ e', g'.execution? e' = g.execution? e') ↔
            (∀ u, ¬g.registry.Awaits h.execution u) ∧
              ∀ state, g.state? h.execution = some state → state.isTerminal = true) := by
  intro x t w parked e deadline now steps' h g there
  have start : (Traffic.idle (.start registry issuer)).gate.Orderly :=
    orderly_start (Registry.openStore_sound opened) issuer
  have before : x.gate.Orderly := start.run steps
  have paired : Paired x.gate := Traffic.paired_run steps ⟨start.fresh, fun _ _ _ h => (nomatch h)⟩
  have fs : Forsaken g t w.serial :=
    Traffic.forsaken_run steps' (paired.park_forsakes before.sole parked e deadline now)
  have orderly : g.Orderly := (before.step _).run steps'
  obtain ⟨ht, hm⟩ := fs.lost h there
  exact ⟨ht, hm, fun _ _ early => fs.poll there early, fun now' =>
    ⟨⟨_, fs.givesUp orderly there now'⟩, fs.unchanged_iff orderly there now'⟩⟩

/-- Parked a second time on its wait, an execution has lost its first handle; dropping that one takes the wait away. -/
theorem dropped_after_replacement :
    let t : Token := default
    let parks : Step := .begin (.attach default t none .epoch)
    let x := (Traffic.idle (.start .empty none)).run
      [.begin (.register (.start t default .epoch)), parks, .resume (.look t)]
    let g := ((x.step parks).run [.resume (.look t)]).gate
    let g' := g.drop 1 .epoch
    Registry.openStore .memory Registry.defaultTtl .byText = (.ok (), .empty) ∧
      x.gate.waiters.get? t = some ⟨1, default⟩ ∧
      g.handles.get? 1 = some ⟨default, t, none, .lost⟩ ∧
      (∀ first, g.poll 1 ⟨.epoch, 0⟩ first = (some (.error (.waitAbandoned t.text)), g.close 1)) ∧
      (∃ tokens, g.GivesUp 1 default tokens g') ∧
      ¬(g'.registry = g.registry ∧ g'.waiters = g.waiters ∧ ∀ e, g'.execution? e = g.execution? e) := by
  intro t parks x g g'
  have parked : x.gate.waiters.get? t = some ⟨1, default⟩ := by decide +kernel
  have there : g.handles.get? 1 = some ⟨default, t, none, .lost⟩ := by decide +kernel
  obtain ⟨-, -, polled, dropped⟩ := replaced_handle_gives_up (Registry.openStore_memory .byText) none
    [.begin (.register (.start t default .epoch)), parks, .resume (.look t)] t _ parked default none .epoch
    [.resume (.look t)] _ there
  obtain ⟨up, unchanged⟩ := dropped .epoch
  refine ⟨Registry.openStore_memory .byText, parked, there, fun first => polled ⟨.epoch, 0⟩ first (.inl rfl), up,
    fun same => ?_⟩
  have waits : g.registry.Awaits default t := ⟨.ofWait (.start t default .epoch), by decide +kernel, rfl, rfl⟩
  exact (unchanged.1 same).1 t waits

/-- **Being replaced does not make a handle inert**: dropping it takes the wait away, wakes the continuation that took
its place and aborts the execution. -/
theorem replaced_handle_not_inert :
    let t : Token := default
    let parks : Step := .begin (.attach default t none .epoch)
    let steps : List Step :=
      [.begin (.register (.start t default .epoch)), parks, .resume (.look t), parks, .resume (.look t)]
    let g := ((Traffic.idle (.start .empty none)).run steps).gate
    let g' := g.drop 1 .epoch
    g.handles.get? 1 = some ⟨default, t, none, .lost⟩ ∧ g.waiters.get? t = some ⟨2, default⟩ ∧
      g.registry.records.get? t = some (.ofWait (.start t default .epoch)) ∧ g.state? default = some .waiting ∧
      g'.registry.records.get? t = none ∧ g'.waiters.get? t = none ∧
      (g'.handles.get? 2).map Handle.mail = some (.signal (.cancelled abandonment)) ∧
      g'.state? default = some .aborted := by
  decide +kernel

end Gate
end ApprovalGate
