import ApprovalGate.Proofs.Gate.Ended
import ApprovalGate.Proofs.Registry.Durable
/-!
# Cancelling an execution

A cancellation ends the pending waits of one execution and of no other one (`Gate.Cancels`).  What is left of it, in the
registry and its store, among the continuations and their handles and in what is noted of executions, is told for every
gate that runs of parts of steps lead to, and that a second cancellation finds nothing to do
(`cancelling_exact_and_idempotent`).
-/
namespace ApprovalGate

namespace Registry

/-- Whether an execution has a pending wait under a token. -/
def Awaits (g : Registry) (e : ExecutionId) (t : Token) : Prop :=
  ∃ r, g.records.get? t = some r ∧ r.isPending = true ∧ r.wait.execution = e

theorem cancel_nodup {g : Registry} (d : g.Distinct) (e : ExecutionId) : (g.cancel e).1.Nodup := by
  unfold cancel
  exact d.records.sublist (List.filter_sublist.map Prod.fst)

theorem cancel_nil {g : Registry} {e : ExecutionId} (h : (g.cancel e).1 = []) : (g.cancel e).2 = g :=
  if_pos (List.isEmpty_iff.2 h)

theorem Backed.dropRecords {origin : Store} : ∀ (ts : List Token) {g : Registry}, Backed origin g.store →
    (ts.foldl dropRecord g).store = g.store ∨ (ts.foldl dropRecord g).store.Saved
  | [], _, _ => .inl rfl
  | t :: ts, g, b => by
    obtain ⟨hok, b'⟩ := b.delete t
    rcases Backed.dropRecords ts (g := g.dropRecord t) b' with h | h
    · rw [List.foldl_cons, h]
      exact (Store.delete_ok hok).2
    · exact .inr h

/-- A record that a cancellation took away is not in the snapshot any more. -/
theorem Mirrors.cancel_saved {origin : Store} {g : Registry} {e : ExecutionId} (m : Mirrors origin g)
    (m' : Mirrors origin (g.cancel e).2) (d : g.Distinct) (ht : (g.cancel e).1 ≠ []) : (g.cancel e).2.store.Saved := by
  have dropped : (g.cancel e).2 = g.dropAll (g.cancel e).1 := if_neg fun h => ht (List.isEmpty_iff.1 h)
  have store : (g.cancel e).2.store = ((g.cancel e).1.foldl Registry.dropRecord g).store := by
    rw [dropped]
    rfl
  rw [store]
  refine (Backed.dropRecords _ m.toBacked).resolve_left fun same => ?_
  obtain ⟨t, hmem⟩ := List.exists_mem_of_ne_nil _ ht
  obtain ⟨r, hr, -⟩ := (mem_cancel d).1 hmem
  have gone : (g.cancel e).2.records.get? t = none := ((cancel_forgets d e).records t).trans (if_pos hmem)
  rw [← m'.held, store, same, m.held, hr] at gone
  cases gone

end Registry

/-! ## Gates over a store that makes every change -/

/-- A gate over a store that was `origin` at first. -/
structure Gate.Steady (origin : Store) (g : Gate) : Prop extends g.Orderly where
  mirrors : Registry.Mirrors origin g.registry

theorem Gate.Steady.step {origin : Store} {x : Traffic} (s : x.gate.Steady origin) (st : Step) :
    (x.step st).gate.Steady origin := by
  refine ⟨s.toOrderly.step st, ?_⟩
  rw [x.step_registry]
  cases x.op? st with
  | none => exact s.mirrors
  | some op => exact (Registry.perform_effect _ op).mirrors s.registry s.mirrors

theorem Gate.Steady.run {origin : Store} : ∀ (steps : List Step) {x : Traffic}, x.gate.Steady origin →
    (x.run steps).gate.Steady origin
  | [], _, s => s
  | st :: steps, _, s => Steady.run steps (s.step st)

theorem Gate.steady_start {store : Store} (made : store.Made) (reliable : store.Reliable) {ttl : Span}
    {happens : TokenOrder} {registry : Registry} (opened : Registry.openStore store ttl happens = (.ok (), registry))
    (issuer : Option Issuer) : (start registry issuer).Steady store :=
  ⟨orderly_start (Registry.openStore_sound opened) issuer, Registry.openStore_mirrored made reliable opened []⟩

/-! ## What a cancellation answers and leaves -/

namespace Gate

/-- Whether there is nothing of an execution: no pending wait, and no record of what it did. -/
def Unknown (g : Gate) (e : ExecutionId) : Prop := (∀ t, ¬g.registry.Awaits e t) ∧ g.execution? e = none

/-- What a cancellation of an execution that ended the waits under some tokens leaves of a gate. -/
structure Cancels (g : Gate) (e : ExecutionId) (reason : String) (tokens : List Token) (g' : Gate) : Prop where
  nodup : tokens.Nodup
  mem : ∀ t, t ∈ tokens ↔ g.registry.Awaits e t
  /-- Nothing else goes from the registry or from its store. -/
  records : ∀ t, g'.registry.records.get? t = if t ∈ tokens then none else g.registry.records.get? t
  stored : ∀ t, g'.registry.store.records.get? t = if t ∈ tokens then none else g.registry.store.records.get? t
  saved : tokens ≠ [] → g'.registry.store.Saved
  jobs : ∀ job t, g'.registry.jobs.get? job = some t ↔ g.registry.jobs.get? job = some t ∧ t ∉ tokens
  aliases : ∀ a t, g'.registry.aliases.get? a = some t ↔ g.registry.aliases.get? a = some t ∧ t ∉ tokens
  /-- A handle that was parked under one of the tokens has mail, and hears that it was cancelled. -/
  woken : ∀ t ∈ tokens, ∀ w h, g.waiters.get? t = some w → g.handles.get? w.serial = some h →
    g'.handles.get? w.serial = some { h with mail := .signal (.cancelled reason) } ∧
      ∀ clock first, (g'.poll w.serial clock first).1 = some (.error (.cancelled h.execution reason))
  waiters : ∀ t, g'.waiters.get? t = if t ∈ tokens then none else g.waiters.get? t
  /-- Every other handle is as it was. -/
  handles : ∀ s, (∀ t ∈ tokens, ∀ w, g.waiters.get? t = some w → w.serial ≠ s) →
    g'.handles.get? s = g.handles.get? s
  executions : ∀ e', e' ≠ e → g'.execution? e' = g.execution? e'
  /-- It is aborted if its request was out, or if it lost a wait and had not ended. -/
  own : g'.state? e =
    if g.state? e = some .submitting ∨ tokens ≠ [] ∧ (g.state? e).all (fun s => !s.isTerminal) = true then some .aborted
    else g.state? e

theorem cancelExecution_result (g : Gate) (e : ExecutionId) (reason : String) (now : Instant) :
    (g.cancelExecution e reason now).1 =
      if (g.registry.cancel e).1 = [] ∧ g.execution? e = none then .error (.executionNotFound e)
      else .ok (g.registry.cancel e).1 := by
  have known := signals_executions (.cancelled reason) (g.registry.cancel e).1
    { g with registry := (g.registry.cancel e).2 }
  unfold cancelExecution
  dsimp only [signals] at known ⊢
  generalize List.foldl _ _ (g.registry.cancel e).1 = woken at known ⊢
  rw [known]
  cases hx : g.executions.get? e with
  | some x => exact (if_neg fun h => by cases hx.symm.trans h.2).symm
  | none => by_cases ht : (g.registry.cancel e).1 = [] <;> simp [ht, execution?, hx]

/-- Mail that is there is answered with, whatever the clock, when nothing is parked for its handle. -/
theorem poll_cancelled {g : Gate} {s : Nat} {h : Handle} {reason : String} (hs : g.handles.get? s = some h)
    (hm : h.mail = .signal (.cancelled reason)) (alone : ∀ w, g.waiters.get? h.token = some w → w.serial ≠ s)
    (clock : Clock) (first : Bool) : (g.poll s clock first).1 = some (.error (.cancelled h.execution reason)) := by
  rcases poll_cases hs clock first with ⟨-, heq⟩ | ⟨-, h', hs', -, -, heq⟩
  · simp [heq, readMail, finish, hm]
  · cases hs'.symm.trans (ring_apart alone clock.now)
    simp [heq, readMail, finish, hm]

/-- A handle gets no mail from the continuations of others. -/
theorem signals_handles_of_ne (sig : Signal) {s : Nat} : ∀ (ts : List Token) {g : Gate},
    (∀ t ∈ ts, ∀ w, g.waiters.get? t = some w → w.serial ≠ s) → (g.signals ts sig).handles.get? s = g.handles.get? s
  | [], _, _ => rfl
  | t :: ts, g, hn => by
    have ih := signals_handles_of_ne sig ts (g := (g.signal t sig).2) fun u hu w hw => by
      rw [signal_waiters] at hw
      split at hw
      · cases hw
      · exact hn u (List.mem_cons_of_mem _ hu) w hw
    refine ih.trans ?_
    rw [signal_handles, if_neg]
    intro hw
    obtain ⟨w, hw, hws⟩ := Option.map_eq_some_iff.1 hw
    exact hn t List.mem_cons_self w hw hws

theorem noteCancelled_of_ne (g : Gate) {e e' : ExecutionId} (he : e' ≠ e) (tokens : List Token) (now : Instant) :
    (g.noteCancelled e tokens now).get? e' = g.executions.get? e' := by
  unfold noteCancelled
  split
  · split
    · exact Table.get?_insert_of_ne _ _ he.symm
    · rfl
  · split
    · rfl
    · exact Table.get?_insert_of_ne _ _ he.symm

theorem cancelExecution_state? (g : Gate) (e : ExecutionId) (reason : String) (now : Instant) :
    (g.cancelExecution e reason now).2.state? e =
      if g.state? e = some .submitting ∨
          (g.registry.cancel e).1 ≠ [] ∧ (g.state? e).all (fun s => !s.isTerminal) = true then some .aborted
      else g.state? e := by
  rw [state?, cancelExecution_executions, noteCancelled]
  cases hx : g.executions.get? e with
  | none => by_cases ht : (g.registry.cancel e).1 = [] <;> simp [state?_eq hx, ht, hx]
  | some x =>
    simp only [state?_eq hx, Option.map_some, Option.some.injEq, Option.all_some]
    split
    · rw [Table.get?_insert_self, Option.map_some]
    · rw [hx, Option.map_some]

theorem cancelExecution_cancels {origin : Store} {g : Gate} (st : g.Steady origin) (e : ExecutionId) (reason : String)
    (now : Instant) : g.Cancels e reason (g.registry.cancel e).1 (g.cancelExecution e reason now).2 := by
  have d := st.registry.toDistinct
  have f := Registry.cancel_forgets d e
  have mirrors : Registry.Mirrors origin (g.registry.cancel e).2 :=
    (Registry.perform_effect g.registry (.cancel e)).mirrors st.registry st.mirrors
  obtain ⟨handles, waiters⟩ := cancelExecution_handles g e reason now
  have reg := cancelExecution_registry g e reason now
  exact {
    nodup := Registry.cancel_nodup d e
    mem := fun t => Registry.mem_cancel d
    records := by
      rw [reg]
      exact f.records
    stored := fun t => by
      rw [reg, mirrors.held, st.mirrors.held]
      exact f.records t
    saved := by
      rw [reg]
      exact st.mirrors.cancel_saved mirrors d
    jobs := by
      rw [reg]
      exact f.jobs
    aliases := by
      rw [reg]
      exact f.aliases
    woken := by
      intro t ht w h hw hh
      have hs : (g.cancelExecution e reason now).2.handles.get? w.serial =
          some { h with mail := .signal (.cancelled reason) } := by
        -- nobody else is parked for this handle, so no other signal gets into its mail
        have owned : Owns { g with registry := (g.registry.cancel e).2 } t w.serial := st.sole t w hw
        rw [handles, signals_handles _ _ owned, if_pos ⟨ht, Option.isSome_iff_exists.2 ⟨w, hw⟩⟩]
        exact congrArg (Option.map _) hh
      -- what was parked for this handle was parked on the token that is cancelled
      have alone : ∀ v, (g.cancelExecution e reason now).2.waiters.get? h.token = some v → v.serial ≠ w.serial := by
        intro v hv hvs
        rw [waiters, signals_waiters] at hv
        split at hv
        · cases hv
        · rename_i hn
          exact hn ((st.sole t w hw h.token v hv).1 hvs ▸ ht)
      exact ⟨hs, fun clock first => poll_cancelled hs rfl alone clock first⟩
    waiters := fun t => by
      rw [waiters, signals_waiters]
    handles := by
      intro s hs
      rw [handles]
      exact signals_handles_of_ne _ _ hs
    executions := by
      intro e' he
      unfold execution?
      rw [cancelExecution_executions, noteCancelled_of_ne g he]
    own := g.cancelExecution_state? e reason now }

/-! ## Cancelling again -/

/-- With no wait to end and no request out there is nothing to do. -/
theorem cancelExecution_idle {g : Gate} {e : ExecutionId} (ht : (g.registry.cancel e).1 = [])
    (hs : g.state? e ≠ some .submitting) (reason : String) (now : Instant) :
    (g.cancelExecution e reason now).2 = g := by
  have noted : g.noteCancelled e [] now = g.executions := by
    unfold noteCancelled
    cases hx : g.executions.get? e with
    | none => rfl
    | some x =>
      have hs : x.state ≠ .submitting := fun h => hs (by rw [state?_eq hx, Option.map_some, h])
      simp [hs]
  rw [cancelExecution_eq, Registry.cancel_nil ht, ht, noted]
  rfl

section

variable {g g' : Gate} {e : ExecutionId} {reason : String} {tokens : List Token}

/-- After a cancellation the execution has nothing more to lose. -/
theorem Cancels.cancel_nil (c : g.Cancels e reason tokens g') (d : g'.registry.Distinct) :
    (g'.registry.cancel e).1 = [] := by
  rw [List.eq_nil_iff_forall_not_mem]
  intro t ht
  obtain ⟨r, hr, hp, he⟩ := (Registry.mem_cancel d).1 ht
  rw [c.records] at hr
  split at hr
  · cases hr
  · rename_i hn
    exact hn ((c.mem t).2 ⟨r, hr, hp, he⟩)

/-- If there was anything of the execution, it is noted, and its request is not out any more. -/
theorem Cancels.settled (c : g.Cancels e reason tokens g') (hk : ¬(tokens = [] ∧ g.state? e = none)) :
    g'.state? e ≠ none ∧ g'.state? e ≠ some .submitting := by
  rw [c.own]
  split
  · exact ⟨nofun, nofun⟩
  · rename_i hn
    refine ⟨fun h => hk ⟨?_, h⟩, fun h => hn (.inl h)⟩
    by_contra ht
    exact hn (.inr ⟨ht, by rw [h]; rfl⟩)

end

/-- **A cancellation is exact, and a second one finds nothing to do.**  It fails only for an execution that nothing is
known of and that has no pending wait, and then leaves everything as it is. -/
theorem cancelling_exact_and_idempotent {store : Store} (made : store.Made) (reliable : store.Reliable) {ttl : Span}
    {happens : TokenOrder} {registry : Registry} (opened : Registry.openStore store ttl happens = (.ok (), registry))
    (issuer : Option Issuer) (steps : List Step) (e : ExecutionId) (reason : String) (now : Instant) :
    let g := ((Traffic.idle (.start registry issuer)).run steps).gate
    let result := (g.cancelExecution e reason now).1
    let g' := (g.cancelExecution e reason now).2
    (g.Unknown e → result = .error (.executionNotFound e) ∧ g' = g) ∧
    (¬g.Unknown e → ∃ tokens, result = .ok tokens ∧ g.Cancels e reason tokens g' ∧
      ∀ reason' now', g'.cancelExecution e reason' now' = (.ok [], g')) := by
  intro g result g'
  have st : g.Steady store := Steady.run steps (steady_start made reliable opened issuer)
  have cancels : g.Cancels e reason (g.registry.cancel e).1 g' := cancelExecution_cancels st e reason now
  have hresult := g.cancelExecution_result e reason now
  have state : g.state? e = none ↔ g.execution? e = none := Option.map_eq_none_iff
  have unknown : g.Unknown e ↔ (g.registry.cancel e).1 = [] ∧ g.execution? e = none := by
    unfold Unknown
    simp only [← cancels.mem, List.eq_nil_iff_forall_not_mem]
  refine ⟨fun hu => ?_, fun hu => ?_⟩
  · obtain ⟨ht, hx⟩ := unknown.1 hu
    have hs : g.state? e ≠ some .submitting := by
      rw [state.2 hx]
      exact nofun
    exact ⟨hresult.trans (if_pos ⟨ht, hx⟩), cancelExecution_idle ht hs reason now⟩
  · rw [unknown] at hu
    refine ⟨_, hresult.trans (if_neg hu), cancels, fun reason' now' => ?_⟩
    have d : g'.registry.Distinct := by
      have sound := st.registry.happen (.call (.cancel e))
      rw [cancelExecution_registry]
      exact sound.toDistinct
    have ht := cancels.cancel_nil d
    obtain ⟨hnoted, hs⟩ := cancels.settled fun h => hu ⟨h.1, state.1 h.2⟩
    refine Prod.ext ?_ (cancelExecution_idle ht hs reason' now')
    rw [cancelExecution_result, if_neg fun h => hnoted (Option.map_eq_none_iff.2 h.2), ht]

/-- An execution with one wait that it is parked on and one that it is not, beside the wait of another one. -/
theorem two_waits_cancelled :
    let e : ExecutionId := ⟨⟨List.replicate 32 (Text.nibble 1), List.length_replicate⟩⟩
    let token (job : String) : Token := Token.mint "ci" job default
    let waits (job : String) (e : ExecutionId) : Step :=
      .begin (.register { Wait.start (token job) e .epoch with
        job := some job, aliasToken := some (token (job ++ "2")) })
    let steps : List Step :=
      [waits "build" e, waits "deploy" e, waits "test" default, .begin (.attach e (token "build") none .epoch)]
    let g := ((Traffic.idle (.start Registry.empty none)).run steps).gate
    let g' := (g.cancelExecution e "stop" .epoch).2
    Store.memory.Made ∧ Store.memory.Reliable ∧
      Registry.openStore .memory Registry.defaultTtl .byText = (.ok (), Registry.empty) ∧
      (∃ tokens, tokens.length = 2 ∧ (g.cancelExecution e "stop" .epoch).1 = .ok tokens ∧
        g.Cancels e "stop" tokens g' ∧ ∀ reason' now', g'.cancelExecution e reason' now' = (.ok [], g')) ∧
      (g'.handles.get? 1).map Handle.mail = some (.signal (.cancelled "stop")) ∧
      g'.registry.records.size = 1 ∧ g'.registry.jobs.size = 1 ∧ g'.registry.aliases.size = 1 := by
  intro e token waits steps g g'
  have reliable : Store.memory.Reliable := Store.reliable_of_memory ⟨rfl, rfl⟩ rfl
  obtain ⟨-, known⟩ := cancelling_exact_and_idempotent .memory reliable (Registry.openStore_memory .byText) none steps
    e "stop" .epoch
  have two : (g.cancelExecution e "stop" .epoch).1.toOption.map List.length = some 2 := by decide +kernel
  have hu : ¬g.Unknown e := fun h => by
    have hx : g.execution? e = none := h.2
    have : (g.execution? e).isSome = true := by decide +kernel
    rw [hx] at this
    cases this
  obtain ⟨tokens, hr, c, again⟩ := known hu
  rw [hr] at two
  exact ⟨.memory, reliable, Registry.openStore_memory .byText, ⟨tokens, Option.some.inj two, hr, c, again⟩,
    by decide +kernel, by decide +kernel, by decide +kernel, by decide +kernel⟩

end Gate

end ApprovalGate
