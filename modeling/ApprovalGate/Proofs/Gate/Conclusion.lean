import ApprovalGate.Proofs.Gate.Accord
import ApprovalGate.Proofs.Gate.Handover
/-!
# Waits and handles come to their end

Cancellations, passes over what is overdue, deadlines and callbacks keep the accord, and so do handles that answer or
are dropped.  A continuation is told of an outcome only when a wait of its own execution is over, and then its
execution is waiting: that is what nobody being parked at another execution's wait comes to (`OwnAt`).
-/
namespace ApprovalGate

open Gate (Event)
open Registry (Operation)

namespace Course

variable {x : Course} {e : ExecutionId}

/-! ## Cancellations -/

/-- An execution whose only wait was pending and is gone is bereft. -/
theorem Accord.bereft (a : x.Accord) {t : Token} {r : WaitRecord} (hr : x.gate.registry.records.get? t = some r)
    {g : Registry} (w : x.gate.registry.Wanes g) (hn : g.records.get? t = none) :
    Bereft { x with gate := { x.gate with registry := g } } r.wait.execution := by
  refine ⟨a.owners t r hr, fun u q hq he => ?_⟩
  obtain ⟨q', hq', he', -⟩ := w u q hq
  cases a.single u t q' r hq' hr (he'.symm.trans he)
  cases hn.symm.trans hq

theorem Accord.cancelExecution (a : x.Accord) (e : ExecutionId) (reason : String) (now : Instant) :
    Accord { x with gate := (x.gate.cancelExecution e reason now).2 } := by
  have d := a.sound.toDistinct
  have w : x.gate.registry.Wanes (x.gate.registry.cancel e).2 :=
    Registry.perform_wanes a.sound (.cancel e) rfl
  have a' := a.perform (.cancel e) rfl
  rw [Gate.cancelExecution_eq]
  refine Accord.signals_cancelled reason _ (a'.note (Gate.noteCancelled_distinct a.noted e _ now) fun e' => ?_)
  rcases x.gate.noteCancelled_state? e e' (x.gate.registry.cancel e).1 now with same | ⟨rfl, hab, hlost⟩
  · exact same ▸ a'.stands e'
  · refine hab ▸ ?_
    rcases hlost with hlost | hsub
    · obtain ⟨t, ht⟩ := List.exists_mem_of_ne_nil _ hlost
      obtain ⟨r, hr, hp, rfl⟩ := (Registry.mem_cancel d).1 ht
      obtain ⟨untold, unended⟩ := a.of_pending hr hp
      refine stands_aborted (a.bereft hr w ?_) untold unended
      exact ((Registry.cancel_forgets d _).records t).trans (if_pos ht)
    · exact Stands.aborted (hsub ▸ a'.stands e)

/-! ## Passes over what is overdue -/

/-- A record stays where it is through an operation that can only change it. -/
theorem perform_keeps (g : Registry) (op : Operation) (h : op.isChange = true) {u : Token} {q : WaitRecord}
    (hq : g.records.get? u = some q) : ∃ q', (g.perform op).records.get? u = some q' ∧
      q'.wait.execution = q.wait.execution ∧ (q'.isPending = true → q.isPending = true) := by
  rcases Registry.perform_change g h with heq | ⟨v, r, r', hv, b, heq⟩
  · rw [heq]
    exact ⟨q, hq, rfl, id⟩
  · rw [heq, Registry.save_get?]
    by_cases hvu : v = u
    · subst hvu
      cases hv.symm.trans hq
      exact ⟨r', if_pos rfl, b.amends.execution, b.amends.of_pending⟩
    · exact ⟨q, (if_neg hvu).trans hq, rfl, id⟩

/-- Whether a pass can see to a token: a wait is there, and if nothing is parked on it, its execution has no handle. -/
def Clear (g : Gate) (t : Token) : Prop :=
  ∃ r, g.registry.records.get? t = some r ∧ (g.hasWaiter t = false → g.Free r.wait.execution)

theorem expireOrphan_cases {g : Gate} {t : Token} {r : WaitRecord} (hr : g.registry.records.get? t = some r)
    (c : Gate.Readings) : (g.expireOrphan t c).2 = g ∨ g.hasWaiter t = false ∧ r.isPending = true ∧
      (g.expireOrphan t c).2 = { g with registry := g.registry.perform (.expire t (c.finished t)) }.transitionKnown
        r.wait.execution .timedOut (c.updated r.wait.execution) := by
  rw [Gate.expireOrphan, Registry.perform]
  cases hw : g.hasWaiter t with
  | true => exact .inl rfl
  | false =>
    rw [if_neg Bool.false_ne_true]
    rcases g.registry.expire_cases t (c.finished t) with ⟨u, q, hu, hp, heq⟩ | ⟨u, q, -, -, heq⟩ | ⟨-, heq⟩
    · have : g.registry.find? t = some (t, r) := Registry.find?_eq_some.2 ⟨hr, .inl rfl⟩
      cases this.symm.trans hu
      refine .inr ⟨rfl, hp, ?_⟩
      have hn : g.waiters.get? t = none := Option.isSome_eq_false_iff.1 hw |> Option.isNone_iff_eq_none.1
      rw [heq]
      simp only [Gate.signal, hn]
    · rw [heq]
      exact .inl rfl
    · rw [heq]
      exact .inl rfl

theorem Accord.expireOrphan (a : x.Accord) {t : Token} (hc : Clear x.gate t) (c : Gate.Readings) :
    Accord { x with gate := (x.gate.expireOrphan t c).2 } ∧
      ∀ u, Clear x.gate u → Clear (x.gate.expireOrphan t c).2 u := by
  obtain ⟨r, hr, hfree⟩ := hc
  rcases expireOrphan_cases hr c with heq | ⟨hw, hp, heq⟩
  · rw [heq]
    exact ⟨a, fun _ h => h⟩
  · have a' := a.perform (.expire t (c.finished t)) rfl
    rw [heq]
    have st := (a'.stands _).next (a.owners t r hr) (hfree hw) .timedOut
    refine ⟨a'.transitionKnown st (c.updated _), fun u ⟨q, hq, hfree'⟩ => ?_⟩
    obtain ⟨q', hq', he, -⟩ := perform_keeps x.gate.registry (.expire t (c.finished t)) rfl hq
    rw [Gate.transitionKnown_eq]
    exact ⟨q', hq', he ▸ hfree'⟩

theorem Accord.expireOrphans (c : Gate.Readings) : ∀ (ts : List Token) {x : Course}, x.Accord →
    (∀ t ∈ ts, Clear x.gate t) → Accord { x with gate := (x.gate.expireOrphans c ts).2 }
  | [], _, a, _ => a
  | t :: ts, x, a, hc => by
    obtain ⟨a', kept⟩ := a.expireOrphan (hc t List.mem_cons_self) c
    exact Accord.expireOrphans c ts a' fun u hu => kept u (hc u (List.mem_cons_of_mem t hu))

theorem mem_handles {g : Gate} {s : Nat} {h : Handle} (hs : g.handles.get? s = some h) : h ∈ g.handles.values :=
  List.mem_map.2 ⟨(s, h), Table.mem_of_find hs, rfl⟩

theorem owner?_of_find? {g : Registry} {t u : Token} {r : WaitRecord} (h : g.find? t = some (u, r)) :
    g.owner? t = some r.wait.execution := by
  rw [Registry.owner?, Registry.get?, h]
  rfl

theorem Accord.expireOverdue (a : x.Accord) {at' : Instant} {c : Gate.Readings}
    (hn : ¬x.Overtakes (.call (.expireOverdue at' c))) :
    Accord { x with gate := (x.gate.expireOverdue at' c).2 } := by
  refine Accord.expireOrphans c _ a fun t ht => ?_
  obtain ⟨r, hr, -⟩ := (Registry.mem_overdue a.sound.toDistinct).1 ht
  refine ⟨r, hr, fun hw s h hs he => hn ⟨at', rfl, t, ht, hw, h, mem_handles hs, ?_⟩⟩
  rw [owner?_of_find? (Registry.find?_eq_some.2 ⟨hr, .inl rfl⟩), he]

/-! ## Telling continuations -/

/-- Whether what is parked on a token belongs to the execution whose wait is there, if there is one. -/
def OwnAt (x : Course) (t : Token) : Prop := ∀ w h, x.gate.waiters.get? t = some w →
  x.gate.handles.get? w.serial = some h → x.gate.registry.LeadsOnlyTo t h.execution

theorem Accord.ownAt (a : x.Accord) {ev : Event} (ap : x.Apart ev) (t : Token) : x.OwnAt t := fun w h hw hs => by
  obtain ⟨rfl, hm⟩ := a.tidy.parked t w h hw hs
  exact ap.1 h (mem_handles hs) hm

theorem OwnAt.canTell {t u : Token} (o : x.OwnAt t) {r r' : WaitRecord}
    (hf : x.gate.registry.find? t = some (u, r)) {g : Registry} (hu : g.records.get? u = some r')
    (he : r'.wait.execution = r.wait.execution) (hp : r'.isPending = false) :
    CanTell { x with gate := { x.gate with registry := g } } t := fun w h hw hs =>
  ⟨u, r', hu, he.trans (o w h hw hs _ (owner?_of_find? hf)), hp⟩

theorem Accord.settle (a : x.Accord) {t : Token} (o : x.OwnAt t) :
    Accord { x with gate := x.gate.settle t } := by
  rw [Gate.settle]
  cases hx : x.gate.registry.get? t with
  | none => exact a.signal_cancelled t _
  | some r =>
    obtain ⟨⟨u, r⟩, hf, rfl⟩ := Option.map_eq_some_iff.1 hx
    have hu := Registry.find?_records hf
    simp only
    cases hs : r.status with
    | pending => exact a
    | resolved =>
      have a' := a.perform (.takeDecision t) rfl
      obtain ⟨r', hr', he, hp⟩ := perform_keeps x.gate.registry (.takeDecision t) rfl hu
      have settled : r'.isPending = false := by
        rw [← Bool.not_eq_true]
        intro hp'
        cases (WaitRecord.isPending_iff.1 (hp hp')).symm.trans hs
      simp only
      split
      · exact a'.signal fun _ => o.canTell hf hr' he settled
      · exact a'
    | expired =>
      have settled : r.isPending = false := by
        rw [← Bool.not_eq_true, WaitRecord.isPending_iff, hs]
        exact fun h => by cases h
      exact a.signal fun _ => o.canTell hf hu rfl settled
    | cancelled => exact a.signal_cancelled t _

theorem Accord.onDeadline (a : x.Accord) {t : Token} (o : x.OwnAt t) (now : Instant) :
    Accord { x with gate := x.gate.onDeadline t now } := by
  rw [Gate.onDeadline]
  rcases x.gate.registry.expire_cases t now with ⟨u, r, hf, hp, heq⟩ | ⟨u, r, -, -, heq⟩ | ⟨-, heq⟩
  · have a' := a.perform (.expire t now) rfl
    rw [Registry.perform, heq] at a'
    rw [heq]
    have hu : (x.gate.registry.save u (r.finish .expired now)).records.get? u = some (r.finish .expired now) := by
      rw [Registry.save_get?, if_pos rfl]
    exact a'.signal fun _ => o.canTell hf hu rfl rfl
  · rw [heq]
    exact a.settle o
  · rw [heq]
    exact a.settle o

/-- A callback changes the registry, and tells a continuation only of a decision that ended the wait. -/
theorem receive_cases (g : Gate) (address : String) (body : ByteArray) (contentType : Option String) (now : Instant) :
    (g.receive address body contentType now).2 = g ∨ ∃ t d,
      (g.receive address body contentType now).2 = { g with registry := g.registry.perform (.resolve t d) } ∨
      ∃ u r, g.registry.find? t = some (u, r) ∧
        g.registry.perform (.resolve t d) =
          g.registry.save u { r.finish .resolved d.receivedAt with decision := some d } ∧
        (g.receive address body contentType now).2 =
          (Gate.signal { g with registry := g.registry.perform (.resolve t d) } t (.decision d)).2 := by
  rw [Gate.receive]
  cases Token.parse? address with
  | none => exact .inl rfl
  | some x =>
    simp only [Gate.record]
    cases Gate.takesDelivery (g.registry.get? (g.registry.canonical x)) with
    | false => exact .inl rfl
    | true =>
      cases Callback.parseDecision (g.registry.canonical x) body contentType now with
      | error f => exact .inl rfl
      | ok d =>
        simp only [Bool.not_true, Bool.false_eq_true, if_false]
        refine .inr ⟨g.registry.canonical x, d, ?_⟩
        rw [Registry.perform]
        rcases g.registry.resolve_cases (g.registry.canonical x) d with
          ⟨u, r, hf, -, -, heq⟩ | ⟨u, r, -, -, -, heq⟩ | ⟨u, r, -, hs, heq⟩ | ⟨-, heq⟩
        · rw [heq]
          exact .inr ⟨u, r, hf, rfl, rfl⟩
        · rw [heq]
          exact .inl rfl
        · rw [heq]
          rcases hs with hs | hs <;> rw [hs] <;> exact .inl rfl
        · rw [heq]
          exact .inl rfl

theorem Accord.receive (a : x.Accord) (o : ∀ t, x.OwnAt t) (address : String) (body : ByteArray)
    (contentType : Option String) (now : Instant) :
    Accord { x with gate := (x.gate.receive address body contentType now).2 } := by
  rcases receive_cases x.gate address body contentType now with heq | ⟨t, d, heq | ⟨u, r, hf, hsave, heq⟩⟩
  · rw [heq]
    exact a
  · rw [heq]
    exact a.perform (.resolve t d) rfl
  · rw [heq]
    have a' := a.perform (.resolve t d) rfl
    have hu : (x.gate.registry.perform (.resolve t d)).records.get? u =
        some { r.finish .resolved d.receivedAt with decision := some d } := by
      rw [hsave, Registry.save_get?, if_pos rfl]
    exact a'.signal fun _ => (o t).canTell hf hu rfl rfl

/-! ## Handles come to their end -/

theorem signals_execution (sig : Signal) (s : Nat) : ∀ (ts : List Token) (g : Gate),
    ((g.signals ts sig).handles.get? s).map Handle.execution = (g.handles.get? s).map Handle.execution
  | [], _ => rfl
  | t :: ts, g => (signals_execution sig s ts _).trans (g.signal_keeps (fun _ _ => rfl) t sig s)

theorem WaitOutcome.state_terminal (o : WaitOutcome) : o.state.isTerminal = true := by cases o <;> rfl

/-- **The last handle of an execution is gone**, and what is noted says how. -/
theorem Accord.conclude (a : x.Accord) (l : x.Loose e) {s : ExecutionState} (ht : s.isTerminal = true)
    (hd : s = .aborted ∨ x.Decided e) {executions : Table ExecutionId Execution} (d : executions.Distinct)
    (same : ∀ e', e ≠ e' → Gate.state? { x.gate with executions } e' = x.gate.state? e')
    (hs : x.Shows e (Gate.state? { x.gate with executions } e) s) :
    Accord { x with gate := { x.gate with executions }, ends := (e, s) :: x.ends } := by
  have a' := a.note d fun e' => by
    by_cases he : e = e'
    · exact he ▸ l.stands _
    · exact same e' he ▸ a.stands e'
  refine { a' with ends := fun e' s' hs' => ?_, stands := fun e' => ?_ }
  · rcases List.mem_cons.1 hs' with heq | hs'
    · cases heq
      exact ⟨l.1, l.2.1, l.2.2.1⟩
    · exact a'.ends e' s' hs'
  · have st := a'.stands e'
    refine { st with ended := fun s' hs' => ?_ }
    rcases List.mem_cons.1 hs' with heq | hs'
    · cases heq
      exact ⟨ht, hd, hs⟩
    · exact st.ended s' hs'

/-- A handle that answers leaves its execution in the state of what it answers. -/
theorem Accord.answer (a : x.Accord) {k : Nat} {h : Handle} (hk : x.gate.handles.get? k = some h)
    {s : ExecutionState} (ht : s.isTerminal = true) (hd : s = .aborted ∨ h.mail.isOutcome = true) {g : Registry}
    (sound : g.Sound) (w : x.gate.registry.Wanes g) (now : Instant) :
    Accord { x with
      gate := Gate.transition { x.gate.close k with registry := g } h.execution s none now
      ends := (h.execution, s) :: x.ends } := by
  have a' := (a.close k).wane (g := g) sound w
  have st := a.stands h.execution
  refine a'.conclude (a.loose_close hk) ht (hd.imp_right fun hm => ?_)
    (Gate.transition_distinct a.noted _ _ _ now) (fun e' he => ?_) (.inl ?_)
  · exact (st.told k h hk rfl hm).2.wane (wanes_of_registry w h.execution)
  · exact (Gate.transition_state? _ _ e' s none now).trans (if_neg he)
  · refine (Gate.transition_state? { x.gate.close k with registry := g } _ _ s none now).trans ?_
    rw [if_pos rfl, Gate.moved]
    show some (((x.gate.state? h.execution).map fun s' => s'.next s).getD s) = some s
    rcases hd with rfl | hm
    · rcases st.parked k h hk rfl with hw | ⟨-, hw | ⟨hw, -⟩⟩ <;> rw [hw] <;> rfl
    · rw [(st.told k h hk rfl hm).1]
      rfl

theorem Accord.readMail (a : x.Accord) {k : Nat} {h : Handle} (hk : x.gate.handles.get? k = some h) (now : Instant) :
    Accord { x with
      gate := (x.gate.readMail k h now).2
      ends := (Gate.endOf? h.execution (x.gate.readMail k h now).1).toList ++ x.ends } := by
  rw [Gate.readMail]
  cases hm : h.mail with
  | none => exact a
  | lost => exact a.close k
  | signal sig =>
    cases sig with
    | decision d =>
      simp only [Gate.finish]
      cases WaitOutcome.ofDecision? d with
      | none => exact a.close k
      | some o =>
        exact a.answer hk (WaitOutcome.state_terminal o) (.inr (by rw [hm]; rfl))
          (a.sound.happen (.call (.markDelivered h.token)))
          (Registry.perform_wanes a.sound (.markDelivered h.token) rfl) now
    | expired => exact a.answer hk rfl (.inr (by rw [hm]; rfl)) a.sound (Registry.wanes_refl _) now
    | cancelled reason => exact a.answer hk rfl (.inl rfl) a.sound (Registry.wanes_refl _) now

theorem Accord.poll (a : x.Accord) (o : ∀ t, x.OwnAt t) (k : Nat) (clock : Clock) (first : Bool) :
    Accord (x.happen (.call (.poll k clock first))) := by
  show Accord { x with
    gate := (x.gate.poll k clock first).2
    ends := ((x.gate.handles.get? k).bind fun h =>
      Gate.endOf? h.execution (x.gate.poll k clock first).1).toList ++ x.ends }
  cases hk : x.gate.handles.get? k with
  | none =>
    rw [Gate.poll, hk]
    exact a
  | some h =>
    rcases Gate.poll_cases hk clock first with ⟨-, heq⟩ | ⟨-, h', hk', he, -, heq⟩
    · rw [heq, Option.bind_some]
      exact a.readMail hk clock.now
    · suffices rung : Accord { x with gate := x.gate.ring k h clock.now } by
        rw [heq, Option.bind_some, ← he]
        exact rung.readMail hk' clock.now
      have sh : Shift x.gate (.begin (.fire k clock.now)) { x.gate with
          handles := x.gate.handles.insert k { h with deadline := none } } := .fire hk rfl rfl rfl
      have fired := a.shift sh rfl rfl rfl fun _ _ h => by cases h
      refine fired.onDeadline (fun w h' hw hs => ?_) clock.now
      have hs : (x.gate.handles.insert k { h with deadline := none }).get? w.serial = some h' := hs
      rw [Table.get?_insert] at hs
      split at hs
      · rename_i heq
        cases hs
        exact o h.token w h hw (heq ▸ hk)
      · exact o h.token w h' hw hs

theorem unpark_rest (g : Gate) (k : Nat) :
    (g.unpark k).registry = g.registry ∧ (g.unpark k).executions = g.executions := by
  rw [Gate.unpark]
  split
  · exact ⟨rfl, rfl⟩
  · split
    · split <;> exact ⟨rfl, rfl⟩
    · exact ⟨rfl, rfl⟩

theorem drop_eq {g : Gate} {k : Nat} {h : Handle} (hk : g.handles.get? k = some h) (now : Instant) :
    g.drop k now = (((g.unpark k).cancelExecution h.execution "wait handle dropped" now).2.close k).transitionKnown
      h.execution .aborted now := by
  cases hw : g.waiters.get? h.token <;> simp only [Gate.drop, Gate.unpark, hk, hw]

theorem Accord.drop (a : x.Accord) (k : Nat) (now : Instant) : Accord (x.happen (.drop k now)) := by
  show Accord { x with
    gate := x.gate.drop k now
    ends := ((x.gate.handles.get? k).map fun h => (h.execution, ExecutionState.aborted)).toList ++ x.ends }
  cases hk : x.gate.handles.get? k with
  | none =>
    rw [Gate.drop, hk]
    exact a
  | some h =>
    have left : Accord { x with gate := x.gate.unpark k } :=
      a.shift (.leave k) rfl (unpark_rest x.gate k).1 (unpark_rest x.gate k).2 fun _ _ h => by cases h
    have gone := left.cancelExecution h.execution "wait handle dropped" now
    -- the handle is still there, whatever it was told
    have same : (((x.gate.unpark k).cancelExecution h.execution "wait handle dropped" now).2.handles.get? k).map
        Handle.execution = some h.execution := by
      rw [Gate.cancelExecution_eq, signals_execution, Gate.unpark_handles, hk]
      rfl
    rw [drop_eq hk]
    generalize ((x.gate.unpark k).cancelExecution h.execution "wait handle dropped" now).2 = g at gone same ⊢
    obtain ⟨h', hk', he⟩ := Option.map_eq_some_iff.1 same
    have st := gone.stands h.execution
    rw [Gate.transitionKnown_eq]
    refine (gone.close k).conclude (he ▸ gone.loose_close hk') rfl (.inl rfl)
      (Gate.transitionKnown_distinct (gone.close k).noted _ _ now) (fun e' hne => ?_) ?_
    · exact ((g.close k).transitionKnown_state? _ e' .aborted now).trans (if_neg hne)
    · have hs : ((g.close k).transitionKnown h.execution .aborted now).state? h.execution =
          (g.state? h.execution).map fun s => s.next .aborted :=
        ((g.close k).transitionKnown_state? _ _ .aborted now).trans (if_pos rfl)
      rcases st.parked k h' hk' he with hw | ⟨-, hw | ⟨hw, hsw⟩⟩
      · exact .inl (hs.trans (by rw [hw]; rfl))
      · exact .inl (hs.trans (by rw [hw]; rfl))
      · exact .inr ⟨hs.trans (by rw [hw]; rfl), hsw⟩

end Course
end ApprovalGate
