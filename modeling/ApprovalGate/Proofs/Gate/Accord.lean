import ApprovalGate.Proofs.Gate.Course
import ApprovalGate.Proofs.Gate.Handles
import ApprovalGate.Proofs.Gate.Reattach
/-!
# What executions are noted to be

While an execution is parked, it is noted as waiting, or its wait is gone and it can only be told so; once its handle
has an outcome to read, nothing that happens notes anything else of it before the handle does (`Accord`).  Each way in
which an event changes a gate keeps this: its registry, its handles and what is noted, one at a time.
-/
namespace ApprovalGate

open Registry (Operation)

/-- Whether a signal is answered with an outcome: the wait ended, and was not just given up. -/
def Signal.isOutcome : Signal → Bool
  | .decision _ | .expired => true
  | .cancelled _ => false

def Mail.isOutcome : Mail → Bool
  | .signal s => s.isOutcome
  | .none | .lost => false

/-- Whether a part of a step parks an execution. -/
def Step.isAttach : Step → Bool
  | .begin (.attach _ _ _ _) => true
  | _ => false

/-! ## Handles -/

/-- Every execution has one handle at most, and what is parked on a token belongs to a handle there that has not been
told anything. -/
structure Tidy (g : Gate) : Prop where
  fresh : Fresh g
  parked : ∀ t w h, g.waiters.get? t = some w → g.handles.get? w.serial = some h → h.token = t ∧ h.mail = .none
  alone : ∀ s s' h h', g.handles.get? s = some h → g.handles.get? s' = some h' → h.execution = h'.execution → s = s'

/-- Handles have nothing to do with the registry, nor with what is noted. -/
theorem Tidy.rest {g : Gate} (ti : Tidy g) (registry : Registry) (executions : Table ExecutionId Execution) :
    Tidy { g with registry, executions } :=
  ⟨⟨ti.fresh.waiters, ti.fresh.handles⟩, ti.parked, ti.alone⟩

/-- Whether an execution has no handle. -/
def Gate.Free (g : Gate) (e : ExecutionId) : Prop := ∀ s h, g.handles.get? s = some h → h.execution ≠ e

/-- A part of a step that parks nothing leaves handles as they are, except for their deadline and their mail. -/
theorem Shift.handle {g h : Gate} {st : Step} (sh : Shift g st h) (hst : st.isAttach = false) {s : Nat} {hd' : Handle}
    (hs : h.handles.get? s = some hd') : ∃ hd, g.handles.get? s = some hd ∧ hd'.execution = hd.execution ∧
      hd'.token = hd.token ∧
      (hd'.mail = hd.mail ∨ ∃ t sig w, st = .resume (.wake t sig) ∧ h = (g.signal t sig).2 ∧
        hd'.mail = .signal sig ∧ g.waiters.get? t = some w ∧ w.serial = s) := by
  cases sh.origin hs with
  | parked => cases hst
  | same hs' => exact ⟨hd', hs', rfl, rfl, .inl rfl⟩
  | rung now hs' => exact ⟨_, hs', rfl, rfl, .inl rfl⟩
  | replaced => cases hst
  | @woken t sig _ hd w hs' hw hws => exact ⟨hd, hs', rfl, rfl, .inr ⟨t, sig, w, rfl, rfl, rfl, hw, hws⟩⟩

theorem Tidy.paired {g : Gate} (ti : Tidy g) : Paired g := ⟨ti.fresh, ti.parked⟩

theorem Shift.tidy {g h : Gate} {st : Step} (sh : Shift g st h) (ti : Tidy g) (hst : st.isAttach = false) :
    Tidy h := by
  refine ⟨sh.fresh ti.fresh, (sh.paired ti.paired).parked, fun s s' hd hd' hs hs' he => ?_⟩
  obtain ⟨hd₁, hs₁, he₁, -⟩ := sh.handle hst hs
  obtain ⟨hd₂, hs₂, he₂, -⟩ := sh.handle hst hs'
  exact ti.alone s s' hd₁ hd₂ hs₁ hs₂ (he₁.symm.trans (he.trans he₂))

/-- A handle after parking is the new one, or was there before and may have been made to give way. -/
theorem Gate.park_handle {g : Gate} {e : ExecutionId} {t : Token} {deadline : Option Nat} {now : Instant} {s : Nat}
    {hd : Handle} (hs : (g.park e t deadline now).handles.get? s = some hd) :
    s = g.nextSerial ∧ hd = ⟨e, t, deadline, .none⟩ ∨ ∃ hd', g.handles.get? s = some hd' ∧
      hd.execution = hd'.execution ∧ hd.token = hd'.token ∧
      (hd.mail = hd'.mail ∨ hd.mail = .lost ∧ (g.waiters.get? t).map Waiter.serial = some s) := by
  cases (Shift.attach e t deadline now).origin hs with
  | parked => exact .inl ⟨rfl, rfl⟩
  | same hs' => exact .inr ⟨hd, hs', rfl, rfl, .inl rfl⟩
  | replaced hs' hw hws => exact .inr ⟨_, hs', rfl, rfl, .inr ⟨rfl, Option.map_eq_some_iff.2 ⟨_, hw, hws⟩⟩⟩

theorem Tidy.park {g : Gate} (ti : Tidy g) {e : ExecutionId} (free : g.Free e) (t : Token) (deadline : Option Nat)
    (now : Instant) : Tidy (g.park e t deadline now) := by
  have sh : Shift g (.begin (.attach e t deadline now)) (g.park e t deadline now) := .attach e t deadline now
  refine ⟨sh.fresh ti.fresh, (sh.paired ti.paired).parked, fun s s' hd hd' hs hs' he => ?_⟩
  rcases Gate.park_handle hs with ⟨rfl, rfl⟩ | ⟨hd₁, hs₁, he₁, -⟩
  · rcases Gate.park_handle hs' with ⟨rfl, -⟩ | ⟨hd₂, hs₂, he₂, -⟩
    · rfl
    · exact absurd (he.trans he₂).symm (free s' hd₂ hs₂)
  · rcases Gate.park_handle hs' with ⟨rfl, rfl⟩ | ⟨hd₂, hs₂, he₂, -⟩
    · exact absurd (he₁.symm.trans he) (free s hd₁ hs₁)
    · exact ti.alone s s' hd₁ hd₂ hs₁ hs₂ (he₁.symm.trans (he.trans he₂))

/-! ## Registries in which waits end -/

/-- Whether the records of a registry are those of another one, still of the same executions, and no wait that was over
is pending again. -/
def Registry.Wanes (g h : Registry) : Prop := ∀ t r', h.records.get? t = some r' → ∃ r, g.records.get? t = some r ∧
  r'.wait.execution = r.wait.execution ∧ (r'.isPending = true → r.isPending = true)

namespace Registry

theorem wanes_refl (g : Registry) : g.Wanes g := fun _ r h => ⟨r, h, rfl, id⟩

def Operation.isRegistration : Operation → Bool
  | .register _ => true
  | _ => false

/-- Only a registration brings a wait. -/
theorem perform_wanes {g : Registry} (s : g.Sound) (op : Operation) (hop : op.isRegistration = false) :
    g.Wanes (g.perform op) := fun t r' hr => by
  cases perform_records s op hr with
  | held h => exact ⟨r', h, rfl, id⟩
  | fresh h _ _ =>
    subst h
    cases hop
  | changed h b => exact ⟨_, h, b.amends.execution, b.amends.of_pending⟩

end Registry

/-! ## The accord -/

namespace Course

variable {x : Course} {e : ExecutionId}

/-- Whether an execution had a wait, and it is not pending any more. -/
def Decided (x : Course) (e : ExecutionId) : Prop := e ∈ x.owners ∧
  ∀ t r, x.gate.registry.records.get? t = some r → r.wait.execution = e → r.isPending = false

/-- Whether an execution had a wait, and nothing is left of it. -/
def Bereft (x : Course) (e : ExecutionId) : Prop := e ∈ x.owners ∧
  ∀ t r, x.gate.registry.records.get? t = some r → r.wait.execution ≠ e

/-- Whether an execution has a state, unless a sweep took its record away. -/
def Shows (x : Course) (e : ExecutionId) (s? : Option ExecutionState) (s : ExecutionState) : Prop :=
  s? = some s ∨ s? = none ∧ e ∈ x.swept

/-- What can be noted of an execution at some point of a course. -/
structure Stands (x : Course) (e : ExecutionId) (s? : Option ExecutionState) : Prop where
  unused : e ∉ x.used → s? = none ∨ s? = some .aborted ∧ x.Bereft e
  flying : e ∈ x.flights → e ∉ x.owners → s? = none ∨ s? = some .submitting ∨ s? = some .aborted
  parked : ∀ s h, x.gate.handles.get? s = some h → h.execution = e →
    s? = some .waiting ∨ x.Bereft e ∧ x.Shows e s? .aborted
  told : ∀ s h, x.gate.handles.get? s = some h → h.execution = e → h.mail.isOutcome = true →
    s? = some .waiting ∧ x.Decided e
  ended : ∀ s, (e, s) ∈ x.ends → s.isTerminal = true ∧ (s = .aborted ∨ x.Decided e) ∧ x.Shows e s? s

/-- **What holds all along an orderly course.** -/
structure Accord (x : Course) : Prop where
  sound : x.gate.registry.Sound
  single : x.gate.registry.Single
  owners : ∀ t r, x.gate.registry.records.get? t = some r → r.wait.execution ∈ x.owners
  noted : x.gate.executions.Distinct
  tidy : Tidy x.gate
  used : ∀ s h, x.gate.handles.get? s = some h → h.execution ∈ x.used
  flights : ∀ e ∈ x.flights, e ∈ x.used ∧ x.gate.Free e
  ends : ∀ e s, (e, s) ∈ x.ends → e ∈ x.used ∧ e ∉ x.flights ∧ x.gate.Free e
  stands : ∀ e, x.Stands e (x.gate.state? e)

/-! ## The registry changes -/

/-- Whether an execution that had a wait at some point of a course still counts as one that had, and has only waits
in a registry that it had then, none of them pending again. -/
def Wanes (x : Course) (g : Registry) (owners : List ExecutionId) (e : ExecutionId) : Prop := e ∈ x.owners →
  e ∈ owners ∧ ∀ t r', g.records.get? t = some r' → r'.wait.execution = e →
    ∃ r, x.gate.registry.records.get? t = some r ∧ r.wait.execution = e ∧ (r'.isPending = true → r.isPending = true)

theorem wanes_of_registry {g : Registry} (w : x.gate.registry.Wanes g) (e : ExecutionId) :
    x.Wanes g x.owners e := fun ho => ⟨ho, fun t r' hr he => by
  obtain ⟨r, hr', he', hp⟩ := w t r' hr
  exact ⟨r, hr', he'.symm.trans he, hp⟩⟩

theorem wanes_of_eq {g : Gate} (h : g.registry = x.gate.registry) (e : ExecutionId) :
    x.Wanes g.registry x.owners e :=
  wanes_of_registry (h ▸ Registry.wanes_refl _) e

theorem Decided.wane (d : x.Decided e) {g : Gate} {owners : List ExecutionId} (w : x.Wanes g.registry owners e) :
    Decided { x with gate := g, owners } e := by
  obtain ⟨ho, hw⟩ := w d.1
  refine ⟨ho, fun t r' hr he => ?_⟩
  obtain ⟨r, hr', he', hp⟩ := hw t r' hr he
  rw [← Bool.not_eq_true]
  intro hp'
  cases (hp hp').symm.trans (d.2 t r hr' he')

theorem Bereft.wane (b : x.Bereft e) {g : Gate} {owners : List ExecutionId} (w : x.Wanes g.registry owners e) :
    Bereft { x with gate := g, owners } e := by
  obtain ⟨ho, hw⟩ := w b.1
  refine ⟨ho, fun t r' hr he => ?_⟩
  obtain ⟨r, hr', he', -⟩ := hw t r' hr he
  exact b.2 t r hr' he'

/-- What can be noted of an execution stays so when its waits end and it gets no other handle, as long as its handles
are told of outcomes only while it is waiting and after its wait is over. -/
theorem Stands.wane {s? : Option ExecutionState} (st : x.Stands e s?) {g : Gate} {owners : List ExecutionId}
    (w : x.Wanes g.registry owners e)
    (handles : ∀ s h', g.handles.get? s = some h' → h'.execution = e →
      ∃ h, x.gate.handles.get? s = some h ∧ h.execution = e)
    (told : ∀ s h', g.handles.get? s = some h' → h'.execution = e → h'.mail.isOutcome = true →
      s? = some .waiting ∧ x.Decided e) :
    Stands { x with gate := g, owners } e s? where
  unused hu := (st.unused hu).imp_right (And.imp_right (·.wane w))
  flying hf hn := st.flying hf fun ho => hn (w ho).1
  parked s h' hs he := by
    obtain ⟨h, hs', he'⟩ := handles s h' hs he
    exact (st.parked s h hs' he').imp_right (And.imp_left (·.wane w))
  told s h' hs he hm := (told s h' hs he hm).imp_right (·.wane w)
  ended s hs := (st.ended s hs).imp_right (And.imp_left (Or.imp_right (·.wane w)))

theorem Accord.wane (a : x.Accord) {g : Registry} (s : g.Sound) (w : x.gate.registry.Wanes g) :
    Accord { x with gate := { x.gate with registry := g } } := by
  refine { a with
    sound := s
    single := fun t t' r r' hr hr' he => ?_
    owners := fun t r hr => ?_
    tidy := a.tidy.rest g _
    stands := fun e =>
      (a.stands e).wane (wanes_of_registry w e) (fun _ h hs he => ⟨h, hs, he⟩) (a.stands e).told }
  · obtain ⟨q, hq, hqe, -⟩ := w t r hr
    obtain ⟨q', hq', hqe', -⟩ := w t' r' hr'
    exact a.single t t' q q' hq hq' (hqe.symm.trans (he.trans hqe'))
  · obtain ⟨q, hq, hqe, -⟩ := w t r hr
    exact hqe ▸ a.owners t q hq

theorem Accord.perform (a : x.Accord) (op : Operation) (hop : op.isRegistration = false) :
    Accord { x with gate := { x.gate with registry := x.gate.registry.perform op } } :=
  a.wane (a.sound.happen (.call op)) (Registry.perform_wanes a.sound op hop)

/-! ## Something else is noted -/

theorem Accord.note (a : x.Accord) {executions : Table ExecutionId Execution} (d : executions.Distinct)
    (hs : ∀ e, x.Stands e (Gate.state? { x.gate with executions } e)) :
    Accord { x with gate := { x.gate with executions } } :=
  { a with
    noted := d
    tidy := a.tidy.rest _ executions
    stands := fun e => { hs e with } }

theorem Accord.transition (a : x.Accord) {s : ExecutionState} (hs : x.Stands e (some (x.gate.moved e s)))
    (t : Option Token) (now : Instant) : Accord { x with gate := x.gate.transition e s t now } := by
  refine a.note (Gate.transition_distinct a.noted e s t now) fun e' => ?_
  show x.Stands e' ((x.gate.transition e s t now).state? e')
  rw [Gate.transition_state?]
  split
  · rename_i he
    exact he ▸ hs
  · exact a.stands e'

theorem Accord.transitionKnown (a : x.Accord) {s : ExecutionState}
    (hs : x.Stands e ((x.gate.state? e).map fun s' => s'.next s)) (now : Instant) :
    Accord { x with gate := x.gate.transitionKnown e s now } := by
  rw [Gate.transitionKnown_eq]
  refine a.note (Gate.transitionKnown_distinct a.noted e s now) fun e' => ?_
  show x.Stands e' ((x.gate.transitionKnown e s now).state? e')
  rw [Gate.transitionKnown_state?]
  split
  · rename_i he
    exact he ▸ hs
  · exact a.stands e'

/-- Whether an execution was used, its request is not out, and it has no handle, nor one that came to its end. -/
def Loose (x : Course) (e : ExecutionId) : Prop :=
  e ∈ x.used ∧ e ∉ x.flights ∧ x.gate.Free e ∧ ∀ s, (e, s) ∉ x.ends

/-- Anything can be noted of such an execution. -/
theorem Loose.stands (l : x.Loose e) (s? : Option ExecutionState) : x.Stands e s? := by
  obtain ⟨hu, hf, free, hn⟩ := l
  exact {
    unused := fun h => absurd hu h
    flying := fun h => absurd h hf
    parked := fun s h hs he => absurd he (free s h hs)
    told := fun s h hs he => absurd he (free s h hs)
    ended := fun s hs => absurd hs (hn s) }

/-- An execution that is bereft can be noted as aborted, unless an outcome has come to its handle. -/
theorem stands_aborted (b : x.Bereft e)
    (untold : ∀ s h, x.gate.handles.get? s = some h → h.execution = e → h.mail.isOutcome = false)
    (unended : ∀ s, (e, s) ∈ x.ends → s = .aborted) : x.Stands e (some .aborted) where
  unused _ := .inr ⟨rfl, b⟩
  flying _ h := absurd b.1 h
  parked _ _ _ _ := .inr ⟨b, .inl rfl⟩
  told s h hs he hm := absurd hm (by rw [untold s h hs he]; exact Bool.false_ne_true)
  ended s hs := by
    cases unended s hs
    exact ⟨rfl, .inl rfl, .inl rfl⟩

/-- An execution whose request is out can be noted as aborted. -/
theorem Stands.aborted (st : x.Stands e (some .submitting)) : x.Stands e (some .aborted) where
  unused hu := by
    rcases st.unused hu with h | ⟨h, -⟩
    · cases h
    · cases h
  flying _ _ := .inr (.inr rfl)
  parked s h hs he := by
    rcases st.parked s h hs he with h | ⟨-, h | ⟨h, -⟩⟩
    · cases h
    · cases h
    · cases h
  told s h hs he hm := by cases (st.told s h hs he hm).1
  ended s hs := by
    obtain ⟨ht, -, h | ⟨h, -⟩⟩ := st.ended s hs
    · cases h
      cases ht
    · cases h

/-- An execution that has no handle, and had a wait, can go on to any state. -/
theorem Stands.next {s? : Option ExecutionState} (st : x.Stands e s?) (ho : e ∈ x.owners) (free : x.gate.Free e)
    (s' : ExecutionState) : x.Stands e (s?.map fun s => s.next s') where
  unused hu := by
    rcases st.unused hu with rfl | ⟨rfl, b⟩
    · exact .inl rfl
    · exact .inr ⟨rfl, b⟩
  flying _ h := absurd ho h
  parked s h hs he := absurd he (free s h hs)
  told s h hs he := absurd he (free s h hs)
  ended s hs := by
    obtain ⟨ht, hd, h⟩ := st.ended s hs
    refine ⟨ht, hd, ?_⟩
    rcases h with rfl | ⟨rfl, hw⟩
    · exact .inl (congrArg some (if_pos ht))
    · exact .inr ⟨rfl, hw⟩

/-- A pending wait leaves its execution's handle without an outcome, and no other end behind. -/
theorem Accord.of_pending (a : x.Accord) {t : Token} {r : WaitRecord} (hr : x.gate.registry.records.get? t = some r)
    (hp : r.isPending = true) :
    (∀ s h, x.gate.handles.get? s = some h → h.execution = r.wait.execution → h.mail.isOutcome = false) ∧
      ∀ s, (r.wait.execution, s) ∈ x.ends → s = .aborted := by
  have undecided : ¬x.Decided r.wait.execution := fun d => by
    cases hp.symm.trans (d.2 t r hr rfl)
  refine ⟨fun s h hs he => ?_, fun s hs => ?_⟩
  · rw [← Bool.not_eq_true]
    exact fun hm => undecided ((a.stands _).told s h hs he hm).2
  · exact ((a.stands _).ended s hs).2.1.resolve_right undecided

/-! ## Handles change -/

/-- Whether what is parked on a token may be told of an outcome: its execution has a wait, and it is over. -/
def CanTell (x : Course) (t : Token) : Prop := ∀ w h, x.gate.waiters.get? t = some w →
  x.gate.handles.get? w.serial = some h → ∃ u r, x.gate.registry.records.get? u = some r ∧
    r.wait.execution = h.execution ∧ r.isPending = false

/-- A parked execution that has a wait is waiting. -/
theorem Accord.waiting (a : x.Accord) {s : Nat} {h : Handle} (hs : x.gate.handles.get? s = some h) {u : Token}
    {r : WaitRecord} (hu : x.gate.registry.records.get? u = some r) (he : r.wait.execution = h.execution) :
    x.gate.state? h.execution = some .waiting :=
  ((a.stands h.execution).parked s h hs rfl).resolve_right fun b => b.1.2 u r hu he

theorem Accord.decided (a : x.Accord) {u : Token} {r : WaitRecord} (hu : x.gate.registry.records.get? u = some r)
    (hp : r.isPending = false) : x.Decided r.wait.execution := by
  refine ⟨a.owners u r hu, fun t q hq he => ?_⟩
  cases a.single t u q r hq hu he
  cases hu.symm.trans hq
  exact hp

theorem Accord.shift (a : x.Accord) {st : Step} {g : Gate} (sh : Shift x.gate st g) (hst : st.isAttach = false)
    (hr : g.registry = x.gate.registry) (he : g.executions = x.gate.executions)
    (tell : ∀ t sig, st = .resume (.wake t sig) → sig.isOutcome = true → x.CanTell t) :
    Accord { x with gate := g } := by
  have state (e : ExecutionId) : g.state? e = x.gate.state? e := by rw [Gate.state?, he, Gate.state?]
  have free {e : ExecutionId} (free : x.gate.Free e) : g.Free e := fun s h hs he => by
    obtain ⟨hd, hs', he', -⟩ := sh.handle hst hs
    exact free s hd hs' (he'.symm.trans he)
  refine ⟨hr ▸ a.sound, hr ▸ a.single, hr ▸ a.owners, he ▸ a.noted, sh.tidy a.tidy hst, fun s h hs => ?_,
    fun e hf => ⟨(a.flights e hf).1, free (a.flights e hf).2⟩,
    fun e s hs => ⟨(a.ends e s hs).1, (a.ends e s hs).2.1, free (a.ends e s hs).2.2⟩, fun e => ?_⟩
  · obtain ⟨hd, hs', he', -⟩ := sh.handle hst hs
    exact he' ▸ a.used s hd hs'
  · show Stands _ e (g.state? e)
    rw [state e]
    refine (a.stands e).wane (wanes_of_eq hr e) (fun s h hs hse => ?_)
      fun s h hs hse hm => ?_
    · obtain ⟨hd, hs', he', -⟩ := sh.handle hst hs
      exact ⟨hd, hs', he'.symm.trans hse⟩
    · obtain ⟨hd, hs', he', -, hmail⟩ := sh.handle hst hs
      rcases hmail with hmail | ⟨t, sig, w, hw, -, hsig, hwt, hws⟩
      · exact (a.stands e).told s hd hs' (he'.symm.trans hse) (hmail ▸ hm)
      · rw [hsig] at hm
        obtain ⟨u, r, hu, hre, hp⟩ := tell t sig hw hm w hd hwt (hws ▸ hs')
        rw [← hse, he']
        exact ⟨a.waiting hs' hu hre, hre ▸ a.decided hu hp⟩

theorem Accord.signal (a : x.Accord) {t : Token} {sig : Signal} (tell : sig.isOutcome = true → x.CanTell t) :
    Accord { x with gate := (x.gate.signal t sig).2 } :=
  a.shift (.wake t sig) rfl (x.gate.signal_registry t sig) (x.gate.signal_executions t sig)
    fun t' sig' h hs => by
      cases h
      exact tell hs

theorem Accord.signal_cancelled (a : x.Accord) (t : Token) (reason : String) :
    Accord { x with gate := (x.gate.signal t (.cancelled reason)).2 } :=
  a.signal fun h => by cases h

theorem Accord.signals_cancelled (reason : String) : ∀ (ts : List Token) {x : Course}, x.Accord →
    Accord { x with gate := x.gate.signals ts (.cancelled reason) }
  | [], _, a => a
  | t :: ts, _, a => Accord.signals_cancelled reason ts (a.signal_cancelled t reason)

theorem Accord.close (a : x.Accord) (s : Nat) : Accord { x with gate := x.gate.close s } :=
  a.shift (.close (.close s) rfl rfl rfl) rfl rfl rfl fun _ _ h => by cases h

/-- When its handle is taken out, an execution is loose. -/
theorem Accord.loose_close (a : x.Accord) {k : Nat} {h : Handle} (hk : x.gate.handles.get? k = some h) :
    Loose { x with gate := x.gate.close k } h.execution := by
  refine ⟨a.used k h hk, fun hf => (a.flights _ hf).2 k h hk rfl, fun s' h' hs' he => ?_,
    fun s hs => (a.ends _ s hs).2.2 k h hk rfl⟩
  have hs' : (x.gate.handles.erase k).get? s' = some h' := hs'
  rw [Table.get?_erase] at hs'
  split at hs'
  · cases hs'
  · rename_i hne
    exact hne (a.tidy.alone s' k h' h hs' hk he)

/-! ## Executions are parked -/

/-- Only its own execution comes to have a handle by parking. -/
theorem park_free {g : Gate} {e' : ExecutionId} (free : g.Free e') (hne : e ≠ e') (t : Token) (deadline : Option Nat)
    (now : Instant) : (g.park e t deadline now).Free e' := fun s h hs he => by
  rcases Gate.park_handle hs with ⟨-, rfl⟩ | ⟨h', hs', he', -⟩
  · exact hne he
  · exact free s h' hs' (he'.symm.trans he)

/-- Nothing can be told of others by parking. -/
theorem Stands.park {s? : Option ExecutionState} {e' : ExecutionId} (st : x.Stands e' s?) (hne : e ≠ e') (t : Token)
    (deadline : Option Nat) (now : Instant) :
    Stands { x with gate := x.gate.park e t deadline now } e' s? := by
  have others {s : Nat} {h : Handle} (hs : (x.gate.park e t deadline now).handles.get? s = some h)
      (he : h.execution = e') : ∃ h', x.gate.handles.get? s = some h' ∧ h'.execution = e' ∧
        (h.mail = h'.mail ∨ h.mail = .lost) := by
    rcases Gate.park_handle hs with ⟨-, rfl⟩ | ⟨h', hs', he', -, hm⟩
    · exact absurd he hne
    · exact ⟨h', hs', he'.symm.trans he, hm.imp_right And.left⟩
  refine st.wane (wanes_of_eq (park_registry x.gate e t deadline now) e')
    (fun s h hs he => ?_) fun s h hs he hm => ?_
  · obtain ⟨h', hs', he', -⟩ := others hs he
    exact ⟨h', hs', he'⟩
  · obtain ⟨h', hs', he', hmail | hmail⟩ := others hs he
    · exact st.told s h' hs' he' (hmail ▸ hm)
    · rw [hmail] at hm
      cases hm

/-- Whether an execution is not known yet, its request was out, or it is aborted and nothing is left of its wait. -/
def Parkable (x : Course) (e : ExecutionId) : Prop :=
  x.gate.state? e = none ∨ x.gate.state? e = some .submitting ∨ x.gate.state? e = some .aborted ∧ x.Bereft e

theorem Loose.parked (l : x.Loose e) (hs : x.Parkable e) (t : Token) (deadline : Option Nat) (now : Instant) :
    Stands { x with gate := x.gate.park e t deadline now } e (some (x.gate.moved e .waiting)) := by
  obtain ⟨hu, hf, free, hn⟩ := l
  refine ⟨fun h => absurd hu h, fun h => absurd h hf, fun s h _ _ => ?_, fun s h hs' he hm => ?_,
    fun s h => absurd h (hn s)⟩
  · rw [Gate.moved]
    rcases hs with hs | hs | ⟨hs, b⟩
    · rw [hs]
      exact .inl rfl
    · rw [hs]
      exact .inl rfl
    · rw [hs]
      exact .inr ⟨b.wane (wanes_of_eq (park_registry x.gate e t deadline now) e), .inl rfl⟩
  · rcases Gate.park_handle hs' with ⟨-, rfl⟩ | ⟨h', hs', he', -⟩
    · cases hm
    · exact absurd (he'.symm.trans he) (free s h' hs')

theorem Accord.park (a : x.Accord) (l : x.Loose e) (hs : x.Parkable e) (t : Token) (deadline : Option Nat)
    (now : Instant) : Accord { x with gate := x.gate.park e t deadline now } := by
  have hr := park_registry x.gate e t deadline now
  refine ⟨hr ▸ a.sound, hr ▸ a.single, hr ▸ a.owners, ?_, a.tidy.park l.2.2.1 t deadline now, fun s h hs => ?_,
    fun e' hf => ⟨(a.flights e' hf).1, park_free (a.flights e' hf).2 (fun (h : e = e') => ?_) t deadline now⟩,
    fun e' s hs => ⟨(a.ends e' s hs).1, (a.ends e' s hs).2.1,
      park_free (a.ends e' s hs).2.2 (fun (h : e = e') => ?_) t deadline now⟩, fun e' => ?_⟩
  · exact x.gate.park_executions e t deadline now ▸ Gate.transition_distinct a.noted e .waiting (some t) now
  · rcases Gate.park_handle hs with ⟨-, rfl⟩ | ⟨h', hs', he', -⟩
    · exact l.1
    · exact he' ▸ a.used s h' hs'
  · exact l.2.1 (h ▸ hf)
  · exact l.2.2.2 s (h ▸ hs)
  · show Stands _ e' ((x.gate.park e t deadline now).state? e')
    rw [Gate.park_state?]
    split
    · rename_i he
      exact he ▸ l.parked hs t deadline now
    · rename_i hne
      exact (a.stands e').park hne t deadline now

end Course
end ApprovalGate
