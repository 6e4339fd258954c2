import ApprovalGate.Proofs.Gate.Listening
import ApprovalGate.Proofs.Registry.Records
import ApprovalGate.Proofs.Runs
/-!
# Courses of events

A gate on which one whole step follows the other: waits are registered, executions are run and parked, handles are
polled and dropped, and time passes.  A `Course` also remembers which executions have been used and which have had a
wait, how the handles that are gone came to their end, and whose records a sweep took away.  The lemmas after it say
what single operations leave noted of executions, and what is left where a registration puts an end to a wait.
-/
namespace ApprovalGate

open Registry (Operation)

namespace Gate

/-! ## Events -/

/-- What happens to a gate.  A run is in two halves, since anything can happen while its request is out. -/
inductive Event where
  /-- A wait is registered by itself. -/
  | register (w : Wait)
  /-- The registry is seen to in a way that ends no wait. -/
  | upkeep (op : Operation) (quiet : op.isQuiet = true)
  | beginRun (e : ExecutionId) (r : ChangeRequest) (random : Uuid) (now : Instant)
  | finishRun (e : ExecutionId) (d : Draft) (reply : Outcome Reply) (clock : Clock)
  | attach (e : ExecutionId) (t : Token) (deadline : Option Nat) (now : Instant)
  | reattach (e : ExecutionId) (t : Token) (clock : Clock)
  | call (c : Call)
  | drop (serial : Nat) (now : Instant)
  | sweepFinished (now : Instant) (retention : Span)

namespace Event

/-- The execution that is run, parked or parked again. -/
def user? : Event → Option ExecutionId
  | .beginRun e _ _ _ | .attach e _ _ _ | .reattach e _ _ => some e
  | _ => none

/-- The execution whose run goes on. -/
def runner? : Event → Option ExecutionId
  | .finishRun e _ _ _ => some e
  | _ => none

/-- Who is parked at what address, whosever wait is there. -/
def parking? : Event → Option (ExecutionId × Token)
  | .attach e t _ _ => some (e, t)
  | _ => none

/-- The instant up to which waits are expired. -/
def pass? : Event → Option Instant
  | .call (.expireOverdue at' _) => some at'
  | _ => none

end Event

def happen (g : Gate) : Event → Gate
  | .register w => { g with registry := (g.registry.register w).2 }
  | .upkeep op _ => { g with registry := g.registry.perform op }
  | .beginRun e r random now => (g.beginRun e r random now).2
  | .finishRun e d reply clock => (g.finishRun e d reply clock).2
  | .attach e t deadline now => (g.attach e t deadline now).2
  | .reattach e t clock => (g.reattach e t clock).2
  | .call c => g.act c
  | .drop serial now => g.drop serial now
  | .sweepFinished now retention => (g.sweepFinished now retention).2

/-- One pass over everything that time brings to an end is three events. -/
theorem process_events (g : Gate) (now : Instant) (retention : Span) (c : Readings) :
    (g.process now retention c).2 =
    [.call (.expireOverdue now c), .upkeep (.sweep now) rfl, .sweepFinished now retention].foldl happen g := rfl

/-- The execution that an event gives a wait of its own. -/
def newOwner? (g : Gate) : Event → Option ExecutionId
  | .register w => if (g.registry.register w).1.isOk then some w.execution else none
  | .finishRun e d reply clock => if (Issuer.complete g.registry d e clock.now reply).1.isOk then some e else none
  | _ => none

/-- The state that an execution should have when its handle answers. -/
def endOf? (e : ExecutionId) : Option (Outcome WaitOutcome) → Option (ExecutionId × ExecutionState)
  | some (.ok o) => some (e, o.state)
  | some (.error (.cancelled _ _)) => some (e, .aborted)
  | _ => none

/-- The execution whose handle comes to its end in an event, and the state that it should have then. -/
def end? (g : Gate) : Event → Option (ExecutionId × ExecutionState)
  | .call (.poll serial clock first) =>
    (g.handles.get? serial).bind fun h => endOf? h.execution (g.poll serial clock first).1
  | .drop serial _ => (g.handles.get? serial).map fun h => (h.execution, .aborted)
  | _ => none

/-- The executions whose records an event takes away. -/
def swept (g : Gate) : Event → List ExecutionId
  | .sweepFinished now retention => (g.executions.filter fun _ x => isForgettable retention now x).keys
  | _ => []

end Gate

open Gate (Event Call)

/-! ## Courses -/

structure Course where
  gate : Gate
  /-- The executions that were run, parked or parked again. -/
  used : List ExecutionId
  /-- Those whose request is out. -/
  flights : List ExecutionId
  /-- Those that have, or had, a wait of their own. -/
  owners : List ExecutionId
  /-- How handles came to their end: whose they were, and the state that their execution should have. -/
  ends : List (ExecutionId × ExecutionState)
  /-- Those whose record a sweep took away. -/
  swept : List ExecutionId

/-- Whether all records of a registry are of different executions. -/
def Registry.Single (g : Registry) : Prop := ∀ t t' r r', g.records.get? t = some r → g.records.get? t' = some r' →
  r.wait.execution = r'.wait.execution → t = t'

/-- Whether an address leads to no wait of another execution. -/
def Registry.LeadsOnlyTo (g : Registry) (x : Token) (e : ExecutionId) : Prop := ∀ e' ∈ g.owner? x, e' = e

instance (g : Registry) (x : Token) (e : ExecutionId) : Decidable (g.LeadsOnlyTo x e) :=
  inferInstanceAs (Decidable (∀ e' ∈ g.owner? x, e' = e))

namespace Course

def start (registry : Registry) (issuer : Option Issuer) : Course :=
  ⟨.start registry issuer, [], [], registry.records.values.map fun r => r.wait.execution, [], []⟩

def happen (x : Course) (ev : Event) : Course where
  gate := x.gate.happen ev
  used := ev.user?.toList ++ x.used
  flights := match ev with
    | .beginRun e r random now => if (x.gate.beginRun e r random now).1.isOk then e :: x.flights else x.flights
    | .finishRun e _ _ _ => x.flights.filter fun e' => decide (e' ≠ e)
    | _ => x.flights
  owners := (x.gate.newOwner? ev).toList ++ x.owners
  ends := (x.gate.end? ev).toList ++ x.ends
  swept := x.gate.swept ev ++ x.swept

def run (x : Course) (evs : List Event) : Course := evs.foldl happen x

/-- Whether an event uses no execution a second time, gives none a second wait and goes on only with a run whose
request is out. -/
def Fits (x : Course) (ev : Event) : Prop :=
  (∀ e ∈ ev.user?, e ∉ x.used) ∧ (∀ e ∈ x.gate.newOwner? ev, e ∉ x.owners) ∧ ∀ e ∈ ev.runner?, e ∈ x.flights

instance (x : Course) (ev : Event) : Decidable (x.Fits ev) :=
  inferInstanceAs (Decidable (_ ∧ _ ∧ _))

/-- Whether nobody is parked where the wait of another execution is: no handle that has not been told anything, and
not the one of the event. -/
def Apart (x : Course) (ev : Event) : Prop :=
  (∀ h ∈ x.gate.handles.values, h.mail = .none → x.gate.registry.LeadsOnlyTo h.token h.execution) ∧
    ∀ p ∈ ev.parking?, x.gate.registry.LeadsOnlyTo p.2 p.1

instance (x : Course) (ev : Event) : Decidable (x.Apart ev) :=
  inferInstanceAs (Decidable (_ ∧ _))

/-- Whether a pass expires the wait of an execution whose handle is neither done nor dropped: nothing is parked on the
token, since the handle was parked on the alias or was told something else before. -/
def Overtakes (x : Course) (ev : Event) : Prop :=
  ∃ at' ∈ ev.pass?, ∃ t ∈ x.gate.registry.overdue at', x.gate.hasWaiter t = false ∧
    ∃ h ∈ x.gate.handles.values, x.gate.registry.owner? t = some h.execution

instance (x : Course) (ev : Event) : Decidable (x.Overtakes ev) :=
  inferInstanceAs (Decidable (∃ at' ∈ ev.pass?, ∃ t ∈ x.gate.registry.overdue at', x.gate.hasWaiter t = false ∧
    ∃ h ∈ x.gate.handles.values, x.gate.registry.owner? t = some h.execution))

end Course

/-! ## What is noted of executions -/

/-- The state after a move to another one: a terminal state stays. -/
def ExecutionState.next (s s' : ExecutionState) : ExecutionState := if s.isTerminal then s else s'

theorem Execution.advance_state (x : Execution) (s : ExecutionState) (t : Option Token) (now : Instant) :
    (x.advance s t now).state = x.state.next s := by
  rw [advance, ExecutionState.next]
  split <;> rfl

namespace Gate

theorem state?_insert (g : Gate) (e e' : ExecutionId) (x : Execution) :
    state? { g with executions := g.executions.insert e x } e' = if e = e' then some x.state else g.state? e' := by
  rw [state?, Table.get?_insert]
  split <;> rfl

/-- The state of an execution after a move, which makes it known. -/
def moved (g : Gate) (e : ExecutionId) (s : ExecutionState) : ExecutionState :=
  ((g.state? e).map fun s' => s'.next s).getD s

theorem state?_eq {g : Gate} {e : ExecutionId} {x? : Option Execution} (h : g.executions.get? e = x?) :
    g.state? e = x?.map Execution.state := by rw [state?, h]

theorem moved_of_terminal {g : Gate} {e : ExecutionId} {s : ExecutionState} (hs : g.state? e = some s)
    (ht : s.isTerminal = true) (s' : ExecutionState) : g.moved e s' = s := by
  unfold moved
  simp [hs, ExecutionState.next, ht]

theorem moved_of_running {g : Gate} {e : ExecutionId} (hr : ∀ s, g.state? e = some s → s.isTerminal = false)
    (s' : ExecutionState) : g.moved e s' = s' := by
  unfold moved
  cases hs : g.state? e with
  | none => rfl
  | some s => simp [ExecutionState.next, hr s hs]

theorem transition_state? (g : Gate) (e e' : ExecutionId) (s : ExecutionState) (t : Option Token) (now : Instant) :
    (g.transition e s t now).state? e' = if e = e' then some (g.moved e s) else g.state? e' := by
  rw [transition, state?_insert, Execution.advance_state, moved]
  cases hx : g.executions.get? e <;> rw [state?_eq hx] <;> rfl

theorem transitionKnown_state? (g : Gate) (e e' : ExecutionId) (s : ExecutionState) (now : Instant) :
    (g.transitionKnown e s now).state? e' = if e = e' then (g.state? e).map fun s' => s'.next s else g.state? e' := by
  rw [transitionKnown]
  cases hx : g.executions.get? e with
  | none =>
    by_cases he : e = e'
    · rw [if_pos he, ← he, state?_eq hx]
      rfl
    · rw [if_neg he]
  | some x =>
    simp only
    rw [state?_insert, Execution.advance_state, state?_eq hx]
    rfl

theorem transitionKnown_eq (g : Gate) (e : ExecutionId) (s : ExecutionState) (now : Instant) :
    g.transitionKnown e s now = { g with executions := (g.transitionKnown e s now).executions } := by
  rw [transitionKnown]
  split <;> rfl

theorem transitionKnown_execution? (g : Gate) (e e' : ExecutionId) (s : ExecutionState) (now : Instant) :
    (g.transitionKnown e s now).execution? e' =
      if e = e' then (g.execution? e').map fun x => x.advance s none now else g.execution? e' := by
  unfold transitionKnown execution?
  cases hx : g.executions.get? e with
  | none =>
    by_cases he : e = e'
    · rw [if_pos he, ← he, hx]
      rfl
    · rw [if_neg he]
  | some x =>
    simp only [Table.get?_insert]
    by_cases he : e = e'
    · rw [if_pos he, if_pos he, ← he, hx]
      rfl
    · rw [if_neg he, if_neg he]

/-- An execution that has ended is not moved. -/
theorem transitionKnown_of_ended {g : Gate} {e : ExecutionId}
    (ended : ∀ s, g.state? e = some s → s.isTerminal = true) (s : ExecutionState) (now : Instant) (e' : ExecutionId) :
    (g.transitionKnown e s now).execution? e' = g.execution? e' := by
  rw [transitionKnown_execution?]
  split
  · rename_i he
    subst he
    cases hx : g.execution? e with
    | none => rfl
    | some x => exact congrArg some (if_pos (ended x.state (by rw [state?_eq hx]; rfl)))
  · rfl

theorem transition_distinct {g : Gate} (h : g.executions.Distinct) (e : ExecutionId) (s : ExecutionState)
    (t : Option Token) (now : Instant) : (g.transition e s t now).executions.Distinct := h.insert _ _

theorem transitionKnown_distinct {g : Gate} (h : g.executions.Distinct) (e : ExecutionId) (s : ExecutionState)
    (now : Instant) : (g.transitionKnown e s now).executions.Distinct := by
  rw [transitionKnown]
  split
  · exact h.insert _ _
  · exact h

theorem park_executions (g : Gate) (e : ExecutionId) (t : Token) (deadline : Option Nat) (now : Instant) :
    (g.park e t deadline now).executions = (g.transition e .waiting (some t) now).executions := by
  rw [park]
  cases g.waiters.get? t with
  | none => rfl
  | some w =>
    simp only [post]
    cases g.handles.get? w.serial <;> rfl

theorem park_state? (g : Gate) (e e' : ExecutionId) (t : Token) (deadline : Option Nat) (now : Instant) :
    (g.park e t deadline now).state? e' = if e = e' then some (g.moved e .waiting) else g.state? e' := by
  rw [← g.transition_state? e e' .waiting (some t) now, state?, park_executions, state?]

theorem signal_executions (g : Gate) (t : Token) (s : Signal) : (g.signal t s).2.executions = g.executions := by
  rw [signal]
  cases g.waiters.get? t with
  | none => rfl
  | some w =>
    simp only [post]
    cases g.handles.get? w.serial <;> rfl

/-- The continuations parked on some tokens are woken, one after the other. -/
def signals (g : Gate) (ts : List Token) (s : Signal) : Gate := ts.foldl (fun (g : Gate) t => (g.signal t s).2) g

theorem signals_executions (s : Signal) : ∀ (ts : List Token) (g : Gate), (g.signals ts s).executions = g.executions
  | [], _ => rfl
  | t :: ts, g => (signals_executions s ts _).trans (g.signal_executions t s)

/-- What a cancellation notes that put an end to the waits under some tokens. -/
def noteCancelled (g : Gate) (e : ExecutionId) (tokens : List Token) (now : Instant) : Table ExecutionId Execution :=
  match g.executions.get? e with
  | some x =>
    if x.state = .submitting ∨ (tokens ≠ [] ∧ !x.state.isTerminal) then
      g.executions.insert e { x with state := .aborted, updatedAt := now }
    else g.executions
  | none =>
    if tokens.isEmpty then g.executions
    else g.executions.insert e { Execution.start e none now with state := .aborted, token := tokens.head? }

/-- What is noted of executions makes no difference to a signal. -/
theorem signal_note (g : Gate) (t : Token) (s : Signal) (executions : Table ExecutionId Execution) :
    (signal { g with executions } t s).2 = { (g.signal t s).2 with executions } := by
  simp only [signal]
  cases g.waiters.get? t with
  | none => rfl
  | some w =>
    simp only [post]
    cases g.handles.get? w.serial <;> rfl

theorem signals_note (s : Signal) (executions : Table ExecutionId Execution) : ∀ (ts : List Token) (g : Gate),
    signals { g with executions } ts s = { g.signals ts s with executions }
  | [], _ => rfl
  | t :: ts, g => by
    rw [signals, List.foldl_cons, signal_note]
    exact signals_note s executions ts (g.signal t s).2

theorem cancelExecution_eq (g : Gate) (e : ExecutionId) (reason : String) (now : Instant) :
    (g.cancelExecution e reason now).2 = signals { g with
      registry := (g.registry.cancel e).2, executions := g.noteCancelled e (g.registry.cancel e).1 now }
      (g.registry.cancel e).1 (.cancelled reason) := by
  have h := signals_executions (.cancelled reason) (g.registry.cancel e).1
    { g with registry := (g.registry.cancel e).2 }
  have same {g' : Gate} (h : g'.executions = g.executions) : g' = { g' with executions := g.executions } := h ▸ rfl
  rw [signals_note _ _ _ { g with registry := (g.registry.cancel e).2 }, cancelExecution, noteCancelled]
  simp only [signals] at h ⊢
  rw [h]
  cases g.executions.get? e with
  | none =>
    simp only
    split
    · exact same h
    · rfl
  | some x =>
    simp only
    split
    · rfl
    · exact same h

theorem noteCancelled_distinct {g : Gate} (h : g.executions.Distinct) (e : ExecutionId) (tokens : List Token)
    (now : Instant) : (g.noteCancelled e tokens now).Distinct := by
  rw [noteCancelled]
  split
  · split
    · exact h.insert _ _
    · exact h
  · split
    · exact h
    · exact h.insert _ _

/-- An execution that lost a wait is aborted by a cancellation, and so is one whose request is out. -/
theorem noteCancelled_state? (g : Gate) (e e' : ExecutionId) (tokens : List Token) (now : Instant) :
    state? { g with executions := g.noteCancelled e tokens now } e' = g.state? e' ∨
      e = e' ∧ state? { g with executions := g.noteCancelled e tokens now } e' = some .aborted ∧
        (tokens ≠ [] ∨ g.state? e = some .submitting) := by
  rw [noteCancelled]
  cases hx : g.executions.get? e with
  | none =>
    simp only
    split
    · exact .inl rfl
    · rename_i ht
      rw [state?_insert]
      by_cases he : e = e'
      · rw [if_pos he]
        exact .inr ⟨he, rfl, .inl fun h => ht (List.isEmpty_iff.2 h)⟩
      · exact .inl (if_neg he)
  | some x =>
    simp only
    split
    · rename_i hc
      rw [state?_insert]
      by_cases he : e = e'
      · rw [if_pos he]
        refine .inr ⟨he, rfl, hc.symm.imp And.left fun hs => ?_⟩
        rw [state?_eq hx, ← hs]
        rfl
      · exact .inl (if_neg he)
    · exact .inl rfl

/-! ## What a registration puts an end to -/

/-- What is told to a continuation whose wait another submission put an end to. -/
def supersession : String := "superseded by a newer change request for the job"

section

variable (g : Gate) (sup : Superseded) (now : Instant)

theorem supersede_registry : (g.supersede sup now).registry = g.registry := by
  unfold supersede
  split
  · rfl
  · exact g.signal_registry _ _

theorem supersede_nextSerial : (g.supersede sup now).nextSerial = g.nextSerial := by
  unfold supersede
  split
  · rfl
  · exact g.signal_nextSerial _ _

theorem supersede_waiters (u : Token) :
    (g.supersede sup now).waiters.get? u = if sup.map Prod.fst = some u then none else g.waiters.get? u := by
  unfold supersede
  split
  · rfl
  · rename_i t owner
    refine (g.signal_waiters t u _).trans ?_
    simp only [Option.map_some, Option.some.injEq, eq_comm]

theorem supersede_handles {t : Token} {w : Waiter} (hw : g.waiters.get? t = some w) (so : Sole g) :
    (g.supersede sup now).handles.get? w.serial = if sup.map Prod.fst = some t then
      (g.handles.get? w.serial).map fun h => { h with mail := .signal (.cancelled supersession) }
    else g.handles.get? w.serial := by
  unfold supersede
  split
  · rfl
  · rename_i u owner
    refine (g.signal_handles u _ w.serial).trans ?_
    -- no other continuation belongs to the handle
    have same : (g.waiters.get? u).map Waiter.serial = some w.serial ↔ u = t := by
      constructor
      · intro h
        obtain ⟨v, hv, hs⟩ := Option.map_eq_some_iff.1 h
        exact (so t w hw u v hv).1 hs
      · rintro rfl
        rw [hw, Option.map_some]
    simp only [same, Option.map_some, Option.some.injEq]
    rfl

theorem supersede_state? (e : ExecutionId) : (g.supersede sup now).state? e =
    if sup.map Prod.snd = some e then some (g.moved e .aborted) else g.state? e := by
  unfold supersede
  split
  · rfl
  · rename_i t owner
    refine (transition_state? _ owner e .aborted none now).trans ?_
    simp only [Option.map_some, Option.some.injEq, moved, state?, signal_executions]
    by_cases he : owner = e
    · subst he
      rfl
    · rw [if_neg he, if_neg he]

end

end Gate
end ApprovalGate
