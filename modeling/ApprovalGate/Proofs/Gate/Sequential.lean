import ApprovalGate.Callback.Receiver
import ApprovalGate.Gate.Run
import ApprovalGate.Gate.Sweep
import ApprovalGate.Proofs.Gate.Traffic
import ApprovalGate.Proofs.Submission.Halves
/-!
# Whole steps are runs of their parts

What the gate does in one go, when nothing else is going on, is what some run of the parts comes to: a delivery,
parking, polling and dropping a handle, a cancellation, a pass over what is overdue, a registration with what it
supersedes.  Each of these says which moves begin in its run; what is noted of executions goes without saying.
-/
namespace ApprovalGate

/-- What is noted of executions changes no wait and no handle. -/
def Move.isAccount : Move → Bool
  | .account _ => true
  | _ => false

namespace Traffic

/-- Whether some run of parts of steps leads from one traffic to another, in which only such moves begin. -/
def Leads (begins : Move → Prop) (x y : Traffic) : Prop :=
  ∃ steps, (∀ m, .begin m ∈ steps → m.isAccount = true ∨ begins m) ∧ x.run steps = y

variable {begins : Move → Prop}

theorem Leads.refl (x : Traffic) : Leads begins x x := ⟨[], fun _ h => absurd h List.not_mem_nil, rfl⟩

theorem Leads.trans {x y z : Traffic} : Leads begins x y → Leads begins y z → Leads begins x z := by
  rintro ⟨steps, hb, rfl⟩ ⟨steps', hb', rfl⟩
  refine ⟨steps ++ steps', fun m hm => ?_, x.run_append steps steps'⟩
  exact (List.mem_append.1 hm).elim (hb m) (hb' m)

theorem Leads.mono {x y : Traffic} {more : Move → Prop} (l : Leads begins x y) (h : ∀ m, begins m → more m) :
    Leads more x y := by
  obtain ⟨steps, hb, rfl⟩ := l
  exact ⟨steps, fun m hm => (hb m hm).imp_right (h m), rfl⟩

variable {g : Gate} {halves : List Half} {results : List (Nat × Outcome WaitOutcome)}

theorem leads_begin (m : Move) (hb : m.isAccount = true ∨ begins m) (h : g.answers m = []) :
    Leads begins ⟨g, halves, results⟩ ⟨(g.onset m).1, halves ++ (g.onset m).2, results⟩ := by
  refine ⟨[.begin m], fun n hn => ?_, ?_⟩
  · cases List.mem_singleton.1 hn
    exact hb
  · rw [run_cons, step, h, List.append_nil]
    rfl

theorem leads_first (half : Half) : Leads begins ⟨g, half :: halves, results⟩
    ⟨(g.sequel half).1, halves ++ (g.sequel half).2, results⟩ := by
  refine ⟨[.resume half], (fun n hn => nomatch List.mem_singleton.1 hn), ?_⟩
  rw [run_cons, step, if_pos List.mem_cons_self, List.erase_cons_head]
  rfl

/-- The part that was left last is carried on with. -/
theorem leads_latest {half : Half} (h : half ∉ halves) : Leads begins ⟨g, halves ++ [half], results⟩
    ⟨(g.sequel half).1, halves ++ (g.sequel half).2, results⟩ := by
  refine ⟨[.resume half], (fun n hn => nomatch List.mem_singleton.1 hn), ?_⟩
  rw [run_cons, step, if_pos (List.mem_append_right _ (List.mem_singleton_self _)), List.erase_append_right _ h,
    List.erase_cons_head, List.append_nil]
  rfl

theorem leads_account (executions : Table ExecutionId Execution) :
    Leads begins ⟨g, halves, results⟩ ⟨{ g with executions }, halves, results⟩ := by
  have h : Leads begins ⟨g, halves, results⟩ _ := leads_begin (.account executions) (.inl rfl) rfl
  rwa [Gate.onset, List.append_nil] at h

theorem leads_transitionKnown (e : ExecutionId) (state : ExecutionState) (now : Instant) :
    Leads begins ⟨g, halves, results⟩ ⟨g.transitionKnown e state now, halves, results⟩ := by
  rw [Gate.transitionKnown]
  cases g.executions.get? e with
  | none => exact .refl _
  | some x => exact leads_account _

theorem leads_signal (t : Token) (s : Signal) :
    Leads begins ⟨g, [.wake t s], results⟩ ⟨(g.signal t s).2, [], results⟩ := leads_first (.wake t s)

theorem leads_settle (t : Token) : Leads begins ⟨g, [.look t], results⟩ ⟨g.settle t, [], results⟩ := by
  refine (leads_first (.look t)).trans ?_
  rw [Gate.sequel, Gate.settle, List.nil_append]
  cases g.registry.get? t with
  | none => exact leads_signal t _
  | some r =>
    simp only [Gate.told]
    cases r.status with
    | pending => exact .refl _
    | resolved =>
      simp only
      refine (leads_first _).trans ?_
      rw [Gate.sequel, List.nil_append]
      rcases g.registry.takeDecision t with ⟨taken, registry⟩
      cases taken <|> r.decision with
      | none => exact .refl _
      | some d => exact leads_signal t _
    | expired => exact leads_signal t _
    | cancelled => exact leads_signal t _

theorem leads_attach (e : ExecutionId) (t : Token) (deadline : Option Nat) (now : Instant) :
    Leads (Eq (.attach e t deadline now)) (idle g) (idle (g.attach e t deadline now).2) :=
  (leads_begin _ (.inr rfl) rfl).trans (leads_settle t)

theorem leads_reattach (e : ExecutionId) (t : Token) (clock : Clock) :
    Leads (fun m => ∃ deadline, .attach e t deadline clock.now = m) (idle g) (idle (g.reattach e t clock).2) := by
  rw [Gate.reattach]
  cases g.registry.get? t with
  | none => exact .refl _
  | some r =>
    simp only
    split
    · exact .refl _
    · split
      · exact (leads_attach e t _ clock.now).mono fun m hm => ⟨_, hm⟩
      · exact (leads_account _).trans ((leads_attach e t _ clock.now).mono fun m hm => ⟨_, hm⟩)

theorem leads_wakes (s : Signal) : ∀ (ts : List Token) {g : Gate},
    Leads begins ⟨g, ts.map fun t => .wake t s, results⟩ ⟨ts.foldl (fun g t => (g.signal t s).2) g, [], results⟩
  | [], g => .refl _
  | t :: ts, g => by
    refine (leads_first (.wake t s)).trans ?_
    rw [Gate.sequel, List.append_nil]
    exact leads_wakes s ts

theorem leads_cancelExecution (e : ExecutionId) (reason : String) (now : Instant) :
    Leads (Eq (.cancel e reason)) (idle g) (idle (g.cancelExecution e reason now).2) := by
  refine (leads_begin (.cancel e reason) (.inr rfl) rfl).trans ?_
  rw [Gate.onset, List.nil_append, Gate.cancelExecution]
  refine (leads_wakes (.cancelled reason) _).trans ?_
  simp only
  split
  · split
    · exact leads_account _
    · exact .refl _
  · split
    · exact .refl _
    · exact leads_account _

theorem leads_deliver (x : Token) (d : Decision) :
    Leads (Eq (.deliver x d)) (idle g) (idle (match g.registry.resolve (g.registry.canonical x) d with
      | (.resolved _ d, registry) => ({ g with registry }.deliver (g.registry.canonical x) d).2
      | (_, registry) => { g with registry })) := by
  refine (leads_begin (.deliver x d) (.inr rfl) rfl).trans ?_
  rw [Gate.onset, List.nil_append]
  rcases g.registry.resolve (g.registry.canonical x) d with ⟨answer, registry⟩
  cases answer with
  | resolved e d => exact leads_signal _ _
  | _ => exact .refl _

/-- The move that a callback begins: the decision in its body, delivered to the wait at its address. -/
def Received (g : Gate) (address : String) (body : ByteArray) (contentType : Option String) (now : Instant)
    (m : Move) : Prop :=
  ∃ x d, Token.parse? address = some x ∧ .deliver x d = m ∧
    Callback.parseDecision (g.registry.canonical x) body contentType now = .ok d

theorem leads_receive (address : String) (body : ByteArray) (contentType : Option String) (now : Instant) :
    Leads (Received g address body contentType now) (idle g) (idle (g.receive address body contentType now).2) := by
  rw [Gate.receive]
  cases hx : Token.parse? address with
  | none => exact .refl _
  | some x =>
    simp only [Gate.record]
    cases Gate.takesDelivery (g.registry.get? (g.registry.canonical x)) with
    | false => exact .refl _
    | true =>
      cases hd : Callback.parseDecision (g.registry.canonical x) body contentType now with
      | error f => exact .refl _
      | ok d =>
        have h : Leads (Received g address body contentType now) (idle g) _ :=
          (leads_deliver x d).mono fun m hm => ⟨x, d, hx, hm, hd⟩
        simp only [Bool.not_true, Bool.false_eq_true, if_false]
        rcases hreg : g.registry.resolve (g.registry.canonical x) d with ⟨answer, registry⟩
        rw [hreg] at h
        cases answer with
        | alreadyResolved status => cases status <;> exact h
        | _ => exact h

theorem leads_read (serial : Nat) (now : Instant) : Leads (Eq (.read serial now)) (idle g)
    ⟨(match g.handles.get? serial with
      | none => (none, g)
      | some h => g.readMail serial h now).2, [],
      ((match g.handles.get? serial with
      | none => (none, g)
      | some h => g.readMail serial h now).1.map fun result => (serial, result)).toList⟩ := by
  refine ⟨[.begin (.read serial now)], fun m hm => ?_, ?_⟩
  · cases List.mem_singleton.1 hm
    exact .inr rfl
  · rw [run_cons, step, idle, List.nil_append, List.nil_append, Gate.onset, Gate.answers]
    cases g.handles.get? serial <;> rfl

/-- The moves in which a handle is polled: its timer may go off, and it reads its mail. -/
def Polled (serial : Nat) (now : Instant) (m : Move) : Prop := .fire serial now = m ∨ .read serial now = m

theorem leads_poll (serial : Nat) (clock : Clock) (first : Bool) : Leads (Polled serial clock.now) (idle g)
    ⟨(g.poll serial clock first).2, [],
      ((g.poll serial clock first).1.map fun result => (serial, result)).toList⟩ := by
  have read : ∀ {g : Gate}, Leads (Polled serial clock.now) (idle g) _ := fun {g} =>
    (leads_read (g := g) serial clock.now).mono fun m hm => .inr hm
  rw [Gate.poll]
  cases hs : g.handles.get? serial with
  | none => exact .refl _
  | some h =>
    simp only
    split
    · refine Leads.trans (y := idle ({ g with
        handles := g.handles.insert serial { h with deadline := none } }.onDeadline h.token clock.now)) ?_ read
      refine (leads_begin (.fire serial clock.now) (.inr (.inl rfl)) rfl).trans ?_
      rw [Gate.onset, hs, List.nil_append]
      simp only [Gate.expireFor, Gate.onDeadline]
      rcases g.registry.expire h.token clock.now with ⟨answer, registry⟩
      cases answer with
      | expired e => exact leads_signal _ _
      | _ => exact leads_settle _
    · have read := read (g := g)
      rwa [hs] at read

/-- The moves in which a handle is dropped: its continuation goes, its execution is cancelled, and it is gone. -/
def Dropped (serial : Nat) (m : Move) : Prop :=
  .leave serial = m ∨ (∃ e reason, .cancel e reason = m) ∨ .close serial = m

theorem leads_drop (serial : Nat) (now : Instant) :
    Leads (Dropped serial) (idle g) (idle (g.drop serial now)) := by
  rw [Gate.drop]
  cases hs : g.handles.get? serial with
  | none => exact .refl _
  | some h =>
    have leave : Leads (Dropped serial) (idle g) (idle (g.unpark serial)) :=
      leads_begin (.leave serial) (.inr (.inl rfl)) rfl
    rw [Gate.unpark, hs] at leave
    refine leave.trans (((leads_cancelExecution h.execution "wait handle dropped" now).mono
      fun m hm => .inr (.inl ⟨_, _, hm⟩)).trans ?_)
    exact Leads.trans (leads_begin (.close serial) (.inr (.inr (.inr rfl))) rfl)
      (leads_transitionKnown h.execution .aborted now)

theorem leads_expireOrphan (t : Token) (c : Gate.Readings) (hl : .lapse t (c.finished t) ∉ halves)
    (hw : .wake t .expired ∉ halves) :
    Leads begins ⟨g, .check t (c.finished t) :: halves, results⟩ ⟨(g.expireOrphan t c).2, halves, results⟩ := by
  refine (leads_first _).trans ?_
  rw [Gate.sequel, Gate.expireOrphan]
  cases g.hasWaiter t with
  | true =>
    simp only [if_true, List.append_nil]
    exact .refl _
  | false =>
    simp only [Bool.false_eq_true, if_false]
    refine (leads_latest hl).trans ?_
    rw [Gate.sequel]
    rcases g.registry.expire t (c.finished t) with ⟨answer, registry⟩
    cases answer with
    | expired e =>
      refine (leads_latest hw).trans ?_
      rw [Gate.sequel, List.append_nil]
      exact leads_transitionKnown e .timedOut (c.updated e)
    | _ =>
      simp only [List.append_nil]
      exact .refl _

theorem leads_expireOrphans (c : Gate.Readings) : ∀ (ts : List Token) {g : Gate},
    Leads begins ⟨g, ts.map fun t => .check t (c.finished t), results⟩ ⟨(g.expireOrphans c ts).2, [], results⟩
  | [], g => .refl _
  | t :: ts, g => by
    refine (leads_expireOrphan t c ?_ ?_).trans (leads_expireOrphans c ts)
    · intro h
      obtain ⟨u, -, h⟩ := List.mem_map.1 h
      cases h
    · intro h
      obtain ⟨u, -, h⟩ := List.mem_map.1 h
      cases h

theorem leads_expireOverdue (at' : Instant) (c : Gate.Readings) :
    Leads (Eq (.overdue at' c.finished)) (idle g) (idle (g.expireOverdue at' c).2) :=
  (leads_begin (.overdue at' c.finished) (.inr rfl) rfl).trans (leads_expireOrphans c _)

theorem leads_process (now : Instant) (retention : Span) (c : Gate.Readings) :
    Leads (fun m => .overdue now c.finished = m ∨ .upkeep (.sweep now) rfl = m) (idle g)
      (idle (g.process now retention c).2) := by
  refine ((leads_expireOverdue now c).mono fun m hm => .inl hm).trans ?_
  refine Leads.trans (leads_begin (.upkeep (.sweep now) rfl) (.inr (.inr rfl)) rfl) ?_
  exact leads_account _

/-- A registration, and the wake-up of what it supersedes. -/
theorem leads_register {w : Wait} {sup : Superseded} {registry : Registry}
    (hr : g.registry.register w = (.ok sup, registry)) (now : Instant) :
    Leads (Eq (.register w)) (idle g) (idle ({ g with registry }.supersede sup now)) := by
  refine (leads_begin (.register w) (.inr rfl) rfl).trans ?_
  rw [Gate.onset, hr, List.nil_append]
  cases sup with
  | none => exact .refl _
  | some p => exact (leads_signal p.1 _).trans (leads_account _)

/-- The moves in the second half of a run: an answer that accepts the submission registers its wait and parks the
execution on it. -/
def Finished (e : ExecutionId) (d : Draft) (reply : Outcome Reply) (now : Instant) (m : Move) : Prop :=
  ∃ r, reply = .ok r ∧
    (.register (Issuer.waitFor d r e now) = m ∨ ∃ t deadline, .attach e t deadline now = m)

/-- The second half of a run that is not cancelled. -/
theorem leads_finishRun {e : ExecutionId} {d : Draft} {reply : Outcome Reply} {clock : Clock} {serial : Nat} {g' : Gate}
    (h : g.finishRun e d reply clock = (.ok serial, g')) :
    Leads (Finished e d reply clock.now) (idle g) (idle g') := by
  rw [Gate.finishRun] at h
  rcases hc : Issuer.complete g.registry d e clock.now reply with ⟨result, registry⟩
  rw [hc] at h
  cases Issuer.completes hc with
  | unanswered => cases h
  | declined => cases h
  | unregistered => cases h
  | @registered reply _ _ _ _ hr =>
    simp only at h
    split at h
    · cases h
    · refine ((leads_register hr clock.now).mono fun m hm => ⟨reply, rfl, .inl hm⟩).trans ?_
      cases h
      exact (leads_attach e _ _ clock.now).mono fun m hm => ⟨reply, rfl, .inr ⟨_, _, hm⟩⟩

end Traffic
end ApprovalGate
