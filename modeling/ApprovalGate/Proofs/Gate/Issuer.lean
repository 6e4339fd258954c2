import ApprovalGate.Api.Answer
import ApprovalGate.Proofs.Gate.Traffic
/-!
# Gates and their issuers

A gate reads its issuer when a run begins, and at no other time; nothing that it does changes it.  So everything else
comes to the same with another issuer in its place (`Gate.withIssuer`), and leaves that one in place.
-/
namespace ApprovalGate
namespace Gate

def withIssuer (i : Option Issuer) (g : Gate) : Gate := { g with issuer := i }

variable (i : Option Issuer) (g : Gate)

@[simp] theorem withIssuer_registry : (g.withIssuer i).registry = g.registry := rfl
@[simp] theorem withIssuer_waiters : (g.withIssuer i).waiters = g.waiters := rfl
@[simp] theorem withIssuer_executions : (g.withIssuer i).executions = g.executions := rfl
@[simp] theorem withIssuer_handles : (g.withIssuer i).handles = g.handles := rfl
@[simp] theorem withIssuer_nextSerial : (g.withIssuer i).nextSerial = g.nextSerial := rfl

/-- What is put in the place of anything but the issuer. -/
@[simp] theorem mk_withIssuer (registry : Registry) (waiters : Table Token Waiter)
    (executions : Table ExecutionId Execution) (handles : Table Nat Handle) (nextSerial : Nat) :
    ⟨registry, (g.withIssuer i).issuer, waiters, executions, handles, nextSerial⟩ =
      withIssuer i ⟨registry, g.issuer, waiters, executions, handles, nextSerial⟩ := rfl

/-! ## Single steps -/

@[simp] theorem post_withIssuer (serial : Nat) (mail : Mail) :
    (g.withIssuer i).post serial mail = (g.post serial mail).withIssuer i := by
  simp only [post, withIssuer_handles]
  split <;> rfl

@[simp] theorem signal_withIssuer (t : Token) (s : Signal) :
    (g.withIssuer i).signal t s = (g.signal t s).map id (withIssuer i) := by
  simp only [signal, withIssuer_waiters, withIssuer_handles, mk_withIssuer, post_withIssuer]
  split <;> rfl

@[simp] theorem transition_withIssuer (e : ExecutionId) (state : ExecutionState) (token : Option Token)
    (now : Instant) :
    (g.withIssuer i).transition e state token now = (g.transition e state token now).withIssuer i := rfl

@[simp] theorem transitionKnown_withIssuer (e : ExecutionId) (state : ExecutionState) (now : Instant) :
    (g.withIssuer i).transitionKnown e state now = (g.transitionKnown e state now).withIssuer i := by
  simp only [transitionKnown, withIssuer_executions]
  split <;> rfl

@[simp] theorem settle_withIssuer (t : Token) : (g.withIssuer i).settle t = (g.settle t).withIssuer i := by
  simp only [settle, withIssuer_registry, mk_withIssuer, signal_withIssuer, Prod.map_snd]
  split
  · rfl
  · split
    · rfl
    · split <;> rfl
    · rfl
    · rfl

/-! ## Parking and waking -/

@[simp] theorem attach_withIssuer (e : ExecutionId) (t : Token) (deadline : Option Nat) (now : Instant) :
    (g.withIssuer i).attach e t deadline now = (g.attach e t deadline now).map id (withIssuer i) := by
  cases hw : g.waiters.get? t <;> simp only [attach, withIssuer_waiters, withIssuer_nextSerial, withIssuer_handles,
    withIssuer_registry, withIssuer_executions, mk_withIssuer, hw, post_withIssuer, transition_withIssuer,
    settle_withIssuer, Prod.map, id]

@[simp] theorem reattach_withIssuer (e : ExecutionId) (t : Token) (clock : Clock) :
    (g.withIssuer i).reattach e t clock = (g.reattach e t clock).map id (withIssuer i) := by
  rw [reattach, reattach, withIssuer_registry]
  cases g.registry.get? t with
  | none => rfl
  | some r =>
    simp only
    split
    · rfl
    · -- whether the execution is known is asked of either gate, so it is decided before both are unfolded
      cases known : g.executions.contains e with
      | false =>
        simp only [withIssuer_executions, withIssuer_waiters, withIssuer_handles, withIssuer_nextSerial, mk_withIssuer,
          known, Bool.false_eq_true, ↓reduceIte, attach_withIssuer]
        rfl
      | true =>
        simp only [withIssuer_executions, known, ↓reduceIte, attach_withIssuer]
        rfl

theorem signals_withIssuer (s : Signal) (ts : List Token) : ∀ g : Gate,
    ts.foldl (fun (g : Gate) t => (g.signal t s).2) (g.withIssuer i) =
      (ts.foldl (fun (g : Gate) t => (g.signal t s).2) g).withIssuer i := by
  induction ts with
  | nil => exact fun _ => rfl
  | cons t ts ih =>
    intro g
    rw [List.foldl_cons, List.foldl_cons, signal_withIssuer, Prod.map_snd]
    exact ih (g.signal t s).2

@[simp] theorem cancelExecution_withIssuer (e : ExecutionId) (reason : String) (now : Instant) :
    (g.withIssuer i).cancelExecution e reason now = (g.cancelExecution e reason now).map id (withIssuer i) := by
  simp only [cancelExecution, withIssuer_registry, withIssuer_executions, withIssuer_waiters, withIssuer_nextSerial,
    withIssuer_handles, mk_withIssuer, signals_withIssuer]
  split
  · split <;> rfl
  · split <;> rfl

@[simp] theorem onDeadline_withIssuer (t : Token) (now : Instant) :
    (g.withIssuer i).onDeadline t now = (g.onDeadline t now).withIssuer i := by
  simp only [onDeadline, withIssuer_registry, withIssuer_executions, withIssuer_waiters, withIssuer_nextSerial,
    withIssuer_handles, mk_withIssuer, signal_withIssuer, settle_withIssuer, Prod.map_snd]
  split <;> rfl

@[simp] theorem close_withIssuer (serial : Nat) : (g.withIssuer i).close serial = (g.close serial).withIssuer i := rfl

@[simp] theorem finish_withIssuer (serial : Nat) (h : Handle) (s : Signal) (now : Instant) :
    (g.withIssuer i).finish serial h s now = (g.finish serial h s now).map id (withIssuer i) := by
  cases s with
  | decision d =>
    simp only [finish, close_withIssuer]
    split <;> rfl
  | expired => rfl
  | cancelled reason => rfl

@[simp] theorem readMail_withIssuer (serial : Nat) (h : Handle) (now : Instant) :
    (g.withIssuer i).readMail serial h now = (g.readMail serial h now).map id (withIssuer i) := by
  simp only [readMail, finish_withIssuer]
  split <;> rfl

@[simp] theorem poll_withIssuer (serial : Nat) (clock : Clock) (timerFirst : Bool) :
    (g.withIssuer i).poll serial clock timerFirst = (g.poll serial clock timerFirst).map id (withIssuer i) := by
  simp only [poll, withIssuer_registry, withIssuer_executions, withIssuer_waiters, withIssuer_nextSerial,
    withIssuer_handles, mk_withIssuer, onDeadline_withIssuer, readMail_withIssuer]
  split
  · rfl
  · split
    · split <;> rfl
    · rfl

@[simp] theorem drop_withIssuer (serial : Nat) (now : Instant) :
    (g.withIssuer i).drop serial now = (g.drop serial now).withIssuer i := by
  simp only [drop, withIssuer_registry, withIssuer_executions, withIssuer_waiters, withIssuer_nextSerial,
    withIssuer_handles, mk_withIssuer]
  split
  · rfl
  · rename_i h _
    cases g.waiters.get? h.token with
    | none => simp only [cancelExecution_withIssuer, close_withIssuer, transitionKnown_withIssuer, Prod.map_snd]
    | some w =>
      simp only
      split <;>
        simp only [cancelExecution_withIssuer, close_withIssuer, transitionKnown_withIssuer, Prod.map_snd]

/-! ## Sweeping -/

@[simp] theorem expireOrphan_withIssuer (t : Token) (c : Readings) :
    (g.withIssuer i).expireOrphan t c = (g.expireOrphan t c).map id (withIssuer i) := by
  have parked : (g.withIssuer i).hasWaiter t = g.hasWaiter t := rfl
  cases hw : g.hasWaiter t with
  | true =>
    rw [expireOrphan, expireOrphan, if_pos (parked.trans hw), if_pos hw]
    rfl
  | false =>
    rw [expireOrphan, expireOrphan, if_neg (by rw [parked, hw]; decide), if_neg (by rw [hw]; decide)]
    simp only [withIssuer_registry, withIssuer_executions, withIssuer_waiters, withIssuer_nextSerial,
      withIssuer_handles, mk_withIssuer, signal_withIssuer, transitionKnown_withIssuer, Prod.map_snd]
    split <;> rfl

theorem expireOrphans_withIssuer (c : Readings) (ts : List Token) : ∀ g : Gate,
    (g.withIssuer i).expireOrphans c ts = (g.expireOrphans c ts).map id (withIssuer i) := by
  induction ts with
  | nil => exact fun _ => rfl
  | cons t ts ih =>
    intro g
    simp only [expireOrphans, expireOrphan_withIssuer, Prod.map_fst, Prod.map_snd, ih]
    rfl

@[simp] theorem expireOverdue_withIssuer (at' : Instant) (c : Readings) :
    (g.withIssuer i).expireOverdue at' c = (g.expireOverdue at' c).map id (withIssuer i) :=
  expireOrphans_withIssuer i c _ g

@[simp] theorem sweepFinished_withIssuer (now : Instant) (retention : Span) :
    (g.withIssuer i).sweepFinished now retention = (g.sweepFinished now retention).map id (withIssuer i) := rfl

@[simp] theorem process_withIssuer (now : Instant) (retention : Span) (c : Readings) :
    (g.withIssuer i).process now retention c = (g.process now retention c).map id (withIssuer i) := by
  rw [process, process, expireOverdue_withIssuer]
  rfl

/-! ## Runs -/

@[simp] theorem supersede_withIssuer (superseded : Superseded) (now : Instant) :
    (g.withIssuer i).supersede superseded now = (g.supersede superseded now).withIssuer i := by
  cases superseded with
  | none => rfl
  | some old => simp only [supersede, signal_withIssuer, transition_withIssuer, Prod.map_snd]

@[simp] theorem finishRun_withIssuer (e : ExecutionId) (d : Draft) (reply : Outcome Reply) (clock : Clock) :
    (g.withIssuer i).finishRun e d reply clock = (g.finishRun e d reply clock).map id (withIssuer i) := by
  simp only [finishRun, withIssuer_registry, withIssuer_executions, withIssuer_waiters, withIssuer_nextSerial,
    withIssuer_handles, mk_withIssuer, transition_withIssuer, supersede_withIssuer, attach_withIssuer]
  split
  · rfl
  · rename_i s registry _
    generalize supersede ⟨registry, g.issuer, g.waiters, g.executions, g.handles, g.nextSerial⟩ s.superseded
      clock.now = h
    -- the execution may have been cancelled while its request was out
    have same : (h.withIssuer i).state? e = h.state? e := rfl
    by_cases aborted : h.state? e = some .aborted
    · rw [if_pos (same.trans aborted), if_pos aborted]
      rfl
    · rw [if_neg (same ▸ aborted), if_neg aborted]
      rfl

/-! ## Callbacks and requests -/

@[simp] theorem record_withIssuer (t : Token) (body : ByteArray) (contentType : Option String) (now : Instant) :
    (g.withIssuer i).record t body contentType now =
      (g.record t body contentType now).map id (Prod.map id (withIssuer i)) := by
  have same : (g.withIssuer i).registry = g.registry := rfl
  cases taken : takesDelivery (g.registry.get? t) with
  | false =>
    rw [record, record, if_pos (by rw [same, taken]; decide), if_pos (by rw [taken]; decide)]
    rfl
  | true =>
    rw [record, record, if_neg (by rw [same, taken]; decide), if_neg (by rw [taken]; decide), same]
    split
    · rfl
    · split <;> rfl

@[simp] theorem receive_withIssuer (address : String) (body : ByteArray) (contentType : Option String)
    (now : Instant) :
    (g.withIssuer i).receive address body contentType now =
      (g.receive address body contentType now).map id (withIssuer i) := by
  simp only [receive, deliver, withIssuer_registry, record_withIssuer]
  split
  · rfl
  · rename_i t _
    obtain ⟨receipt, d?, g'⟩ := g.record (g.registry.canonical t) body contentType now
    cases d? with
    | none => rfl
    | some d => simp only [Prod.map, id, signal_withIssuer]

/-! ## Parts of steps -/

theorem onset_withIssuer (m : Move) : (g.withIssuer i).onset m = (g.onset m).map (withIssuer i) id := by
  cases m with
  | deliver x d | register w =>
    simp only [onset, withIssuer_registry, withIssuer_executions, withIssuer_waiters, withIssuer_nextSerial,
      withIssuer_handles, mk_withIssuer]
    split <;> rfl
  | cancel e reason | upkeep op quiet | overdue at' now | close serial | account executions => rfl
  | attach e t deadline now =>
    cases hw : g.waiters.get? t <;> simp only [onset, park, withIssuer_waiters, withIssuer_nextSerial,
      withIssuer_handles, withIssuer_registry, withIssuer_executions, mk_withIssuer, hw, post_withIssuer,
      transition_withIssuer, Prod.map, id]
  | fire serial now =>
    simp only [onset, expireFor, withIssuer_registry, withIssuer_executions, withIssuer_waiters,
      withIssuer_nextSerial, withIssuer_handles, mk_withIssuer]
    split
    · rfl
    · split <;> rfl
  | read serial now =>
    simp only [onset, withIssuer_handles, readMail_withIssuer]
    split <;> rfl
  | leave serial =>
    simp only [onset, unpark, withIssuer_registry, withIssuer_executions, withIssuer_waiters,
      withIssuer_nextSerial, withIssuer_handles, mk_withIssuer]
    split
    · rfl
    · split
      · split <;> rfl
      · rfl

theorem sequel_withIssuer (half : Half) :
    (g.withIssuer i).sequel half = (g.sequel half).map (withIssuer i) id := by
  cases half with
  | wake t s => simp only [sequel, signal_withIssuer, Prod.map, id]
  | lapse t now =>
    simp only [sequel, withIssuer_registry, withIssuer_executions, withIssuer_waiters, withIssuer_nextSerial,
      withIssuer_handles, mk_withIssuer]
    split <;> rfl
  | check t now | look t | collect t d? => rfl

theorem answers_withIssuer (m : Move) : (g.withIssuer i).answers m = g.answers m := by
  cases m with
  | read serial now => simp only [answers, withIssuer_handles, readMail_withIssuer, Prod.map_fst, id]
  | _ => rfl

end Gate

namespace Traffic

def withIssuer (i : Option Issuer) (x : Traffic) : Traffic := { x with gate := x.gate.withIssuer i }

/-- However steps overlap, none of their parts reads the issuer. -/
theorem step_withIssuer (i : Option Issuer) (x : Traffic) (st : Step) :
    (x.withIssuer i).step st = (x.step st).withIssuer i := by
  cases st with
  | begin m =>
    have onset : (x.withIssuer i).gate.onset m = (x.gate.onset m).map (Gate.withIssuer i) id :=
      x.gate.onset_withIssuer i m
    have answers : (x.withIssuer i).gate.answers m = x.gate.answers m := x.gate.answers_withIssuer i m
    rw [step, onset, answers]
    rfl
  | resume half =>
    have sequel : (x.withIssuer i).gate.sequel half = (x.gate.sequel half).map (Gate.withIssuer i) id :=
      x.gate.sequel_withIssuer i half
    have halves : (x.withIssuer i).halves = x.halves := rfl
    by_cases left : half ∈ x.halves
    · rw [step, step, if_pos (halves ▸ left), if_pos left, sequel]
      rfl
    · rw [step, step, if_neg (halves ▸ left), if_neg left]

end Traffic

namespace Api

variable (i : Option Issuer) (g : Gate)

@[simp] theorem deliver_withIssuer (address : String) (r : Request) (now : Instant) :
    deliver (g.withIssuer i) address r now = (deliver g address r now).map id (Gate.withIssuer i) := by
  simp only [deliver, Gate.receive_withIssuer]
  split <;> rfl

@[simp] theorem cancel_withIssuer (name : String) (now : Instant) :
    cancel (g.withIssuer i) name now = (cancel g name now).map id (Gate.withIssuer i) := by
  simp only [cancel, Gate.cancelExecution_withIssuer]
  split
  · rfl
  · rename_i e _
    obtain ⟨answer, g'⟩ := g.cancelExecution e "cancelled via API" now
    cases answer <;> rfl

/-- **No answer of the API depends on the issuer, and none changes it.** -/
@[simp] theorem answer_withIssuer (r : Request) (now : Instant) (uptime : Nat) :
    answer (g.withIssuer i) r now uptime = (answer g r now uptime).map id (Gate.withIssuer i) := by
  simp only [answer]
  split
  · rfl
  · rename_i route _
    simp only [answerOn]
    split
    · rfl
    · cases route with
      | callback address =>
        simp only [deliver_withIssuer]
        split <;> rfl
      | execution name =>
        simp only [cancel_withIssuer]
        split <;> rfl
      | _ => rfl

end Api
end ApprovalGate
