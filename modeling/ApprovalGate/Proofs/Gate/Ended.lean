import ApprovalGate.Proofs.Gate.Agreement
/-!
# Executions that have ended

Something is noted of executions in six ways only (`Note`), and each operation of a gate has its own among them
(`Operation.Makes`, `noted_perform`).  Five of the six look at the state first, so that an execution in a terminal
state keeps its record, whatever is done to the gate but a new run of it or a sweep (`terminal_record_stays`).
-/
namespace ApprovalGate

/-- What is noted of executions in one go. -/
inductive Note where
  /-- An execution starts, whatever was noted of it. -/
  | start (e : ExecutionId) (job : Option JobId) (now : Instant)
  /-- An execution becomes known, unless it is. -/
  | meet (e : ExecutionId) (job : Option JobId) (now : Instant)
  | move (e : ExecutionId) (s : ExecutionState) (t : Option Token) (now : Instant)
  | moveKnown (e : ExecutionId) (s : ExecutionState) (now : Instant)
  /-- A cancellation has put an end to the waits under some tokens. -/
  | cancel (e : ExecutionId) (tokens : List Token) (now : Instant)
  /-- What ended long ago is forgotten. -/
  | forget (now : Instant) (retention : Span)

/-- Whether a note leaves an execution alone once it has ended. -/
def Note.Spares (e : ExecutionId) : Note → Prop
  | start e' _ _ => e' ≠ e
  | forget _ _ => False
  | _ => True

namespace Gate

def note (g : Gate) : Note → Gate
  | .start e job now => { g with executions := g.executions.insert e (.start e job now) }
  | .meet e job now =>
    if g.executions.contains e then g else { g with executions := g.executions.insert e (.start e job now) }
  | .move e s t now => g.transition e s t now
  | .moveKnown e s now => g.transitionKnown e s now
  | .cancel e tokens now => { g with executions := g.noteCancelled e tokens now }
  | .forget now retention => (g.sweepFinished now retention).2

/-! ## One note -/

theorem advance_of_terminal {x : Execution} (h : x.state.isTerminal = true) (s : ExecutionState) (t : Option Token)
    (now : Instant) : x.advance s t now = x := if_pos h

/-- What is put for an execution is there, and all others have what they had. -/
theorem insert_stays {xs : Table ExecutionId Execution} {e e' : ExecutionId} {x y : Execution}
    (hx : xs.get? e = some x) (hy : e' = e → y = x) : (xs.insert e' y).get? e = some x := by
  rw [Table.get?_insert]
  by_cases he : e' = e
  · rw [if_pos he, hy he]
  · rw [if_neg he, hx]

/-- **A note that spares an execution leaves its record as it is, once it has ended.** -/
theorem note_stays {g : Gate} {e : ExecutionId} {x : Execution} (hx : g.executions.get? e = some x)
    (ht : x.state.isTerminal = true) {n : Note} (h : n.Spares e) : (g.note n).executions.get? e = some x := by
  cases n with
  | start e' job now => exact insert_stays hx fun he => absurd he h
  | meet e' job now =>
    rw [note]
    split
    · exact hx
    · rename_i hn
      refine insert_stays hx fun he => absurd ?_ hn
      simp [he, Table.contains, hx]
  | move e' s t now =>
    refine insert_stays hx fun he => ?_
    simp only [he, hx, Option.getD_some]
    exact advance_of_terminal ht s t now
  | moveKnown e' s now =>
    rw [note, transitionKnown]
    cases hx' : g.executions.get? e' with
    | none => exact hx
    | some x' =>
      refine insert_stays hx fun he => ?_
      cases (he ▸ hx').symm.trans hx
      exact advance_of_terminal ht s none now
  | cancel e' tokens now =>
    show (g.noteCancelled e' tokens now).get? e = some x
    rw [noteCancelled]
    cases hx' : g.executions.get? e' with
    | none =>
      have hne : e' ≠ e := fun he => by
        cases (he ▸ hx').symm.trans hx
      simp only
      split
      · exact hx
      · exact insert_stays hx fun he => absurd he hne
    | some x' =>
      simp only
      split
      · rename_i hc
        -- what is submitting, or not yet over, has not ended
        refine insert_stays hx fun he => ?_
        cases (he ▸ hx').symm.trans hx
        rcases hc with hc | ⟨-, hc⟩
        · rw [hc] at ht
          cases ht
        · rw [ht] at hc
          cases hc
      · exact hx
  | forget now retention => exact h.elim

/-! ## Notes one after the other -/

/-- Whether what a gate has noted comes of what another one has by such notes, whatever else is different. -/
inductive Noted (ok : Note → Prop) (g : Gate) : Gate → Prop where
  | same {h : Gate} : h.executions = g.executions → Noted ok g h
  | step {h k : Gate} {n : Note} : Noted ok g h → ok n → k.executions = (h.note n).executions → Noted ok g k

variable {ok : Note → Prop} {g h k : Gate}

theorem Noted.congr (hn : Noted ok g h) (he : k.executions = h.executions) : Noted ok g k := by
  cases hn with
  | same heq => exact .same (he.trans heq)
  | step hn hok heq => exact .step hn hok (he.trans heq)

theorem Noted.trans (hg : Noted ok g h) (hh : Noted ok h k) : Noted ok g k := by
  induction hh with
  | same he => exact hg.congr he
  | step _ hok he ih => exact .step ih hok he

theorem Noted.mono (hn : Noted ok g h) {ok' : Note → Prop} (himp : ∀ n, ok n → ok' n) : Noted ok' g h := by
  induction hn with
  | same he => exact .same he
  | step _ hok he ih => exact .step ih (himp _ hok) he

theorem noted_one {n : Note} (hok : ok n) (he : h.executions = (g.note n).executions) : Noted ok g h :=
  .step (.same rfl) hok he

/-- **A record stays through notes that spare it**, however many there are. -/
theorem Noted.stays {e : ExecutionId} {x : Execution} (hn : Noted (Note.Spares e) g h)
    (hx : g.executions.get? e = some x) (ht : x.state.isTerminal = true) : h.executions.get? e = some x := by
  induction hn with
  | same he => rw [he, hx]
  | step _ hok he ih =>
    rw [he]
    exact note_stays ih ht hok

/-! ## Operations -/

theorem settle_executions (g : Gate) (t : Token) : (g.settle t).executions = g.executions := by
  rw [settle]
  cases g.registry.get? t with
  | none => exact g.signal_executions t _
  | some r =>
    simp only
    cases r.status with
    | pending => rfl
    | resolved =>
      simp only
      split
      · exact signal_executions _ t _
      · rfl
    | expired => exact g.signal_executions t _
    | cancelled => exact g.signal_executions t _

theorem onDeadline_executions (g : Gate) (t : Token) (now : Instant) :
    (g.onDeadline t now).executions = g.executions := by
  rw [onDeadline]
  split
  · exact signal_executions _ t _
  · exact settle_executions _ t

theorem receive_executions (g : Gate) (address : String) (body : ByteArray) (contentType : Option String)
    (now : Instant) : (g.receive address body contentType now).2.executions = g.executions := by
  rcases Course.receive_cases g address body contentType now with heq | ⟨t, d, heq | ⟨u, r, -, -, heq⟩⟩
  · rw [heq]
  · rw [heq]
  · rw [heq]
    exact signal_executions _ t _

theorem cancelExecution_executions (g : Gate) (e : ExecutionId) (reason : String) (now : Instant) :
    (g.cancelExecution e reason now).2.executions = g.noteCancelled e (g.registry.cancel e).1 now := by
  rw [cancelExecution_eq]
  exact signals_executions _ _ _

theorem noted_attach (e : ExecutionId) (t : Token) (deadline : Option Nat) (now : Instant) :
    Noted (fun n => n = .move e .waiting (some t) now) g (g.attach e t deadline now).2 := by
  refine noted_one rfl ?_
  show ((g.park e t deadline now).settle t).executions = _
  rw [settle_executions, park_executions]
  rfl

theorem noted_reattach (e : ExecutionId) (t : Token) (clock : Clock) :
    Noted (fun n => (∃ job, n = .meet e job clock.now) ∨ n = .move e .waiting (some t) clock.now) g
      (g.reattach e t clock).2 := by
  rw [reattach]
  cases g.registry.get? t with
  | none => exact .same rfl
  | some r =>
    simp only
    split
    · exact .same rfl
    · have met : Noted (fun n => (∃ job, n = .meet e job clock.now) ∨ n = .move e .waiting (some t) clock.now) g
          (g.note (.meet e r.wait.job clock.now)) := noted_one (.inl ⟨_, rfl⟩) rfl
      exact met.trans ((noted_attach e t _ clock.now).mono fun n hn => .inr hn)

theorem noted_cancelExecution (e : ExecutionId) (reason : String) (now : Instant) :
    Noted (fun n => ∃ tokens, n = .cancel e tokens now) g (g.cancelExecution e reason now).2 :=
  noted_one ⟨_, rfl⟩ (g.cancelExecution_executions e reason now)

theorem noted_expireOrphan (t : Token) (c : Readings) :
    Noted (fun n => ∃ e, n = .moveKnown e .timedOut (c.updated e)) g (g.expireOrphan t c).2 := by
  rw [expireOrphan]
  split
  · exact .same rfl
  · rcases g.registry.expire t (c.finished t) with ⟨answer, registry⟩
    cases answer with
    | expired e =>
      have woken : Noted (fun n => ∃ e, n = .moveKnown e .timedOut (c.updated e)) g
          (signal { g with registry } t .expired).2 := .same (signal_executions _ t .expired)
      exact woken.step ⟨e, rfl⟩ rfl
    | _ => exact .same rfl

theorem noted_expireOrphans (c : Readings) : ∀ (ts : List Token) {g : Gate},
    Noted (fun n => ∃ e, n = .moveKnown e .timedOut (c.updated e)) g (g.expireOrphans c ts).2
  | [], _ => .same rfl
  | t :: ts, _ => (noted_expireOrphan t c).trans (noted_expireOrphans c ts)

theorem noted_readMail (k : Nat) (hd : Handle) (now : Instant) :
    Noted (fun n => ∃ e s, s.isTerminal = true ∧ n = .move e s none now) g (g.readMail k hd now).2 := by
  rw [readMail]
  cases hd.mail with
  | none => exact .same rfl
  | lost => exact .same rfl
  | signal sig =>
    cases sig with
    | decision d =>
      simp only [finish]
      cases WaitOutcome.ofDecision? d with
      | none => exact .same rfl
      | some o => exact noted_one ⟨_, _, Course.WaitOutcome.state_terminal o, rfl⟩ rfl
    | expired => exact noted_one ⟨_, _, by decide, rfl⟩ rfl
    | cancelled reason => exact noted_one ⟨_, _, by decide, rfl⟩ rfl

theorem noted_poll (k : Nat) (clock : Clock) (first : Bool) :
    Noted (fun n => ∃ e s, s.isTerminal = true ∧ n = .move e s none clock.now) g (g.poll k clock first).2 := by
  cases hk : g.handles.get? k with
  | none =>
    rw [poll, hk]
    exact .same rfl
  | some hd =>
    rcases poll_cases hk clock first with ⟨-, heq⟩ | ⟨-, hd', -, -, -, heq⟩
    · rw [heq]
      exact noted_readMail k hd clock.now
    · have rung : (g.ring k hd clock.now).executions = g.executions := onDeadline_executions _ hd.token clock.now
      rw [heq]
      exact .trans (.same rung) (noted_readMail k hd' clock.now)

theorem noted_drop (k : Nat) (now : Instant) :
    Noted (fun n => ∃ e, (∃ tokens, n = .cancel e tokens now) ∨ n = .moveKnown e .aborted now) g (g.drop k now) := by
  cases hk : g.handles.get? k with
  | none =>
    rw [drop, hk]
    exact .same rfl
  | some hd =>
    rw [Course.drop_eq hk]
    have left : Noted (fun n => ∃ e, (∃ tokens, n = .cancel e tokens now) ∨ n = .moveKnown e .aborted now) g
        (g.unpark k) := .same (Course.unpark_rest g k).2
    have cancelled := left.trans ((noted_cancelExecution hd.execution "wait handle dropped" now).mono
      fun n hn => ⟨hd.execution, .inl hn⟩)
    have closed : Noted _ g (((g.unpark k).cancelExecution hd.execution "wait handle dropped" now).2.close k) :=
      cancelled.congr rfl
    exact closed.step ⟨hd.execution, .inr rfl⟩ rfl

theorem noted_beginRun (e : ExecutionId) (r : ChangeRequest) (random : Uuid) (now : Instant) :
    Noted (fun n => n = .start e (some r.job) now ∨ n = .move e .commFailure none now) g
      (g.beginRun e r random now).2 := by
  have started : Noted (fun n => n = .start e (some r.job) now ∨ n = .move e .commFailure none now) g
      (g.note (.start e (some r.job) now)) := noted_one (.inl rfl) rfl
  rcases Course.beginRun_cases g e r random now with ⟨f, heq⟩ | ⟨f, heq⟩ | ⟨i, d, -, heq⟩
  · rw [heq]
    exact .same rfl
  · rw [heq]
    exact started.step (.inr rfl) rfl
  · rw [heq]
    exact started

theorem noted_supersede (sup : Superseded) (now : Instant) :
    Noted (fun n => ∃ owner, n = .move owner .aborted none now) g (g.supersede sup now) := by
  cases sup with
  | none => exact .same rfl
  | some p =>
    have woken : Noted (fun n => ∃ owner, n = .move owner .aborted none now) g
        (g.signal p.1 (.cancelled "superseded by a newer change request for the job")).2 :=
      .same (g.signal_executions p.1 _)
    exact woken.step ⟨p.2, rfl⟩ rfl

theorem noted_finishRun (e : ExecutionId) (d : Draft) (reply : Outcome Reply) (clock : Clock) :
    Noted (fun n => ∃ e' s t, n = .move e' s t clock.now) g (g.finishRun e d reply clock).2 := by
  rw [finishRun]
  rcases Issuer.complete g.registry d e clock.now reply with ⟨result, registry⟩
  cases result with
  | error f => exact noted_one ⟨e, .commFailure, none, rfl⟩ rfl
  | ok s =>
    have registered : Noted (fun n => ∃ e' s t, n = .move e' s t clock.now) g { g with registry } := .same rfl
    have superseded : Noted (fun n => ∃ e' s t, n = .move e' s t clock.now) g
        (supersede { g with registry } s.superseded clock.now) := by
      refine registered.trans ((noted_supersede s.superseded clock.now).mono fun n hn => ?_)
      obtain ⟨owner, rfl⟩ := hn
      exact ⟨owner, .aborted, none, rfl⟩
    simp only
    split
    · exact superseded.congr rfl
    · exact superseded.trans ((noted_attach e s.token _ clock.now).mono fun n hn => ⟨e, .waiting, some s.token, hn⟩)

/-- What is done to a gate: one of the events of a course, something to its registry alone, a part of an event, or just
a note of an operation that is under way. -/
inductive Operation where
  | event (ev : Event)
  | registry (op : Registry.Operation)
  | deliver (t : Token) (d : Decision)
  | settle (t : Token)
  | onDeadline (t : Token) (now : Instant)
  | note (n : Note)

def perform (g : Gate) : Operation → Gate
  | .event ev => g.happen ev
  | .registry op => { g with registry := g.registry.perform op }
  | .deliver t d => (g.deliver t d).2
  | .settle t => g.settle t
  | .onDeadline t now => g.onDeadline t now
  | .note n => g.note n

namespace Operation

/-- What an operation may note. -/
def Makes : Operation → Note → Prop
  | .event (.beginRun e r _ now), n => n = .start e (some r.job) now ∨ n = .move e .commFailure none now
  | .event (.finishRun _ _ _ clock), n => ∃ e s t, n = .move e s t clock.now
  | .event (.attach e t _ now), n => n = .move e .waiting (some t) now
  | .event (.reattach e t clock), n => (∃ job, n = .meet e job clock.now) ∨ n = .move e .waiting (some t) clock.now
  | .event (.call (.cancel e _ now)), n => ∃ tokens, n = .cancel e tokens now
  | .event (.call (.expireOverdue _ c)), n => ∃ e, n = .moveKnown e .timedOut (c.updated e)
  | .event (.call (.poll _ clock _)), n => ∃ e s, s.isTerminal = true ∧ n = .move e s none clock.now
  | .event (.drop _ now), n => ∃ e, (∃ tokens, n = .cancel e tokens now) ∨ n = .moveKnown e .aborted now
  | .event (.sweepFinished now retention), n => n = .forget now retention
  | .note m, n => n = m
  | _, _ => False

/-- Whether an operation is neither a new run of an execution nor a sweep, nor a note of either. -/
def Spares (e : ExecutionId) : Operation → Prop
  | .event (.beginRun e' _ _ _) => e' ≠ e
  | .event (.sweepFinished _ _) => False
  | .note n => n.Spares e
  | _ => True

theorem Spares.makes {e : ExecutionId} {op : Operation} (h : op.Spares e) {n : Note} (hn : op.Makes n) :
    n.Spares e := by
  cases op with
  | event ev =>
    cases ev with
    | beginRun e' r random now =>
      rcases hn with rfl | rfl
      · exact h
      · trivial
    | finishRun e' d reply clock =>
      obtain ⟨e'', s, t, rfl⟩ := hn
      trivial
    | attach e' t deadline now =>
      cases hn
      trivial
    | reattach e' t clock =>
      rcases hn with ⟨job, rfl⟩ | rfl <;> trivial
    | call c =>
      cases c with
      | receive => exact hn.elim
      | cancel e' reason now =>
        obtain ⟨tokens, rfl⟩ := hn
        trivial
      | expireOverdue at' c =>
        obtain ⟨e', rfl⟩ := hn
        trivial
      | poll k clock first =>
        obtain ⟨e', s, -, rfl⟩ := hn
        trivial
    | drop k now =>
      obtain ⟨e', ⟨tokens, rfl⟩ | rfl⟩ := hn <;> trivial
    | sweepFinished now retention => exact h.elim
    | register w => exact hn.elim
    | upkeep op quiet => exact hn.elim
  | note m =>
    cases hn
    exact h
  | _ => exact hn.elim

end Operation

/-- **An operation notes only what is its own to note.** -/
theorem noted_perform (g : Gate) (op : Operation) : Noted op.Makes g (g.perform op) := by
  cases op with
  | event ev =>
    cases ev with
    | register w => exact .same rfl
    | upkeep op quiet => exact .same rfl
    | beginRun e r random now => exact noted_beginRun e r random now
    | finishRun e d reply clock => exact noted_finishRun e d reply clock
    | attach e t deadline now => exact noted_attach e t deadline now
    | reattach e t clock => exact noted_reattach e t clock
    | call c =>
      cases c with
      | receive address body contentType now => exact .same (g.receive_executions address body contentType now)
      | cancel e reason now => exact noted_cancelExecution e reason now
      | expireOverdue at' c => exact noted_expireOrphans c _
      | poll k clock first => exact noted_poll k clock first
    | drop k now => exact noted_drop k now
    | sweepFinished now retention => exact noted_one rfl rfl
  | registry op => exact .same rfl
  | deliver t d => exact .same (g.signal_executions t _)
  | settle t => exact .same (g.settle_executions t)
  | onDeadline t now => exact .same (g.onDeadline_executions t now)
  | note n => exact noted_one rfl rfl

end Gate

/-- **A terminal state is final.**  Once an execution has ended, its record stays as it is (its state, the instant of
its last change and all else) through everything that is done to its gate, in any order and as often as it may be, but
for a new run of the execution and a sweep.  The operations need not be whole: what those under way note in between,
they note at any time. -/
theorem terminal_record_stays {g : Gate} {e : ExecutionId} {x : Execution} (hx : g.execution? e = some x)
    (ht : x.state.isTerminal = true) (ops : List Gate.Operation) (h : ∀ op ∈ ops, op.Spares e) :
    (ops.foldl Gate.perform g).execution? e = some x := by
  induction ops generalizing g with
  | nil => exact hx
  | cons op ops ih =>
    obtain ⟨hop, hops⟩ := List.forall_mem_cons.1 h
    have noted : Gate.Noted (Note.Spares e) g (g.perform op) := (g.noted_perform op).mono fun n hn => hop.makes hn
    exact ih (noted.stays hx ht) hops

/-- What comes too late for an approved execution changes nothing that is noted of it: it is parked again at its token,
a new wait for the job supersedes its second wait, a pass over overdue waits expires its third one, a handle is dropped,
both executions are cancelled, and the handles still there are polled. -/
theorem approved_execution_stays :
    let t : Token := default
    let u : Token := ⟨"other", by decide⟩
    let e : ExecutionId := default
    let e' : ExecutionId := ⟨.numbered 2⟩
    let late : Instant := ⟨60, 0, by decide⟩
    let yes : Decision := ⟨t, .null, .approved, none, .epoch⟩
    let evs : List Gate.Event := [.register (Wait.start t e .epoch),
      .register { Wait.start u e .epoch with job := some "deploy" },
      .register { Wait.start ⟨"third", by decide⟩ e .epoch with expiresAt := some .epoch },
      .attach e t none .epoch, .attach e u none .epoch]
    let approval : List Gate.Operation :=
      [.registry (.resolve t yes), .deliver t yes, .event (.call (.poll 1 ⟨.epoch, 0⟩ false))]
    let ops : List Gate.Operation := [.event (.attach e t none late), .event (.reattach e t ⟨late, 0⟩),
      .event (.register { Wait.start ⟨"next", by decide⟩ e' late with job := some "deploy" }),
      .note (.move e .aborted none late), .event (.call (.expireOverdue late (.still late))), .event (.drop 2 late),
      .event (.call (.cancel e' "stop" late)), .event (.call (.cancel e "stop" late)), .event (.attach e t none late),
      .settle t, .event (.call (.poll 3 ⟨late, 0⟩ false)), .event (.call (.poll 5 ⟨late, 0⟩ true))]
    let g := (approval.foldl Gate.perform (evs.foldl Gate.happen (.start .empty none)))
    let x : Execution := ⟨e, .approved, some u, none, .epoch⟩
    g.execution? e = some x ∧ (ops.foldl Gate.perform g).execution? e = some x := by
  intro t u e e' late yes evs approval ops g x
  have hx : g.execution? e = some x := by decide
  have spared : ∀ op ∈ ops, op.Spares e := by simp [ops, Gate.Operation.Spares, Note.Spares]
  exact ⟨hx, terminal_record_stays hx rfl ops spared⟩

end ApprovalGate
