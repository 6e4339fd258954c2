import ApprovalGate.Proofs.Gate.Sequential
import ApprovalGate.Proofs.Gate.Waiters
/-!
# What a handle hears

Calls on a gate, and what a handle answers to them.  A handle that has its mail answers with it at its next poll, and
to nothing else after that (`Mailed.heard`).  One whose continuation is parked on a token is woken by whatever call ends
the wait there (`Listens.wakes`).
-/
namespace ApprovalGate

namespace Gate

/-- What goes on around a handle. -/
inductive Call where
  | receive (address : String) (body : ByteArray) (contentType : Option String) (now : Instant)
  | cancel (e : ExecutionId) (reason : String) (now : Instant)
  | expireOverdue (at' : Instant) (c : Readings)
  | poll (serial : Nat) (clock : Clock) (timerFirst : Bool)

def act (g : Gate) : Call → Gate
  | .receive address body contentType now => (g.receive address body contentType now).2
  | .cancel e reason now => (g.cancelExecution e reason now).2
  | .expireOverdue at' c => (g.expireOverdue at' c).2
  | .poll serial clock first => (g.poll serial clock first).2

def actAll (g : Gate) (calls : List Call) : Gate := calls.foldl act g

/-- What a handle answers to a call: nothing, unless it is polled and done. -/
def answer? (g : Gate) (s : Nat) : Call → Option (Outcome WaitOutcome)
  | .poll serial clock first => if serial = s then (g.poll serial clock first).1 else none
  | _ => none

/-- What a handle answers to one call after the other. -/
def heard (g : Gate) (s : Nat) : List Call → List (Option (Outcome WaitOutcome))
  | [] => []
  | c :: calls => g.answer? s c :: (g.act c).heard s calls

/-- Whether a call ends the wait under a token by a decision that is accepted or by a cancellation. -/
def Ends (g : Gate) (t : Token) : Call → Prop
  | .receive address body contentType now => (∃ x, Token.parse? address = some x ∧ g.registry.canonical x = t) ∧
      ∃ e v, (g.receive address body contentType now).1 = .accepted e v
  | .cancel e _ _ => t ∈ (g.registry.cancel e).1
  | _ => False

/-- Whether no decision that is accepted and no cancellation of the wait under a token leaves a handle parked. -/
def Wakes (g : Gate) (t : Token) (s : Nat) : Prop :=
  ∀ calls c h, (g.actAll calls).Ends t c → ((g.actAll calls).act c).handles.get? s = some h → h.mail ≠ .none

end Gate

open Gate (Call)

/-! ## Calls as runs -/

/-- The moves that a call begins with. -/
inductive Gate.Call.Begins : Call → Move → Prop where
  | deliver {address : String} {body : ByteArray} {contentType : Option String} {now : Instant} (x : Token)
      (d : Decision) : Begins (.receive address body contentType now) (.deliver x d)
  | cancel {e : ExecutionId} {reason : String} {now : Instant} : Begins (.cancel e reason now) (.cancel e reason)
  | overdue {at' : Instant} {c : Readings} : Begins (.expireOverdue at' c) (.overdue at' c.finished)
  | fire {serial : Nat} {clock : Clock} {first : Bool} : Begins (.poll serial clock first) (.fire serial clock.now)
  | read {serial : Nat} {clock : Clock} {first : Bool} : Begins (.poll serial clock first) (.read serial clock.now)

theorem leads_act (g : Gate) (c : Call) :
    ∃ results, Traffic.Leads c.Begins (.idle g) ⟨g.act c, [], results⟩ := by
  cases c with
  | receive address body contentType now =>
    refine ⟨_, (Traffic.leads_receive address body contentType now).mono fun m hm => ?_⟩
    obtain ⟨x, d, -, rfl, -⟩ := hm
    exact .deliver x d
  | cancel e reason now => exact ⟨_, (Traffic.leads_cancelExecution e reason now).mono fun m hm => hm ▸ .cancel⟩
  | expireOverdue at' c => exact ⟨_, (Traffic.leads_expireOverdue at' c).mono fun m hm => hm ▸ .overdue⟩
  | poll serial clock first =>
    refine ⟨_, (Traffic.leads_poll serial clock first).mono fun m hm => ?_⟩
    rcases hm with rfl | rfl
    · exact .fire
    · exact .read

/-- Whether a part of a step can be one of those that a call comes to. -/
def Gate.Call.Has (c : Call) (st : Step) : Prop := ∀ m, st = .begin m → m.isAccount = true ∨ c.Begins m

namespace Gate.Call.Has

variable {c : Call} {st : Step}

theorem not_attach (h : c.Has st) (e : ExecutionId) (t : Token) (deadline : Option Nat) (now : Instant) :
    st ≠ .begin (.attach e t deadline now) := fun hst => by
  rcases h _ hst with h | h <;> cases h

theorem not_leave (h : c.Has st) (s : Nat) : st ≠ .begin (.leave s) := fun hst => by
  rcases h _ hst with h | h <;> cases h

/-- Only polling a handle takes it out of the gate. -/
theorem not_closes (h : c.Has st) {s : Nat} (hc : ∀ clock first, c ≠ .poll s clock first) : ¬st.Closes s := by
  intro hcl
  cases hcl with
  | read _ now =>
    rcases h _ rfl with h | h
    · cases h
    · cases h
      exact hc _ _ rfl
  | close _ => rcases h _ rfl with h | h <;> cases h

end Gate.Call.Has

/-- **What every part keeps that a call can have, the call keeps.** -/
theorem act_keeps {P : Gate → Prop} {c : Call} (hP : ∀ {g h : Gate} {st : Step}, Shift g st h → c.Has st → P g → P h)
    {g : Gate} (hg : P g) : P (g.act c) := by
  obtain ⟨results, steps, hb, heq⟩ := leads_act g c
  suffices h : ∀ (steps : List Step) (x : Traffic), (∀ st ∈ steps, c.Has st) → P x.gate → P (x.run steps).gate by
    have := h steps (.idle g) (fun st hst m hm => hb m (hm ▸ hst)) hg
    rwa [heq] at this
  intro steps
  induction steps with
  | nil => exact fun x _ hx => hx
  | cons st steps ih =>
    intro x hs hx
    exact ih (x.step st) (fun st' hst => hs st' (List.mem_cons_of_mem _ hst))
      (hP (x.step_shift st) (hs st List.mem_cons_self) hx)

/-! ## A handle that has its answer -/

/-- A handle with mail, and nothing parked for it any more. -/
structure Mailed (g : Gate) (s : Nat) (e : ExecutionId) (sig : Signal) : Prop where
  given : s < g.nextSerial
  alone : ∀ u w, g.waiters.get? u = some w → w.serial ≠ s
  handle : ∃ h, g.handles.get? s = some h ∧ h.execution = e ∧ h.mail = .signal sig

/-- A handle that is out of its gate. -/
structure Gone (g : Gate) (s : Nat) : Prop where
  given : s < g.nextSerial
  gone : g.handles.get? s = none

/-- **Mail stays with its handle** until the handle is taken out. -/
theorem Shift.mailed {g h : Gate} {st : Step} {s : Nat} {e : ExecutionId} {sig : Signal} (sh : Shift g st h)
    (m : Mailed g s e sig) : Mailed h s e sig ∨ st.Closes s ∧ Gone h s := by
  obtain ⟨hd, hs, he, hm⟩ := m.handle
  have other : ∀ {u}, (g.waiters.get? u).map Waiter.serial ≠ some s := fun {u} hu => by
    obtain ⟨w, hw, hws⟩ := Option.map_eq_some_iff.1 hu
    exact m.alone u w hw hws
  have given := Nat.lt_of_lt_of_le m.given sh.nextSerial_le
  have alone : ∀ u w, h.waiters.get? u = some w → w.serial ≠ s := fun u w hw => by
    rcases sh.waiters_or hw with hw | ⟨-, hws, -⟩
    · exact m.alone u w hw
    · exact hws ▸ Nat.ne_of_gt m.given
  cases sh with
  | still _ hh _ => exact .inl ⟨given, alone, hd, hh ▸ hs, he, hm⟩
  | attach e' u deadline now =>
    refine .inl ⟨given, alone, hd, ?_, he, hm⟩
    rw [Gate.park_handles, if_neg (Nat.ne_of_gt m.given), if_neg other, hs]
  | @fire serial now hd' h hk _ hh _ =>
    refine .inl ⟨given, alone, ?_⟩
    rw [hh, Table.get?_insert]
    split
    · rename_i hks
      rw [hks, hs] at hk
      cases hk
      exact ⟨_, rfl, he, hm⟩
    · exact ⟨hd, hs, he, hm⟩
  | @close st serial h hcl _ hh _ =>
    by_cases hne : s = serial
    · subst hne
      exact .inr ⟨hcl, given, hh ▸ Table.get?_erase_self _ _⟩
    · refine .inl ⟨given, alone, hd, ?_, he, hm⟩
      rw [hh, Table.get?_erase, if_neg hne, hs]
  | leave serial =>
    refine .inl ⟨given, alone, hd, ?_, he, hm⟩
    rw [Gate.unpark_handles, hs]
  | wake u sig' =>
    refine .inl ⟨given, alone, hd, ?_, he, hm⟩
    rw [Gate.signal_handles, if_neg other, hs]

theorem Shift.gone {g h : Gate} {st : Step} {s : Nat} (sh : Shift g st h) (o : Gone g s) : Gone h s := by
  refine ⟨Nat.lt_of_lt_of_le o.given sh.nextSerial_le, ?_⟩
  cases hs : h.handles.get? s with
  | none => rfl
  | some hd =>
    rcases sh.handles_or hs with ⟨hd', hs', -⟩ | ⟨-, hs', -⟩
    · cases o.gone.symm.trans hs'
    · exact absurd hs' (Nat.ne_of_lt o.given)

theorem Gone.heard {s : Nat} : ∀ (calls : List Call) {g : Gate}, Gone g s → g.heard s calls = calls.map fun _ => none
  | [], _, _ => rfl
  | c :: calls, g, o => by
    have answer : g.answer? s c = none := by
      cases c with
      | poll serial clock first =>
        rw [Gate.answer?]
        split
        · rename_i hs
          rw [Gate.poll, hs, o.gone]
        · rfl
      | _ => rfl
    rw [Gate.heard, answer, Gone.heard calls (act_keeps (fun sh _ o => sh.gone o) o)]
    rfl

/-- Whether a signal answers its handle for good: an interim decision does not. -/
def Signal.isFinal : Signal → Bool
  | .decision d => d.verdict.isTerminal
  | .expired | .cancelled _ => true

/-- The answer that a final signal gives is that of the execution, whatever the gate and the token. -/
theorem finish_answer {sig : Signal} (hf : sig.isFinal = true) (g g' : Gate) (s : Nat) {h h' : Handle}
    (now : Instant) (he : h.execution = h'.execution) :
    (g.finish s h sig now).1 = (g'.finish s h' sig now).1 := by
  cases sig with
  | decision d =>
    simp only [Gate.finish]
    cases ho : WaitOutcome.ofDecision? d with
    | some o => rfl
    | none =>
      rw [WaitOutcome.ofDecision?] at ho
      rw [Signal.isFinal] at hf
      cases hv : d.verdict <;> rw [hv] at ho hf <;> cases ho
      cases hf
  | expired => rfl
  | cancelled reason =>
    simp only [Gate.finish]
    rw [he]

theorem finish_gone (g : Gate) (s : Nat) (h : Handle) (sig : Signal) (now : Instant) :
    (g.finish s h sig now).2.handles.get? s = none ∧ (g.finish s h sig now).2.nextSerial = g.nextSerial := by
  have closed : (g.close s).handles.get? s = none := Table.get?_erase_self _ _
  cases sig with
  | decision d =>
    simp only [Gate.finish]
    cases WaitOutcome.ofDecision? d <;> exact ⟨closed, rfl⟩
  | expired => exact ⟨closed, rfl⟩
  | cancelled reason => exact ⟨closed, rfl⟩

/-- A handle with mail answers by it when it is polled, and is done. -/
theorem Mailed.poll {g : Gate} {s : Nat} {e : ExecutionId} {sig : Signal} (m : Mailed g s e sig) (clock : Clock)
    (first : Bool) : Gone (g.poll s clock first).2 s ∧
      ∃ g' h, h.execution = e ∧ (g.poll s clock first).1 = some (Gate.finish g' s h sig clock.now).1 := by
  obtain ⟨h, hs, he, hm⟩ := m.handle
  have read {g' : Gate} {h' : Handle} (next : g'.nextSerial = g.nextSerial) (he : h'.execution = e)
      (hm : h'.mail = .signal sig) : Gone (g'.readMail s h' clock.now).2 s ∧
        ∃ g'' h, h.execution = e ∧ (g'.readMail s h' clock.now).1 = some (Gate.finish g'' s h sig clock.now).1 := by
    rw [Gate.readMail, hm]
    obtain ⟨gone, next'⟩ := finish_gone g' s h' sig clock.now
    exact ⟨⟨(next'.trans next).symm ▸ m.given, gone⟩, g', h', he, rfl⟩
  rcases Gate.poll_cases hs clock first with ⟨-, heq⟩ | ⟨-, h', hs', he', -, heq⟩
  · rw [heq]
    exact read rfl he hm
  · -- its timer tells others only, since nothing is parked for it
    have same : h' = { h with deadline := none } :=
      Option.some.inj (hs'.symm.trans (Gate.ring_apart (m.alone h.token) clock.now))
    rw [heq]
    exact read (g.ring_nextSerial s h clock.now) (he'.trans he) (by rw [same]; exact hm)

/-- **The same mail is answered in the same way**, at the first poll, whatever else goes on in the two gates. -/
theorem Mailed.heard {s : Nat} {e : ExecutionId} {sig : Signal} (hf : sig.isFinal = true) : ∀ (calls : List Call)
    {g g' : Gate}, Mailed g s e sig → Mailed g' s e sig → g.heard s calls = g'.heard s calls
  | [], _, _, _, _ => rfl
  | c :: calls, g, g', m, m' => by
    by_cases hc : ∃ clock first, c = .poll s clock first
    · obtain ⟨clock, first, rfl⟩ := hc
      obtain ⟨gone, k, h, he, hans⟩ := m.poll clock first
      obtain ⟨gone', k', h', he', hans'⟩ := m'.poll clock first
      rw [Gate.heard, Gate.heard, Gate.answer?, Gate.answer?, if_pos rfl, if_pos rfl, hans, hans',
        finish_answer hf k k' s clock.now (he.trans he'.symm), Gate.act, Gate.act, gone.heard, gone'.heard]
    · have hn : ∀ clock first, c ≠ .poll s clock first := fun clock first heq => hc ⟨clock, first, heq⟩
      have silent : ∀ g : Gate, g.answer? s c = none := fun g => by
        cases c with
        | poll serial clock first =>
          rw [Gate.answer?, if_neg]
          rintro rfl
          exact hn clock first rfl
        | _ => rfl
      have kept : ∀ {g : Gate}, Mailed g s e sig → Mailed (g.act c) s e sig := fun m =>
        act_keeps (fun sh hst m => (sh.mailed m).resolve_right fun hc => hst.not_closes hn hc.1) m
      rw [Gate.heard, Gate.heard, silent, silent, Mailed.heard hf calls (kept m) (kept m')]

/-- A handle with mail is never parked again, so no call leaves it so. -/
theorem Mailed.wakes {g : Gate} {s : Nat} {e : ExecutionId} {sig : Signal} (m : Mailed g s e sig) (t : Token) :
    g.Wakes t s := by
  have kept : ∀ (calls : List Call) {g : Gate}, Mailed g s e sig ∨ Gone g s →
      Mailed (g.actAll calls) s e sig ∨ Gone (g.actAll calls) s := by
    intro calls
    induction calls with
    | nil => exact id
    | cons c calls ih =>
      refine fun hg => ih (act_keeps (P := fun g => Mailed g s e sig ∨ Gone g s) (fun sh _ hg => ?_) hg)
      exact hg.elim (fun m => (sh.mailed m).imp_right And.right) fun o => .inr (sh.gone o)
  intro calls c h _ hs hm
  rcases kept (calls ++ [c]) (.inl m) with m' | o
  · obtain ⟨h', hs', -, hm'⟩ := m'.handle
    rw [Gate.actAll, List.foldl_append] at hs'
    cases hs.symm.trans hs'
    cases hm.symm.trans hm'
  · have gone := o.gone
    rw [Gate.actAll, List.foldl_append] at gone
    cases hs.symm.trans gone

/-! ## A handle that listens -/

/-- A handle that has no mail is the one that is parked on its token. -/
structure Listens (g : Gate) (t : Token) (s : Nat) : Prop where
  given : s < g.nextSerial
  owns : Owns g t s
  parked : ∀ h, g.handles.get? s = some h → h.mail = .none → ∃ w, g.waiters.get? t = some w

theorem Shift.listens {g h : Gate} {st : Step} {t : Token} {s : Nat} (sh : Shift g st h) (l : Listens g t s)
    (ha : ∀ e deadline now, st ≠ .begin (.attach e t deadline now)) (hl : st ≠ .begin (.leave s)) : Listens h t s := by
  refine ⟨Nat.lt_of_lt_of_le l.given sh.nextSerial_le, sh.owns l.owns l.given ha, fun hd hs hm => ?_⟩
  have stays (hd' : Handle) (hs' : g.handles.get? s = some hd') (hm' : hd'.mail = .none) :
      ∃ w, h.waiters.get? t = some w := by
    obtain ⟨w, hw⟩ := l.parked hd' hs' hm'
    obtain rfl : w.serial = s := (l.owns t w hw).2 rfl
    exact ⟨w, sh.waiter_stays hw l.given hl hs hm⟩
  cases sh.origin hs with
  | parked => exact absurd l.given (Nat.lt_irrefl _)
  | same hs' => exact stays hd hs' hm
  | @rung _ _ hd' now hs' => exact stays hd' hs' hm
  | replaced => cases hm
  | woken => cases hm

theorem Listens.act {g : Gate} {t : Token} {s : Nat} (l : Listens g t s) (c : Call) : Listens (g.act c) t s :=
  act_keeps (fun sh hst l => sh.listens l (fun e deadline now => hst.not_attach e t deadline now) (hst.not_leave s)) l

theorem Listens.actAll {t : Token} {s : Nat} : ∀ (calls : List Call) {g : Gate}, Listens g t s →
    Listens (g.actAll calls) t s
  | [], _, l => l
  | c :: calls, _, l => Listens.actAll calls (l.act c)

/-! ## What a call that ends the wait does -/

theorem signals_waiters (sig : Signal) (t : Token) : ∀ (ts : List Token) (g : Gate),
    (ts.foldl (fun (g : Gate) t => (g.signal t sig).2) g).waiters.get? t = if t ∈ ts then none else g.waiters.get? t
  | [], g => by rw [if_neg List.not_mem_nil]; rfl
  | u :: ts, g => by
    rw [List.foldl_cons, signals_waiters sig t ts, Gate.signal_waiters]
    by_cases ht : t ∈ ts
    · rw [if_pos ht, if_pos (List.mem_cons_of_mem _ ht)]
    · rw [if_neg ht]
      simp only [List.mem_cons, ht, or_false]

theorem Owns.signal {g : Gate} {t : Token} {s : Nat} (o : Owns g t s) (u : Token) (sig : Signal) :
    Owns (g.signal u sig).2 t s := fun v w hw => by
  rw [Gate.signal_waiters] at hw
  split at hw
  · cases hw
  · exact o v w hw

/-- Of the continuations parked on some tokens, which are woken one after the other, only its own gives mail to a
handle. -/
theorem signals_handles (sig : Signal) {t : Token} {s : Nat} : ∀ (ts : List Token) {g : Gate}, Owns g t s →
    (ts.foldl (fun (g : Gate) t => (g.signal t sig).2) g).handles.get? s =
      if t ∈ ts ∧ (g.waiters.get? t).isSome = true then (g.handles.get? s).map fun h => { h with mail := .signal sig }
      else g.handles.get? s
  | [], g, _ => by rw [if_neg fun h => List.not_mem_nil h.1]; rfl
  | u :: ts, g, o => by
    rw [List.foldl_cons, signals_handles sig ts (o.signal u sig), Gate.signal_waiters, Gate.signal_handles]
    by_cases hu : u = t
    · subst hu
      have none (p : Prop) : ¬(p ∧ (none : Option Waiter).isSome = true) := fun h => Bool.false_ne_true h.2
      rw [if_pos rfl, if_neg (none _)]
      cases hw : g.waiters.get? u with
      | none => rw [if_neg (none _), Option.map_none, if_neg (Option.some_ne_none s).symm]
      | some w =>
        rw [Option.map_some, (o u w hw).2 rfl, if_pos rfl, if_pos ⟨List.mem_cons_self, rfl⟩]
    · have other : (g.waiters.get? u).map Waiter.serial ≠ some s := fun hw => by
        obtain ⟨w, hw, hws⟩ := Option.map_eq_some_iff.1 hw
        exact hu ((o u w hw).1 hws)
      rw [if_neg (Ne.symm hu), if_neg other]
      simp only [List.mem_cons, Ne.symm hu, false_or]

theorem signals_registry (sig : Signal) : ∀ (ts : List Token) (g : Gate),
    (ts.foldl (fun (g : Gate) t => (g.signal t sig).2) g).registry = g.registry
  | [], _ => rfl
  | t :: ts, g => by rw [List.foldl_cons, signals_registry sig ts, Gate.signal_registry]

theorem cancelExecution_registry (g : Gate) (e : ExecutionId) (reason : String) (now : Instant) :
    (g.cancelExecution e reason now).2.registry = (g.registry.cancel e).2 := by
  rw [Gate.cancelExecution]
  simp only
  split
  · split <;> exact signals_registry _ _ _
  · split <;> exact signals_registry _ _ _

theorem cancelExecution_handles (g : Gate) (e : ExecutionId) (reason : String) (now : Instant) :
    (g.cancelExecution e reason now).2.handles = ((g.registry.cancel e).1.foldl
      (fun (g : Gate) t => (g.signal t (.cancelled reason)).2) { g with registry := (g.registry.cancel e).2 }).handles ∧
    (g.cancelExecution e reason now).2.waiters = ((g.registry.cancel e).1.foldl
      (fun (g : Gate) t => (g.signal t (.cancelled reason)).2)
      { g with registry := (g.registry.cancel e).2 }).waiters := by
  rw [Gate.cancelExecution]
  simp only
  split
  · split <;> exact ⟨rfl, rfl⟩
  · split <;> exact ⟨rfl, rfl⟩

/-- **When a wait ends by a decision or a cancellation, nothing stays parked on its token.** -/
theorem Gate.Ends.waiters {g : Gate} {t : Token} {c : Call} (h : g.Ends t c) : (g.act c).waiters.get? t = none := by
  cases c with
  | receive address body contentType now =>
    obtain ⟨⟨x, hx, rfl⟩, e, v, hr⟩ := h
    rw [Gate.act]
    rw [Gate.receive, hx] at hr ⊢
    simp only at hr ⊢
    rcases hrec : g.record (g.registry.canonical x) body contentType now with ⟨receipt, d?, g'⟩
    rw [hrec] at hr
    cases d? with
    | some d =>
      simp only [Gate.deliver, Gate.signal_waiters, if_true]
    | none =>
      -- a delivery that hands nothing over was not accepted
      exfalso
      cases hr
      rw [Gate.record] at hrec
      split at hrec
      · cases hrec
      · split at hrec
        · cases hrec
        · split at hrec <;> cases hrec
  | cancel e reason now =>
    rw [Gate.act, (cancelExecution_handles g e reason now).2, signals_waiters]
    exact if_pos h
  | expireOverdue at' c => cases h
  | poll serial clock first => cases h

/-- A handle with mail whose token nothing is parked on any more. -/
theorem Listens.mailed {g : Gate} {t : Token} {s : Nat} (l : Listens g t s) (hw : g.waiters.get? t = none)
    {h : Handle} (hs : g.handles.get? s = some h) {sig : Signal} (hm : h.mail = .signal sig) :
    Mailed g s h.execution sig := by
  refine ⟨l.given, fun u w hu hws => ?_, h, hs, rfl, hm⟩
  cases (l.owns u w hu).1 hws
  cases hw.symm.trans hu

theorem Listens.wakes {g : Gate} {t : Token} {s : Nat} (l : Listens g t s) : g.Wakes t s := by
  intro calls c h hc hs hm
  obtain ⟨w, hw⟩ := ((l.actAll calls).act c).parked h hs hm
  cases hc.waiters.symm.trans hw

end ApprovalGate
