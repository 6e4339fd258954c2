import ApprovalGate.Proofs.Gate.Traffic
/-!
# What a step does to continuations and handles

Most parts of steps leave both alone (`Shift`).  Only the continuation of the token that a part names is ever touched,
and only the handle that it belongs to (`Shift.origin`), so a handle and its continuation stay as they are through every
other part (`Shift.untouched`).  No two continuations belong to one handle (`Sole`), and with what holds of the registry
that is true of every gate that runs lead to (`Gate.Orderly`).
-/
namespace ApprovalGate

namespace Gate

theorem post_handles (g : Gate) (k l : Nat) (mail : Mail) : (g.post k mail).handles.get? l =
    if k = l then (g.handles.get? l).map fun h => { h with mail } else g.handles.get? l := by
  rw [post]
  cases hk : g.handles.get? k with
  | none =>
    simp only
    by_cases hkl : k = l
    · subst hkl
      rw [if_pos rfl, hk]
      rfl
    · rw [if_neg hkl]
  | some h =>
    show (g.handles.insert k { h with mail }).get? l = _
    rw [Table.get?_insert]
    by_cases hkl : k = l
    · subst hkl
      rw [if_pos rfl, if_pos rfl, hk]
      rfl
    · rw [if_neg hkl, if_neg hkl]

theorem post_waiters (g : Gate) (k : Nat) (mail : Mail) : (g.post k mail).waiters = g.waiters := by
  rw [post]
  split <;> rfl

theorem post_nextSerial (g : Gate) (k : Nat) (mail : Mail) : (g.post k mail).nextSerial = g.nextSerial := by
  rw [post]
  split <;> rfl

theorem signal_waiters (g : Gate) (t u : Token) (s : Signal) :
    (g.signal t s).2.waiters.get? u = if u = t then none else g.waiters.get? u := by
  rw [signal]
  cases ht : g.waiters.get? t with
  | none =>
    simp only
    split
    · rename_i hu
      rw [hu, ht]
    · rfl
  | some w =>
    simp only [post_waiters]
    exact Table.get?_erase _ _ _

theorem signal_handles (g : Gate) (t : Token) (s : Signal) (k : Nat) : (g.signal t s).2.handles.get? k =
    if (g.waiters.get? t).map Waiter.serial = some k then (g.handles.get? k).map fun h => { h with mail := .signal s }
    else g.handles.get? k := by
  rw [signal]
  cases g.waiters.get? t with
  | none => rfl
  | some w =>
    simp only [post_handles, Option.map_some, Option.some.injEq]

/-- Whoever settles on a token is told something there or not, and nothing else is done but to the registry. -/
theorem settle_eq (g : Gate) (t : Token) : ∃ registry, g.settle t = { g with registry } ∨
    ∃ sig, g.settle t = (signal { g with registry } t sig).2 := by
  rw [settle]
  cases g.registry.get? t with
  | none => exact ⟨g.registry, .inr ⟨_, rfl⟩⟩
  | some r =>
    simp only
    cases r.status with
    | pending => exact ⟨g.registry, .inl rfl⟩
    | resolved =>
      refine ⟨(g.registry.takeDecision t).2, ?_⟩
      simp only
      split
      · exact .inr ⟨_, rfl⟩
      · exact .inl rfl
    | expired => exact ⟨g.registry, .inr ⟨_, rfl⟩⟩
    | cancelled => exact ⟨g.registry, .inr ⟨_, rfl⟩⟩

theorem onDeadline_eq (g : Gate) (t : Token) (now : Instant) : ∃ registry, g.onDeadline t now = { g with registry } ∨
    ∃ sig, g.onDeadline t now = (signal { g with registry } t sig).2 := by
  rw [onDeadline]
  split
  · exact ⟨_, .inr ⟨_, rfl⟩⟩
  · exact settle_eq _ t

section Keeps

variable {α : Type} {f : Handle → α} (keeps : ∀ h mail, f { h with mail } = f h)
include keeps

/-- Whoever is woken is changed in nothing but the mail. -/
theorem signal_keeps (g : Gate) (t : Token) (s : Signal) (k : Nat) :
    ((g.signal t s).2.handles.get? k).map f = (g.handles.get? k).map f := by
  rw [signal_handles]
  split
  · rw [Option.map_map]
    exact congrArg (fun f => (g.handles.get? k).map f) (funext fun h => keeps h _)
  · rfl

theorem settle_keeps (g : Gate) (t : Token) (k : Nat) :
    ((g.settle t).handles.get? k).map f = (g.handles.get? k).map f := by
  obtain ⟨registry, h | ⟨sig, h⟩⟩ := g.settle_eq t
  · rw [h]
  · rw [h]
    exact signal_keeps keeps _ t sig k

end Keeps

theorem signal_nextSerial (g : Gate) (t : Token) (s : Signal) : (g.signal t s).2.nextSerial = g.nextSerial := by
  rw [signal]
  split
  · rfl
  · exact post_nextSerial _ _ _

/-! ### Timers -/

/-- The gate once the timer of a handle has gone off, and whoever is parked on its token has been told. -/
def ring (g : Gate) (s : Nat) (h : Handle) (now : Instant) : Gate :=
  onDeadline { g with handles := g.handles.insert s { h with deadline := none } } h.token now

/-- The handle itself loses its deadline, and is told something if it is its own continuation that is parked there. -/
theorem ring_cases (g : Gate) (s : Nat) (h : Handle) (now : Instant) :
    ∃ mail, (g.ring s h now).handles.get? s = some { h with deadline := none, mail } ∧
      (mail = h.mail ∨ (g.waiters.get? h.token).map Waiter.serial = some s ∧ ∃ sig, mail = .signal sig) := by
  obtain ⟨registry, heq | ⟨sig, heq⟩⟩ :=
    onDeadline_eq { g with handles := g.handles.insert s { h with deadline := none } } h.token now
  · rw [ring, heq]
    exact ⟨h.mail, Table.get?_insert_self _ _ _, .inl rfl⟩
  · rw [ring, heq, signal_handles, Table.get?_insert_self]
    split
    · rename_i hw
      exact ⟨.signal sig, rfl, .inr ⟨hw, sig, rfl⟩⟩
    · exact ⟨h.mail, rfl, .inl rfl⟩

theorem ring_nextSerial (g : Gate) (s : Nat) (h : Handle) (now : Instant) :
    (g.ring s h now).nextSerial = g.nextSerial := by
  obtain ⟨registry, heq | ⟨sig, heq⟩⟩ :=
    onDeadline_eq { g with handles := g.handles.insert s { h with deadline := none } } h.token now
  · rw [ring, heq]
  · rw [ring, heq, signal_nextSerial]

/-- A handle that has mail has mail still when its timer has gone off. -/
theorem ring_mail {g : Gate} {s : Nat} {h h' : Handle} {now : Instant} (hm : h.mail ≠ .none)
    (hs : (g.ring s h now).handles.get? s = some h') : h'.mail ≠ .none := by
  obtain ⟨mail, hs', rfl | ⟨-, sig, rfl⟩⟩ := g.ring_cases s h now
  · cases hs.symm.trans hs'
    exact hm
  · cases hs.symm.trans hs'
    intro hn
    cases hn

/-- A handle for which nothing is parked on its token is not told anything. -/
theorem ring_apart {g : Gate} {s : Nat} {h : Handle} (apart : ∀ w, g.waiters.get? h.token = some w → w.serial ≠ s)
    (now : Instant) : (g.ring s h now).handles.get? s = some { h with deadline := none } := by
  obtain ⟨mail, hs, rfl | ⟨hw, -⟩⟩ := g.ring_cases s h now
  · exact hs
  · obtain ⟨w, hw, hws⟩ := Option.map_eq_some_iff.1 hw
    exact absurd hws (apart w hw)

/-- A poll reads the handle's mail as it is, or after its timer has gone off. -/
theorem poll_cases {g : Gate} {s : Nat} {h : Handle} (hs : g.handles.get? s = some h) (clock : Clock) (first : Bool) :
    (h.isDue clock = true → h.mail ≠ .none ∧ first = false) ∧ g.poll s clock first = g.readMail s h clock.now ∨
      h.isDue clock = true ∧ ∃ h', (g.ring s h clock.now).handles.get? s = some h' ∧ h'.execution = h.execution ∧
        h'.token = h.token ∧ g.poll s clock first = (g.ring s h clock.now).readMail s h' clock.now := by
  obtain ⟨mail, hs', -⟩ := g.ring_cases s h clock.now
  rw [poll, hs]
  by_cases hc : h.isDue clock = true ∧ (h.mail = .none ∨ first = true)
  · refine .inr ⟨hc.1, _, hs', rfl, rfl, (if_pos hc).trans ?_⟩
    rw [ring] at hs' ⊢
    simp only [hs']
  · refine .inl ⟨fun due => ?_, if_neg hc⟩
    exact ⟨fun hm => hc ⟨due, .inl hm⟩, Bool.eq_false_iff.2 fun hf => hc ⟨due, .inr hf⟩⟩

theorem park_waiters (g : Gate) (e : ExecutionId) (t : Token) (deadline : Option Nat) (now : Instant) (u : Token) :
    (g.park e t deadline now).waiters.get? u = if t = u then some ⟨g.nextSerial, e⟩ else g.waiters.get? u := by
  rw [park, transition]
  cases g.waiters.get? t with
  | none => exact Table.get?_insert _ _ _ _
  | some w =>
    simp only [post_waiters]
    exact Table.get?_insert _ _ _ _

theorem park_handles (g : Gate) (e : ExecutionId) (t : Token) (deadline : Option Nat) (now : Instant) (k : Nat) :
    (g.park e t deadline now).handles.get? k =
      if g.nextSerial = k then some ⟨e, t, deadline, .none⟩
      else if (g.waiters.get? t).map Waiter.serial = some k then
        (g.handles.get? k).map fun h => { h with mail := .lost }
      else g.handles.get? k := by
  rw [park, transition]
  cases g.waiters.get? t with
  | none => exact Table.get?_insert _ _ _ _
  | some w =>
    simp only [Option.map_some, Option.some.injEq]
    rw [Table.get?_insert, post_handles]

theorem unpark_handles (g : Gate) (serial : Nat) : (g.unpark serial).handles = g.handles := by
  rw [unpark]
  split
  · rfl
  · split
    · split <;> rfl
    · rfl

theorem unpark_nextSerial (g : Gate) (serial : Nat) : (g.unpark serial).nextSerial = g.nextSerial := by
  rw [unpark]
  split
  · rfl
  · split
    · split <;> rfl
    · rfl

theorem unpark_waiters (g : Gate) (serial : Nat) {u : Token} {w : Waiter} :
    (g.unpark serial).waiters.get? u = some w → g.waiters.get? u = some w := by
  rw [unpark]
  split
  · exact id
  · rename_i h _
    split
    · split
      · show (g.waiters.erase h.token).get? u = some w → _
        rw [Table.get?_erase]
        split
        · exact fun h => by cases h
        · exact id
      · exact id
    · exact id

theorem unpark_waiters_of_ne (g : Gate) (serial : Nat) {u : Token}
    (hne : ∀ w, g.waiters.get? u = some w → w.serial ≠ serial) :
    (g.unpark serial).waiters.get? u = g.waiters.get? u := by
  rw [unpark]
  split
  · rfl
  · rename_i h _
    split
    · rename_i w hw
      split
      · rename_i hs
        show (g.waiters.erase h.token).get? u = _
        rw [Table.get?_erase, if_neg]
        rintro rfl
        exact hne w hw hs
      · rfl
    · rfl

end Gate

/-! ## One part of a step -/

/-- Whether a part of a step takes a handle out of the gate. -/
inductive Step.Closes : Step → Nat → Prop where
  | read (serial : Nat) (now : Instant) : Closes (.begin (.read serial now)) serial
  | close (serial : Nat) : Closes (.begin (.close serial)) serial

/-- What a part of a step does to the continuations and the handles of a gate. -/
inductive Shift (g : Gate) : Step → Gate → Prop where
  | still {st : Step} {h : Gate} : h.waiters = g.waiters → h.handles = g.handles → h.nextSerial = g.nextSerial →
      Shift g st h
  | attach (e : ExecutionId) (t : Token) (deadline : Option Nat) (now : Instant) :
      Shift g (.begin (.attach e t deadline now)) (g.park e t deadline now)
  | fire {serial : Nat} {now : Instant} {hd : Handle} {h : Gate} : g.handles.get? serial = some hd →
      h.waiters = g.waiters → h.handles = g.handles.insert serial { hd with deadline := none } →
      h.nextSerial = g.nextSerial → Shift g (.begin (.fire serial now)) h
  | close {st : Step} {serial : Nat} {h : Gate} : st.Closes serial → h.waiters = g.waiters →
      h.handles = g.handles.erase serial → h.nextSerial = g.nextSerial → Shift g st h
  | leave (serial : Nat) : Shift g (.begin (.leave serial)) (g.unpark serial)
  | wake (t : Token) (s : Signal) : Shift g (.resume (.wake t s)) (g.signal t s).2

theorem shift_readMail (g : Gate) (serial : Nat) (h : Handle) (now : Instant) :
    Shift g (.begin (.read serial now)) (g.readMail serial h now).2 := by
  rw [Gate.readMail]
  cases h.mail with
  | none => exact .still rfl rfl rfl
  | lost => exact .close (.read serial now) rfl rfl rfl
  | signal s =>
    cases s with
    | decision d =>
      simp only [Gate.finish]
      cases WaitOutcome.ofDecision? d with
      | none => exact .close (.read serial now) rfl rfl rfl
      | some outcome => exact .close (.read serial now) rfl rfl rfl
    | expired => exact .close (.read serial now) rfl rfl rfl
    | cancelled reason => exact .close (.read serial now) rfl rfl rfl

theorem shift_onset (g : Gate) (m : Move) : Shift g (.begin m) (g.onset m).1 := by
  cases m with
  | deliver x d =>
    rw [Gate.onset]
    rcases g.registry.resolve (g.registry.canonical x) d with ⟨answer, registry⟩
    cases answer <;> exact .still rfl rfl rfl
  | cancel e reason => exact .still rfl rfl rfl
  | register w =>
    rw [Gate.onset]
    rcases g.registry.register w with ⟨result, registry⟩
    rcases result with f | s
    · exact .still rfl rfl rfl
    · cases s <;> exact .still rfl rfl rfl
  | upkeep op _ => exact .still rfl rfl rfl
  | overdue at' now => exact .still rfl rfl rfl
  | attach e t deadline now => exact .attach e t deadline now
  | fire serial now =>
    rw [Gate.onset]
    cases hs : g.handles.get? serial with
    | none => exact .still rfl rfl rfl
    | some hd =>
      simp only [Gate.expireFor]
      rcases g.registry.expire hd.token now with ⟨answer, registry⟩
      cases answer <;> exact .fire hs rfl rfl rfl
  | read serial now =>
    rw [Gate.onset]
    cases g.handles.get? serial with
    | none => exact .still rfl rfl rfl
    | some h => exact shift_readMail g serial h now
  | leave serial => exact .leave serial
  | close serial => exact .close (.close serial) rfl rfl rfl
  | account executions => exact .still rfl rfl rfl

theorem shift_sequel (g : Gate) (half : Half) : Shift g (.resume half) (g.sequel half).1 := by
  cases half with
  | wake t s => exact .wake t s
  | check t now => exact .still rfl rfl rfl
  | lapse t now =>
    rw [Gate.sequel]
    rcases g.registry.expire t now with ⟨answer, registry⟩
    cases answer <;> exact .still rfl rfl rfl
  | look t => exact .still rfl rfl rfl
  | collect t d? => exact .still rfl rfl rfl

theorem Traffic.step_shift (x : Traffic) (st : Step) : Shift x.gate st (x.step st).gate := by
  cases st with
  | begin m => exact shift_onset x.gate m
  | resume half =>
    rw [step]
    split
    · exact shift_sequel x.gate half
    · exact .still rfl rfl rfl

theorem Shift.nextSerial_le {g h : Gate} {st : Step} (sh : Shift g st h) : g.nextSerial ≤ h.nextSerial := by
  cases sh with
  | still _ _ hn => exact Nat.le_of_eq hn.symm
  | attach e t deadline now => exact Nat.le_succ _
  | fire _ _ _ hn => exact Nat.le_of_eq hn.symm
  | close _ _ _ hn => exact Nat.le_of_eq hn.symm
  | leave serial => exact Nat.le_of_eq (g.unpark_nextSerial serial).symm
  | wake t s => exact Nat.le_of_eq (g.signal_nextSerial t s).symm

/-- Only parking adds a continuation. -/
theorem Shift.waiters_or {g h : Gate} {st : Step} (sh : Shift g st h) {u : Token} {w : Waiter}
    (hw : h.waiters.get? u = some w) : g.waiters.get? u = some w ∨
      (∃ e deadline now, st = .begin (.attach e u deadline now)) ∧ w.serial = g.nextSerial ∧
        g.nextSerial < h.nextSerial := by
  cases sh with
  | still heq _ _ => exact .inl (heq ▸ hw)
  | attach e t deadline now =>
    rw [Gate.park_waiters] at hw
    split at hw
    · rename_i htu
      subst htu
      cases hw
      exact .inr ⟨⟨e, deadline, now, rfl⟩, rfl, Nat.lt_succ_self _⟩
    · exact .inl hw
  | fire _ heq _ _ => exact .inl (heq ▸ hw)
  | close _ heq _ _ => exact .inl (heq ▸ hw)
  | leave serial => exact .inl (g.unpark_waiters serial hw)
  | wake t s =>
    rw [Gate.signal_waiters] at hw
    split at hw
    · cases hw
    · exact .inl hw

/-- Where a handle comes from that is in a gate after a part of a step. -/
inductive Origin (g : Gate) : Step → Gate → Nat → Handle → Prop where
  /-- It is the one that was parked. -/
  | parked (e : ExecutionId) (t : Token) (deadline : Option Nat) (now : Instant) :
      Origin g (.begin (.attach e t deadline now)) (g.park e t deadline now) g.nextSerial ⟨e, t, deadline, .none⟩
  | same {st : Step} {h : Gate} {s : Nat} {hd : Handle} : g.handles.get? s = some hd → Origin g st h s hd
  | rung {h : Gate} {s : Nat} {hd : Handle} (now : Instant) : g.handles.get? s = some hd →
      Origin g (.begin (.fire s now)) h s { hd with deadline := none }
  /-- Another continuation took the place of its own. -/
  | replaced {e : ExecutionId} {t : Token} {deadline : Option Nat} {now : Instant} {s : Nat} {hd : Handle}
      {w : Waiter} : g.handles.get? s = some hd → g.waiters.get? t = some w → w.serial = s → s ≠ g.nextSerial →
      Origin g (.begin (.attach e t deadline now)) (g.park e t deadline now) s { hd with mail := .lost }
  | woken {t : Token} {sig : Signal} {s : Nat} {hd : Handle} {w : Waiter} : g.handles.get? s = some hd →
      g.waiters.get? t = some w → w.serial = s →
      Origin g (.resume (.wake t sig)) (g.signal t sig).2 s { hd with mail := .signal sig }

theorem Shift.origin {g h : Gate} {st : Step} (sh : Shift g st h) {s : Nat} {hd : Handle}
    (hs : h.handles.get? s = some hd) : Origin g st h s hd := by
  cases sh with
  | still _ hh _ => exact .same (hh ▸ hs)
  | attach e t deadline now =>
    rw [Gate.park_handles] at hs
    split at hs
    · rename_i hn
      cases hs
      exact hn ▸ .parked e t deadline now
    · rename_i hn
      split at hs
      · rename_i hw
        obtain ⟨w, hw, hws⟩ := Option.map_eq_some_iff.1 hw
        obtain ⟨hd', hs', rfl⟩ := Option.map_eq_some_iff.1 hs
        exact .replaced hs' hw hws (Ne.symm hn)
      · exact .same hs
  | @fire serial now hd' h hk _ hh _ =>
    rw [hh, Table.get?_insert] at hs
    split at hs
    · rename_i heq
      subst heq
      cases hs
      exact .rung now hk
    · exact .same hs
  | close _ _ hh _ =>
    rw [hh, Table.get?_erase] at hs
    split at hs
    · cases hs
    · exact .same hs
  | leave serial =>
    rw [Gate.unpark_handles] at hs
    exact .same hs
  | wake t sig =>
    rw [Gate.signal_handles] at hs
    split at hs
    · rename_i hw
      obtain ⟨w, hw, hws⟩ := Option.map_eq_some_iff.1 hw
      obtain ⟨hd', hs', rfl⟩ := Option.map_eq_some_iff.1 hs
      exact .woken hs' hw hws
    · exact .same hs

/-- **A continuation goes only when its handle is told something or is dropped.** -/
theorem Shift.waiter_stays {g h : Gate} {st : Step} (sh : Shift g st h) {t : Token} {w : Waiter}
    (hw : g.waiters.get? t = some w) (given : w.serial < g.nextSerial) (hl : st ≠ .begin (.leave w.serial))
    {hd : Handle} (hs : h.handles.get? w.serial = some hd) (hm : hd.mail = .none) : h.waiters.get? t = some w := by
  have mailed (mail : Mail) (hmail : mail ≠ .none)
      (hs : (g.handles.get? w.serial).map (fun h => { h with mail }) = some hd) : False := by
    obtain ⟨hd', -, rfl⟩ := Option.map_eq_some_iff.1 hs
    exact hmail hm
  cases sh with
  | still hw' _ _ => exact hw' ▸ hw
  | attach e u deadline now =>
    by_cases hu : u = t
    · subst hu
      rw [Gate.park_handles, if_neg (Nat.ne_of_gt given), hw, Option.map_some, if_pos rfl] at hs
      exact (mailed .lost nofun hs).elim
    · rw [Gate.park_waiters, if_neg hu, hw]
  | fire _ hw' _ _ => exact hw' ▸ hw
  | close _ hw' _ _ => exact hw' ▸ hw
  | leave serial =>
    refine Eq.trans (g.unpark_waiters_of_ne serial fun v hv hvs => ?_) hw
    cases hv.symm.trans hw
    exact hl (by rw [hvs])
  | wake u sig =>
    by_cases hu : t = u
    · subst hu
      rw [Gate.signal_handles, hw, Option.map_some, if_pos rfl] at hs
      exact (mailed (.signal sig) nofun hs).elim
    · rw [Gate.signal_waiters, if_neg hu, hw]

/-- Only parking adds a handle, and no handle changes its token. -/
theorem Shift.handles_or {g h : Gate} {st : Step} (sh : Shift g st h) {k : Nat} {hd : Handle}
    (hk : h.handles.get? k = some hd) : (∃ hd', g.handles.get? k = some hd' ∧ hd'.token = hd.token) ∨
      (∃ e deadline now, st = .begin (.attach e hd.token deadline now)) ∧ k = g.nextSerial ∧
        g.nextSerial < h.nextSerial := by
  cases sh.origin hk with
  | parked e t deadline now => exact .inr ⟨⟨e, deadline, now, rfl⟩, rfl, Nat.lt_succ_self _⟩
  | same hk' => exact .inl ⟨hd, hk', rfl⟩
  | rung now hk' => exact .inl ⟨_, hk', rfl⟩
  | replaced hk' => exact .inl ⟨_, hk', rfl⟩
  | woken hk' => exact .inl ⟨_, hk', rfl⟩

/-! ## One handle -/

/-- Serial numbers that have been given out are below the next one. -/
structure Fresh (g : Gate) : Prop where
  waiters : ∀ u w, g.waiters.get? u = some w → w.serial < g.nextSerial
  handles : ∀ k hd, g.handles.get? k = some hd → k < g.nextSerial

theorem Shift.fresh {g h : Gate} {st : Step} (sh : Shift g st h) (f : Fresh g) : Fresh h := by
  refine ⟨fun u w hw => ?_, fun k hd hk => ?_⟩
  · rcases sh.waiters_or hw with hw | ⟨-, hs, hlt⟩
    · exact Nat.lt_of_lt_of_le (f.waiters u w hw) sh.nextSerial_le
    · exact hs ▸ hlt
  · rcases sh.handles_or hk with ⟨hd', hk, -⟩ | ⟨-, hs, hlt⟩
    · exact Nat.lt_of_lt_of_le (f.handles k hd' hk) sh.nextSerial_le
    · exact hs ▸ hlt

/-- The continuation of a handle is parked on one token only, and on that token no other one is. -/
def Owns (g : Gate) (t : Token) (s : Nat) : Prop := ∀ u w, g.waiters.get? u = some w → (w.serial = s ↔ u = t)

/-- A part of a step that neither parks on a token nor wakes what is parked there, and is not of its handle. -/
structure Step.Passes (st : Step) (t : Token) (s : Nat) : Prop where
  attach : ∀ e deadline now, st ≠ .begin (.attach e t deadline now)
  wake : ∀ sig, st ≠ .resume (.wake t sig)
  leave : st ≠ .begin (.leave s)
  closes : ¬st.Closes s

theorem Shift.owns {g h : Gate} {st : Step} {t : Token} {s : Nat} (sh : Shift g st h) (o : Owns g t s)
    (hs : s < g.nextSerial) (ha : ∀ e deadline now, st ≠ .begin (.attach e t deadline now)) : Owns h t s := by
  intro u w hw
  rcases sh.waiters_or hw with hw | ⟨⟨e, deadline, now, hst⟩, hws, -⟩
  · exact o u w hw
  · constructor
    · intro h
      rw [h] at hws
      exact absurd hws (Nat.ne_of_lt hs)
    · rintro rfl
      exact absurd hst (ha e deadline now)

/-- Whether no handle has continuations parked on two tokens. -/
def Sole (g : Gate) : Prop := ∀ t w, g.waiters.get? t = some w → Owns g t w.serial

/-- A continuation that is parked belongs to a handle that nothing was parked for before. -/
theorem Shift.sole {g h : Gate} {st : Step} (sh : Shift g st h) (f : Fresh g) (so : Sole g) : Sole h := by
  intro t w hw u v hv
  constructor
  · intro hs
    rcases sh.waiters_or hw with hw | ⟨⟨e, deadline, now, hst⟩, hws, -⟩
    · rcases sh.waiters_or hv with hv | ⟨-, hvs, -⟩
      · exact (so t w hw u v hv).1 hs
      · exact absurd (hs.symm.trans hvs) (Nat.ne_of_lt (f.waiters t w hw))
    · rcases sh.waiters_or hv with hv | ⟨⟨e', deadline', now', hst'⟩, -, -⟩
      · exact absurd (hs.trans hws) (Nat.ne_of_lt (f.waiters u v hv))
      · cases hst.symm.trans hst'
        rfl
  · rintro rfl
    cases hw.symm.trans hv
    rfl

/-- What a handle is apart from its deadline, which its timer takes away. -/
def Handle.gist (h : Handle) : ExecutionId × Token × Mail := (h.execution, h.token, h.mail)

/-- **A handle and its continuation stay as they are** through every part of a step that passes them by. -/
theorem Shift.untouched {g h : Gate} {st : Step} {t : Token} {s : Nat} (sh : Shift g st h) (o : Owns g t s)
    (hs : s < g.nextSerial) (p : st.Passes t s) : h.waiters.get? t = g.waiters.get? t ∧
      (h.handles.get? s).map Handle.gist = (g.handles.get? s).map Handle.gist := by
  -- mail posted to the continuation of another token is not for this handle
  have other : ∀ {u}, u ≠ t → (g.waiters.get? u).map Waiter.serial ≠ some s := fun hu hw => by
    obtain ⟨w, hw, hws⟩ := Option.map_eq_some_iff.1 hw
    exact hu ((o _ w hw).1 hws)
  cases sh with
  | still hw hh _ => exact ⟨by rw [hw], by rw [hh]⟩
  | attach e u deadline now =>
    have hu : u ≠ t := fun hu => p.attach e deadline now (by rw [hu])
    rw [Gate.park_waiters, if_neg hu, Gate.park_handles, if_neg (Nat.ne_of_gt hs), if_neg (other hu)]
    exact ⟨rfl, rfl⟩
  | @fire serial now hd h hk hw hh _ =>
    rw [hw, hh, Table.get?_insert]
    refine ⟨rfl, ?_⟩
    split
    · rename_i hks
      rw [← hks, hk]
      rfl
    · rfl
  | @close st serial h hc hw hh _ =>
    have hne : s ≠ serial := by
      rintro rfl
      exact p.closes hc
    rw [hw, hh, Table.get?_erase, if_neg hne]
    exact ⟨rfl, rfl⟩
  | leave serial =>
    rw [Gate.unpark_handles]
    refine ⟨g.unpark_waiters_of_ne serial fun w hw hws => p.leave ?_, rfl⟩
    rw [← hws, (o t w hw).2 rfl]
  | wake u sig =>
    have hu : u ≠ t := fun hu => p.wake sig (by rw [hu])
    rw [Gate.signal_waiters, if_neg hu.symm, Gate.signal_handles, if_neg (other hu)]
    exact ⟨rfl, rfl⟩

/-! ## Every gate -/

/-- What holds of a gate whatever parts of steps are done. -/
structure Gate.Orderly (g : Gate) : Prop where
  registry : g.registry.Sound
  fresh : Fresh g
  sole : Sole g

theorem Gate.Orderly.step {x : Traffic} (o : x.gate.Orderly) (st : Step) : (x.step st).gate.Orderly := by
  have sh := x.step_shift st
  refine ⟨?_, sh.fresh o.fresh, sh.sole o.fresh o.sole⟩
  rw [x.step_registry]
  exact o.registry.after _

theorem Gate.Orderly.run : ∀ (steps : List Step) {x : Traffic}, x.gate.Orderly → (x.run steps).gate.Orderly
  | [], _, o => o
  | st :: steps, _, o => Orderly.run steps (o.step st)

theorem Gate.orderly_start {registry : Registry} (s : registry.Sound) (issuer : Option Issuer) :
    (start registry issuer).Orderly :=
  ⟨s, ⟨fun _ _ h => (nomatch h), fun _ _ h => (nomatch h)⟩, fun _ _ h => (nomatch h)⟩

end ApprovalGate
