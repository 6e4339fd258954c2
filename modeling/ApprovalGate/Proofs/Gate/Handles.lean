import ApprovalGate.Proofs.Gate.Waiters
/-!
# What becomes of a handle

A handle is parked once, its timer may go off, and it is told something when its continuation is woken or has to make
room; nothing else that is done in a gate changes it.  So what is parked on a token belongs to a handle that has not
been told anything (`Paired`), a handle that is neither parked nor told anything was dropped (`Attended`), one that had
to make room stays lost (`Forsaken`), and a timer that went off stays off (`Spent`).
-/
namespace ApprovalGate

variable {g h : Gate} {st : Step} {s : Nat}

/-! ## Continuations and their handles -/

/-- What is parked on a token belongs to a handle there that has not been told anything. -/
structure Paired (g : Gate) : Prop where
  fresh : Fresh g
  parked : ∀ t w h, g.waiters.get? t = some w → g.handles.get? w.serial = some h → h.token = t ∧ h.mail = .none

theorem Shift.paired (sh : Shift g st h) (p : Paired g) : Paired h := by
  refine ⟨sh.fresh p.fresh, fun t w hd hw hs => ?_⟩
  have given {k : Nat} {hd : Handle} (hk : g.handles.get? k = some hd) : k ≠ g.nextSerial :=
    Nat.ne_of_lt (p.fresh.handles k hd hk)
  have origin := sh.origin hs
  rcases sh.waiters_or hw with hw' | ⟨⟨e, deadline, now, rfl⟩, hws, -⟩
  · -- parked before, so it is still its handle's only continuation
    generalize hk : w.serial = k at origin
    cases origin with
    | parked e u deadline now => exact absurd hk (Nat.ne_of_lt (p.fresh.waiters t w hw'))
    | same hs' => exact p.parked t w hd hw' (hk ▸ hs')
    | @rung _ _ hd' now hs' => exact p.parked t w hd' hw' (hk ▸ hs')
    | @replaced e u deadline now _ hd' w' hs' hu hws' hn =>
      exfalso
      obtain rfl : u = t := (p.parked u w' hd' hu (hws' ▸ hs')).1.symm.trans (p.parked t w hd' hw' (hk ▸ hs')).1
      rw [Gate.park_waiters, if_pos rfl] at hw
      cases hw
      exact hn hk.symm
    | @woken u sig _ hd' w' hs' hu hws' =>
      exfalso
      obtain rfl : u = t := (p.parked u w' hd' hu (hws' ▸ hs')).1.symm.trans (p.parked t w hd' hw' (hk ▸ hs')).1
      rw [Gate.signal_waiters, if_pos rfl] at hw
      cases hw
  · generalize hk : w.serial = k at origin
    cases origin with
    | parked => exact ⟨rfl, rfl⟩
    | same hs' => exact absurd (hk.symm.trans hws) (given hs')
    | replaced hs' _ _ hn => exact absurd (hk.symm.trans hws) hn

theorem Traffic.paired_run : ∀ (steps : List Step) {x : Traffic}, Paired x.gate → Paired (x.run steps).gate
  | [], _, p => p
  | st :: steps, x, p => paired_run steps ((x.step_shift st).paired p)

/-- A handle that has not been told anything is parked on its token. -/
def Attended (g : Gate) (s : Nat) : Prop :=
  ∀ h, g.handles.get? s = some h → h.mail = .none → ∃ w, g.waiters.get? h.token = some w ∧ w.serial = s

theorem Shift.attended (sh : Shift g st h) (f : Fresh g) (a : Attended g s) (hl : st ≠ .begin (.leave s)) :
    Attended h s := by
  intro hd hs hm
  have stays (hd' : Handle) (hs' : g.handles.get? s = some hd') (hm' : hd'.mail = .none) :
      ∃ w, h.waiters.get? hd'.token = some w ∧ w.serial = s := by
    obtain ⟨w, hw, rfl⟩ := a hd' hs' hm'
    exact ⟨w, sh.waiter_stays hw (f.waiters _ w hw) hl hs hm, rfl⟩
  cases sh.origin hs with
  | parked e t deadline now => exact ⟨⟨g.nextSerial, e⟩, by rw [Gate.park_waiters, if_pos rfl], rfl⟩
  | same hs' => exact stays hd hs' hm
  | @rung _ _ hd' now hs' => exact stays hd' hs' hm
  | replaced => cases hm
  | woken => cases hm

/-- A handle whose continuation on a token had to make room. -/
structure Forsaken (g : Gate) (t : Token) (s : Nat) : Prop where
  given : s < g.nextSerial
  alone : ∀ u w, g.waiters.get? u = some w → w.serial ≠ s
  lost : ∀ h, g.handles.get? s = some h → h.token = t ∧ h.mail = .lost

theorem Shift.forsaken {t : Token} (sh : Shift g st h) (fs : Forsaken g t s) : Forsaken h t s := by
  refine ⟨Nat.lt_of_lt_of_le fs.given sh.nextSerial_le, fun u w hw => ?_, fun hd hs => ?_⟩
  · rcases sh.waiters_or hw with hw | ⟨-, hws, -⟩
    · exact fs.alone u w hw
    · exact hws ▸ Nat.ne_of_gt fs.given
  · cases sh.origin hs with
    | parked => exact absurd fs.given (Nat.lt_irrefl _)
    | same hs' => exact fs.lost hd hs'
    | @rung _ _ hd' now hs' => exact fs.lost hd' hs'
    | replaced hs' => exact ⟨(fs.lost _ hs').1, rfl⟩
    | woken _ hw hws => exact absurd hws (fs.alone _ _ hw)

/-- Parking on a token forsakes the handle that was parked there. -/
theorem Paired.park_forsakes (p : Paired g) (so : Sole g) {t : Token} {w : Waiter} (hw : g.waiters.get? t = some w)
    (e : ExecutionId) (deadline : Option Nat) (now : Instant) : Forsaken (g.park e t deadline now) t w.serial := by
  have given := p.fresh.waiters t w hw
  refine ⟨Nat.lt_succ_of_lt given, fun u v hv hs => ?_, fun hd hs => ?_⟩
  · rw [Gate.park_waiters] at hv
    split at hv
    · cases hv
      exact Nat.ne_of_gt given hs
    · rename_i hu
      exact hu ((so t w hw u v hv).1 hs).symm
  · rw [Gate.park_handles, if_neg (Nat.ne_of_gt given), hw, Option.map_some, if_pos rfl] at hs
    obtain ⟨hd', hs', rfl⟩ := Option.map_eq_some_iff.1 hs
    exact ⟨(p.parked t w hd' hw hs').1, rfl⟩

/-! ## Timers -/

/-- A handle keeps its deadline until its timer goes off, and then has none. -/
theorem Shift.deadline (sh : Shift g st h) (hn : s < g.nextSerial) {hd : Handle} (hs : h.handles.get? s = some hd) :
    ∃ hd', g.handles.get? s = some hd' ∧
      (hd.deadline = hd'.deadline ∨ hd.deadline = none ∧ ∃ now, st = .begin (.fire s now)) := by
  cases sh.origin hs with
  | parked => exact absurd hn (Nat.lt_irrefl _)
  | same hs' => exact ⟨hd, hs', .inl rfl⟩
  | rung now hs' => exact ⟨_, hs', .inr ⟨rfl, now, rfl⟩⟩
  | replaced hs' => exact ⟨_, hs', .inl rfl⟩
  | woken hs' => exact ⟨_, hs', .inl rfl⟩

/-- A handle whose timer has gone off. -/
structure Spent (g : Gate) (s : Nat) : Prop where
  given : s < g.nextSerial
  off : ∀ h, g.handles.get? s = some h → h.deadline = none

theorem Shift.spent (sh : Shift g st h) (sp : Spent g s) : Spent h s := by
  refine ⟨Nat.lt_of_lt_of_le sp.given sh.nextSerial_le, fun hd hs => ?_⟩
  obtain ⟨hd', hs', same | ⟨off, -⟩⟩ := sh.deadline sp.given hs
  · exact same.trans (sp.off hd' hs')
  · exact off

end ApprovalGate
