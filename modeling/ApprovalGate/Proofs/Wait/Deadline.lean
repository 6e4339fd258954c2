import ApprovalGate.Gate.Basic
import ApprovalGate.Proofs.Store.Reread
import ApprovalGate.Proofs.Submission.Halves
import ApprovalGate.Proofs.Time.Instant
/-!
# Deadlines of waits

A century is short enough for a deadline to be there: up to the year 262000 it is in range, so a wait that is made for
an accepted submission is due the timeout after it was made, to the nanosecond (`Issuer.dueAfter_waitFor`), and expired
from then on (`Wait.DueAfter.isExpiredAt_iff`).  A handle's deadline is a reading of the running clock.  Told as a time
of day (`Clock.timeAt`) it is the wait's own, or the present when that has passed (`Wait.DueAfter.timeAt_dueOn`).
-/
namespace ApprovalGate

/-- The time of day, in nanoseconds since 1970, when the running clock comes to a reading. -/
def Clock.timeAt (c : Clock) (reading : Nat) : Int := c.now.nanos + ((reading : Int) - c.elapsed)

namespace Wait

/-- What it is for a wait to have been made at an instant, and to be due a timeout after it or never. -/
structure DueAfter (timeout? : Option Span) (made : Instant) (w : Wait) : Prop where
  created : w.createdAt = made
  never : timeout? = none → w.expiresAt = none
  due : ∀ d, timeout? = some d → ∃ t, w.expiresAt = some t ∧ t.Regular ∧ t.nanos = made.nanos + d.nanos

/-- The reading of the running clock that a wait is due at. -/
def dueOn (w : Wait) (clock : Clock) : Option Nat :=
  w.expiresAt.map fun _ => clock.elapsed + ((w.timeUntilExpiry clock.now).getD ⟨0⟩).nanos

variable {timeout? : Option Span} {made : Instant} {w w' : Wait}

/-- Nothing that becomes of a wait moves its deadline. -/
theorem DueAfter.same (h : w.DueAfter timeout? made) (hs : w.Same w') : w'.DueAfter timeout? made := by
  rw [hs]
  exact ⟨h.created, h.never, h.due⟩

/-- A timeout of no more than a century makes a deadline. -/
theorem expiresAt_withTimeout {d : Span} (hr : w.createdAt.Regular)
    (hy : (Date.ofDay w.createdAt.day).year ≤ 262000) (hd : d.nanos ≤ ChangeRequest.maxTimeout.nanos) :
    ∃ t, (w.withTimeout d).expiresAt = some t ∧ t.Regular ∧ t.nanos = w.createdAt.nanos + d.nanos := by
  have century : ChangeRequest.maxTimeout.nanos = 3153600000000000000 := rfl
  have millis : d ≤ maxTimeout := by
    show d.nanos ≤ maxTimeout.nanos
    have : maxTimeout.nanos = 9223372036854775807000000 := rfl
    omega
  have early := Instant.second_le_of_year hy
  have short : d.seconds ≤ 3153600000 := by
    unfold Span.seconds
    omega
  rw [withTimeout, if_pos millis]
  exact Instant.add?_eq hr (by omega)

/-- **A wait is expired from its deadline on.** -/
theorem DueAfter.isExpiredAt_iff (h : w.DueAfter timeout? made) {now : Instant} (hn : now.Regular) :
    w.isExpiredAt now = true ↔ ∃ due, (timeout?.map fun d => made.nanos + d.nanos) = some due ∧ due ≤ now.nanos := by
  cases timeout? with
  | none => simp [isExpiredAt, h.never rfl]
  | some d =>
    obtain ⟨t, ht, hreg, hnanos⟩ := h.due d rfl
    simp only [isExpiredAt, ht, decide_eq_true_eq, Instant.le_iff hreg hn, hnanos, Option.map_some, Option.some.injEq,
      exists_eq_left']

/-- **The reading that a wait is due at stands for its deadline**, and for the present once that has passed. -/
theorem DueAfter.timeAt_dueOn (h : w.DueAfter timeout? made) {clock : Clock} (hn : clock.now.Regular) :
    (w.dueOn clock).map clock.timeAt =
      (timeout?.map fun d => made.nanos + d.nanos).map fun due => max due clock.now.nanos := by
  cases timeout? with
  | none =>
    rw [dueOn, h.never rfl]
    rfl
  | some d =>
    obtain ⟨t, ht, hreg, hnanos⟩ := h.due d rfl
    -- the time that is left, none of it once the deadline is there
    have left : ((w.timeUntilExpiry clock.now).getD ⟨0⟩).nanos = (t.nanos - clock.now.nanos).toNat := by
      rw [timeUntilExpiry, ht]
      simp only [Instant.since?_eq hreg hn]
      by_cases hle : clock.now.nanos ≤ t.nanos
      · rw [if_pos hle, Option.filter_some]
        split
        · rfl
        · rename_i h0
          simp only [ne_eq, decide_eq_true_eq, Decidable.not_not] at h0
          rw [h0]
          rfl
      · rw [if_neg hle, Option.filter_none, Int.toNat_of_nonpos (by omega)]
        rfl
    rw [dueOn, ht, Option.map_some, Option.map_some, Option.map_some, Option.map_some, left, Clock.timeAt]
    congr 1
    omega

end Wait

/-- **The wait for an accepted submission is due its timeout after it was made.** -/
theorem Issuer.dueAfter_waitFor {d : Draft} {now : Instant} (hn : now.Regular)
    (hy : (Date.ofDay now.day).year ≤ 262000) (checked : ChangeRequest.checkTimeout d.timeout = .ok ()) (reply : Reply)
    (e : ExecutionId) : (waitFor d reply e now).DueAfter d.timeout now := by
  have short := ChangeRequest.checkTimeout_ok_iff.1 checked
  unfold waitFor
  cases ht : d.timeout with
  | none => exact ⟨rfl, fun _ => rfl, fun _ h => by cases h⟩
  | some timeout =>
    refine ⟨rfl, (by intro h; cases h), fun d' hd' => ?_⟩
    cases hd'
    exact Wait.expiresAt_withTimeout hn hy (short timeout ht)

end ApprovalGate
