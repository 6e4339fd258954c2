import ApprovalGate.Proofs.Time.LeapSecond
import ApprovalGate.Wait.Codec
/-!
# The two readings of a deadline

Whether a deadline has come is seen by comparing, and how much time is left to it by subtracting.  The two readings
agree whenever neither the deadline nor the clock is in a leap second (`Wait.readsAlike_of_regular`).  Around leap
seconds they come apart, in exactly these ways (`Wait.reads_alike_iff`): a leap second at the end of a day is not
counted, so in the second after it a deadline in it has come and is still ahead (`Wait.overdue_with_time_left`), and no
time that is left leads into a leap second from outside.
-/
namespace ApprovalGate.Wait

/-- Whether the two readings of a wait's deadline agree: no time is left exactly when there is no deadline or it has
come, and time that is left is positive and leads to the deadline. -/
structure ReadsAlike (w : Wait) (now : Instant) : Prop where
  reached : w.timeUntilExpiry now = none ↔ w.expiresAt = none ∨ w.isExpiredAt now = true
  left : ∀ d, w.timeUntilExpiry now = some d → 0 < d.nanos ∧ now.add? d = w.expiresAt

variable {w : Wait} {t : Instant}

theorem timeUntilExpiry_eq (h : w.expiresAt = some t) (now : Instant) :
    w.timeUntilExpiry now = if 0 < t.since now then some ⟨(t.since now).toNat⟩ else none := by
  unfold timeUntilExpiry Instant.since?
  rw [h]
  simp only
  by_cases hp : 0 < t.since now
  · have hn : (t.since now).toNat ≠ 0 := by omega
    rw [if_pos hp, if_pos (Int.le_of_lt hp), Option.filter_some, if_pos (decide_eq_true hn)]
  · rw [if_neg hp]
    split
    · have hn : (t.since now).toNat = 0 := by omega
      rw [hn]
      rfl
    · rfl

theorem isExpiredAt_iff (h : w.expiresAt = some t) (now : Instant) : w.isExpiredAt now = true ↔ t ≤ now := by
  unfold isExpiredAt
  rw [h]
  exact decide_eq_true_iff

theorem readsAlike_of_none (h : w.expiresAt = none) (now : Instant) : w.ReadsAlike now := by
  have hn : w.timeUntilExpiry now = none := by
    unfold timeUntilExpiry
    rw [h]
  exact ⟨iff_of_true hn (.inl h), fun d hd => by cases hn.symm.trans hd⟩

/-- With a deadline, the readings agree on whether it has come when something is left exactly if it has not. -/
theorem reached_iff_since (h : w.expiresAt = some t) (now : Instant) :
    (w.timeUntilExpiry now = none ↔ w.expiresAt = none ∨ w.isExpiredAt now = true) ↔
      (0 < t.since now ↔ ¬t ≤ now) := by
  rw [isExpiredAt_iff h, h, timeUntilExpiry_eq h]
  by_cases hp : 0 < t.since now <;> simp [hp]

/-- And on everything when moreover what is left leads to it. -/
theorem readsAlike_iff_since (h : w.expiresAt = some t) (now : Instant) :
    w.ReadsAlike now ↔ (0 < t.since now ↔ ¬t ≤ now) ∧ (0 < t.since now → now.LeadsTo t) := by
  have hleft := timeUntilExpiry_eq h now
  constructor
  · intro r
    refine ⟨(reached_iff_since h now).1 r.reached, fun hp => (Instant.add?_since_iff hp).1 ?_⟩
    rw [← h]
    exact (r.left _ (hleft.trans (if_pos hp))).2
  · rintro ⟨ho, hl⟩
    refine ⟨(reached_iff_since h now).2 ho, fun d hd => ?_⟩
    rw [hleft] at hd
    split at hd
    · rename_i hp
      cases hd
      have hpos : 0 < (t.since now).toNat := by omega
      exact ⟨hpos, by rw [h]; exact (Instant.add?_since_iff hp).2 (hl hp)⟩
    · cases hd

/-- Away from leap seconds the two readings agree. -/
theorem readsAlike_of_regular (h : w.expiresAt = some t) {now : Instant} (ht : t.Regular) (hn : now.Regular) :
    w.ReadsAlike now := by
  rw [readsAlike_iff_since h, Instant.since_eq ht hn, Instant.le_iff ht hn]
  exact ⟨by omega, fun _ => Instant.leadsTo_of_regular hn ht⟩

/-- **The two readings of a deadline agree but around leap seconds.**  They differ on whether the deadline has come only
over midnight: when of the deadline and the present one is in the leap second at the end of a day and the other less
than what is past of it later.  Time that is left leads to the deadline only when this is in no leap second, and the
present in none either or at an earlier time of day, or when both are in one leap second. -/
theorem reads_alike_iff (w : Wait) (now : Instant) :
    ((w.timeUntilExpiry now = none ↔ w.expiresAt = none ∨ w.isExpiredAt now = true) ↔ ∀ t, w.expiresAt = some t →
      if t ≤ now then ¬(t.EndsDay ∧ now.nanos < t.nanos) else ¬(now.EndsDay ∧ t.nanos ≤ now.nanos)) ∧
    (w.ReadsAlike now ↔ ∀ t, w.expiresAt = some t →
      if t ≤ now then ¬(t.EndsDay ∧ now.nanos < t.nanos) else now.LeadsTo t) := by
  cases h : w.expiresAt with
  | none =>
    have alike := readsAlike_of_none h now
    exact ⟨iff_of_true (h ▸ alike.reached) (fun t ht => nomatch ht), iff_of_true alike (fun t ht => nomatch ht)⟩
  | some t =>
    have only {p : Instant → Prop} : (∀ x, some t = some x → p x) ↔ p t :=
      ⟨fun hall => hall t rfl, fun hp x hx => Option.some.inj hx ▸ hp⟩
    have positive := @Instant.since_pos_iff t now
    rw [← h, reached_iff_since h, readsAlike_iff_since h, h, only, only]
    by_cases hle : t ≤ now
    · rw [if_pos hle] at positive
      rw [if_pos hle, if_pos hle, iff_false_right (not_not_intro hle), positive]
      exact ⟨.rfl, and_iff_left_of_imp fun hnot hp => absurd hp hnot⟩
    · rw [if_neg hle] at positive
      rw [if_neg hle, if_neg hle, iff_true_right hle]
      refine ⟨positive, fun both => both.2 both.1, fun hl => ⟨hl.since_pos hle, fun _ => hl⟩⟩

/-- A wait whose deadline is read in the leap second at the end of a year is overdue in the second after it, and yet has
most of a second left. -/
theorem overdue_with_time_left :
    let due : Instant := ⟨1767225599, 1900000000, by decide⟩
    let now : Instant := ⟨1767225600, 100000000, by decide⟩
    let w : Wait := { Wait.start default default .epoch with expiresAt := some due }
    Instant.read? "2025-12-31T23:59:60.9Z" = some due ∧ Instant.read? "2026-01-01T00:00:00.1Z" = some now ∧
      w.isExpiredAt now = true ∧ w.timeUntilExpiry now = some ⟨800000000⟩ ∧ ¬w.ReadsAlike now := by
  intro due now w
  have h : w.expiresAt = some due := rfl
  refine ⟨by decide +kernel, by decide +kernel, by decide, (timeUntilExpiry_eq h now).trans (by decide), ?_⟩
  rw [readsAlike_iff_since h]
  decide

end ApprovalGate.Wait
