import ApprovalGate.Proofs.Time.Instant
/-!
# Sums and differences around leap seconds

In nanoseconds since 1970 a leap second lies on the second after it.  A sum comes to no leap second but the one that it
starts in (`add?_of_regular`, `add?_of_leap`), and a difference counts a leap second that comes before the other time of
day, so not one at the end of a day (`since_pos_iff`).  Hence what is between two instants leads from the one to the
other only under a condition on both (`add?_since_iff`).
-/
namespace ApprovalGate.Instant

/-- The instant outside of leap seconds that is so many nanoseconds after 1970, if there is one. -/
def ofNanos? (n : Int) : Option Instant := ofParts? (n / 1000000000) (n % 1000000000).toNat

/-- Whether an instant lies in the last second of a day, prolonged or not. -/
def EndsDay (t : Instant) : Prop := t.secondOfDay = 86399

instance (t : Instant) : Decidable t.EndsDay := inferInstanceAs (Decidable (t.secondOfDay = 86399))

/-- Whether what is between two instants, counted on from the first, leads to the second: into a leap second only from
within it, and out of one only to a later time of day. -/
def LeadsTo (now t : Instant) : Prop :=
  if t.Regular then now.Regular ∨ now.secondOfDay < t.secondOfDay else ¬now.Regular ∧ now.second = t.second

instance (now t : Instant) : Decidable (now.LeadsTo t) := by
  unfold LeadsTo
  infer_instance

theorem leadsTo_of_regular {now t : Instant} (hn : now.Regular) (ht : t.Regular) : now.LeadsTo t := by
  unfold LeadsTo
  rw [if_pos ht]
  exact .inl hn

/-! ## Sums -/

theorem ofParts?_eq_some_iff {second : Int} {nano : Nat} {x : Instant} :
    ofParts? second nano = some x ↔ x.second = second ∧ x.nano = nano := by
  unfold ofParts?
  constructor
  · intro h
    split at h
    · cases h
      exact ⟨rfl, rfl⟩
    · cases h
  · rintro ⟨rfl, rfl⟩
    exact dif_pos x.valid

theorem ofNanos?_eq_some_iff {n : Int} {x : Instant} : ofNanos? n = some x ↔ x.Regular ∧ x.nanos = n := by
  unfold ofNanos? Regular nanos
  rw [ofParts?_eq_some_iff]
  omega

/-- **From outside of leap seconds a sum is one of nanoseconds**, and in no leap second. -/
theorem add?_of_regular {t : Instant} (h : t.Regular) (d : Span) : t.add? d = ofNanos? (t.nanos + d.nanos) := by
  have hn : t.nano < 1000000000 := h
  have carried {s s' : Int} {n n' : Nat} (hs : s = s') (hn : n = n') : ofParts? s n = ofParts? s' n' := by rw [hs, hn]
  unfold add? ofNanos?
  simp only [h.isLeap, Bool.false_eq_true, if_false]
  unfold Span.seconds Span.subNanos nanos
  split
  · exact carried (by omega) (by omega)
  · exact carried (by omega) (by omega)

/-- **From within a leap second a sum stays in it or leaves it**, and then it is counted as if from the second
before. -/
theorem add?_of_leap {t : Instant} (h : ¬t.Regular) (d : Span) : t.add? d =
    if t.nano + d.nanos < 2000000000 then ofParts? t.second (t.nano + d.nanos)
    else ofNanos? (t.nanos - 1000000000 + d.nanos) := by
  have hn : 1000000000 ≤ t.nano := Nat.not_lt.1 h
  have hvalid := t.valid
  have leap : t.isLeap = true := decide_eq_true hn
  have carried {s s' : Int} {n n' : Nat} (hs : s = s') (hn : n = n') : ofParts? s n = ofParts? s' n' := by rw [hs, hn]
  unfold add? ofNanos?
  simp only [leap, if_true]
  unfold Span.seconds Span.subNanos nanos
  by_cases hin : t.nano + d.nanos < 2000000000
  · rw [if_pos hin, if_neg (by omega)]
    exact carried rfl (by omega)
  · rw [if_neg hin, if_pos (by omega)]
    split
    · exact carried (by omega) (by omega)
    · exact carried (by omega) (by omega)

theorem add?_of_leap_iff {t x : Instant} (h : ¬t.Regular) (d : Nat) : t.add? ⟨d⟩ = some x ↔
    if t.nano + d < 2000000000 then x.second = t.second ∧ x.nano = t.nano + d
    else x.Regular ∧ x.nanos = t.nanos - 1000000000 + d := by
  rw [add?_of_leap h]
  show (if t.nano + d < 2000000000 then _ else _) = _ ↔ _
  split
  · exact ofParts?_eq_some_iff
  · exact ofNanos?_eq_some_iff

/-! ## Differences -/

/-- **When the difference of two instants is positive**: when the first is the later one, but for the end of a day.
There a leap second is not counted, so of one in it and one in the second after it the later in nanoseconds counts as
the later. -/
theorem since_pos_iff {t now : Instant} : 0 < t.since now ↔
    if t ≤ now then t.EndsDay ∧ now.nanos < t.nanos else ¬(now.EndsDay ∧ t.nanos ≤ now.nanos) := by
  have ht := t.valid
  have hn := now.valid
  unfold since EndsDay nanos secondOfDay isLeap
  simp only [decide_eq_true_eq]
  by_cases hle : t.second < now.second ∨ (t.second = now.second ∧ t.nano ≤ now.nano)
  · rw [if_pos (show t ≤ now from hle)]
    split
    · omega
    · split <;> omega
  · rw [if_neg (show ¬t ≤ now from hle)]
    split
    · omega
    · split <;> omega

/-- What is between an instant and a later one that it leads to is not nothing. -/
theorem LeadsTo.since_pos {now t : Instant} (h : now.LeadsTo t) (hlt : ¬t ≤ now) : 0 < t.since now := by
  rw [since_pos_iff, if_neg hlt]
  rintro ⟨hends, hle⟩
  unfold LeadsTo at h
  by_cases ht : t.Regular
  · rw [if_pos ht] at h
    cases h with
    | inl hr => exact hlt ((le_iff ht hr).2 hle)
    | inr hlater =>
      have hday : t.secondOfDay ≤ 86399 := by
        unfold secondOfDay
        omega
      exact Nat.not_lt.2 hday (by rwa [hends] at hlater)
  · rw [if_neg ht] at h
    refine hlt (.inr ⟨h.2.symm, ?_⟩)
    unfold nanos at hle
    omega

/-- From within a leap second a difference counts it when the other time of day is later. -/
theorem since_of_leap {t now : Instant} (h : ¬now.Regular) : t.since now = t.nanos - now.nanos +
    if now.secondOfDay < t.secondOfDay then 1000000000
    else if t.secondOfDay < now.secondOfDay ∧ ¬t.Regular then -1000000000 else 0 := by
  have hn : 1000000000 ≤ now.nano := Nat.not_lt.1 h
  unfold since Regular isLeap nanos
  simp only [decide_eq_true_eq, hn, and_true, Nat.not_lt]
  split
  · omega
  · split <;> omega

/-- From outside of leap seconds what is between leads to whatever is in none either. -/
theorem add?_since_of_regular {t now : Instant} (hr : now.Regular) {d : Nat} (hd : t.since now = d) :
    now.add? ⟨d⟩ = some t ↔ now.LeadsTo t := by
  rw [add?_of_regular hr, ofNanos?_eq_some_iff, LeadsTo]
  by_cases ht : t.Regular
  · rw [since_eq ht hr] at hd
    have same : t.nanos = now.nanos + (d : Int) := by omega
    rw [if_pos ht]
    exact ⟨fun _ => .inl hr, fun _ => ⟨ht, same⟩⟩
  · rw [if_neg ht]
    exact ⟨fun hc => absurd hc.1 ht, fun hc => absurd hr hc.1⟩

/-- From within a leap second it leads to a later time of day, and on in the leap second. -/
theorem add?_since_of_leap {t now : Instant} (hr : ¬now.Regular) {d : Nat} (h : 0 < d) (hd : t.since now = d) :
    now.add? ⟨d⟩ = some t ↔ now.LeadsTo t := by
  have htv := t.valid
  have hnv := now.valid
  rw [since_of_leap hr] at hd
  rw [add?_of_leap_iff hr, LeadsTo]
  -- whether the instant that it should come to lies in a leap second, and whether the sum stays in this one
  by_cases ht : t.Regular
  · rw [if_pos ht]
    unfold Regular secondOfDay nanos at *
    split at hd <;> split <;> omega
  · rw [if_neg ht]
    unfold Regular secondOfDay nanos at *
    split at hd <;> split <;> omega

/-- **Where counting on leads to.** -/
theorem add?_since_iff {t now : Instant} (h : 0 < t.since now) :
    now.add? ⟨(t.since now).toNat⟩ = some t ↔ now.LeadsTo t := by
  obtain ⟨d, hd⟩ := Int.eq_ofNat_of_zero_le (Int.le_of_lt h)
  rw [hd, Int.toNat_natCast]
  by_cases hr : now.Regular
  · exact add?_since_of_regular hr hd
  · exact add?_since_of_leap hr (by omega) hd

end ApprovalGate.Instant
