import ApprovalGate.Proofs.Time.Calendar
import ApprovalGate.Time.Instant
/-!
# Instants in nanoseconds

Away from leap seconds an instant is its nanoseconds since 1970: instants are ordered as these numbers are (`le_iff`),
the time between two is their difference (`since_eq`), and a span later is a sum (`add?_eq`), as long as there is an
instant so late.  Up to the year 262000 there is one a century later (`second_le_of_year`).
-/
namespace ApprovalGate.Instant

/-- The nanoseconds since 1970. -/
def nanos (t : Instant) : Int := t.second * 1000000000 + t.nano

/-- Whether an instant lies in no leap second. -/
def Regular (t : Instant) : Prop := t.nano < 1000000000

instance (t : Instant) : Decidable t.Regular := inferInstanceAs (Decidable (t.nano < 1000000000))

theorem Regular.isLeap {t : Instant} (h : t.Regular) : t.isLeap = false := decide_eq_false (Nat.not_le.2 h)

theorem le_iff {a b : Instant} (ha : a.Regular) (hb : b.Regular) : a ≤ b ↔ a.nanos ≤ b.nanos := by
  unfold Regular at ha hb
  show (a.second < b.second ∨ (a.second = b.second ∧ a.nano ≤ b.nano)) ↔ _
  unfold nanos
  omega

theorem since_eq {a b : Instant} (ha : a.Regular) (hb : b.Regular) : a.since b = a.nanos - b.nanos := by
  unfold since
  simp only [ha.isLeap, hb.isLeap, Bool.false_eq_true, and_false, if_false, nanos]
  omega

theorem since?_eq {a b : Instant} (ha : a.Regular) (hb : b.Regular) :
    a.since? b = if b.nanos ≤ a.nanos then some ⟨(a.nanos - b.nanos).toNat⟩ else none := by
  unfold since?
  rw [since_eq ha hb]
  by_cases h : b.nanos ≤ a.nanos
  · rw [if_pos h, if_pos (by omega)]
  · rw [if_neg h, if_neg (by omega)]

theorem ofParts?_eq {second : Int} {nano : Nat} (hl : -8334601228800 ≤ second) (hu : second ≤ 8210266876799)
    (hn : nano < 1000000000) : ofParts? second nano = some ⟨second, nano, hl, hu, .inl hn⟩ :=
  dif_pos ⟨hl, hu, .inl hn⟩

/-- **A span later is a sum of nanoseconds**, when that is not too late. -/
theorem add?_eq {t : Instant} {d : Span} (h : t.Regular) (hd : t.second + d.seconds < 8210266876799) :
    ∃ x, t.add? d = some x ∧ x.Regular ∧ x.nanos = t.nanos + d.nanos := by
  have hlow := t.valid.1
  have hparts : (d.nanos : Int) = d.seconds * 1000000000 + d.subNanos := by
    unfold Span.seconds Span.subNanos
    omega
  have hsub : d.subNanos < 1000000000 := Nat.mod_lt _ (by decide)
  have hn : t.nano < 1000000000 := h
  unfold add?
  simp only [h.isLeap, Bool.false_eq_true, if_false]
  -- the nanoseconds of both make up another second or not
  by_cases hcarry : t.nano + d.subNanos < 1000000000
  · rw [if_pos hcarry, ofParts?_eq (by omega) (by omega) hcarry]
    refine ⟨_, rfl, hcarry, ?_⟩
    simp only [nanos]
    omega
  · rw [if_neg hcarry, ofParts?_eq (by omega) (by omega) (by omega)]
    refine ⟨_, rfl, show t.nano + d.subNanos - 1000000000 < 1000000000 by omega, ?_⟩
    simp only [nanos]
    omega

/-- Up to the year 262000 there is more than a century left. -/
theorem second_le_of_year {t : Instant} (h : (Date.ofDay t.day).year ≤ 262000) : t.second ≤ 8206000000000 := by
  have hvalid := Date.isValid_bounds (Date.isValid_ofDay t.day)
  have hday := Date.toDay_ofDay t.day
  generalize Date.ofDay t.day = date at h hvalid hday
  have hlate : t.day ≤ 94975000 := by
    rw [← hday, Date.toDay]
    split <;> omega
  unfold day at hlate
  omega

end ApprovalGate.Instant
