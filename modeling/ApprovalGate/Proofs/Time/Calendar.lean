import ApprovalGate.Time.Calendar
/-!
# Days and dates

The date of a day is a date of the calendar, and its day is that day again.  A day of an era of 400 years is taken
apart into centuries, leap cycles of four years, years and days (`Parts`), and in these terms the year is told by a
sum, where the definition divides.
-/
namespace ApprovalGate.Date

theorem ediv_eq {x n q r : Int} (h : x = n * q + r) (h0 : 0 ≤ r) (h1 : r < n) : x / n = q :=
  ((Int.ediv_emod_unique (Int.lt_of_le_of_lt h0 h1)).2 ⟨by rw [h, Int.add_comm], h0, h1⟩).1

/-- A day of an era as so many centuries, leap cycles, years and days.  The last day of a leap year is one day more
than a year has, and it is the last of its cycle, which is not the last of its century, or else of the era. -/
structure Parts (day century cycle year rest : Int) : Prop where
  centuries : 0 ≤ century ∧ century ≤ 3
  cycles : 0 ≤ cycle ∧ cycle ≤ 24
  years : 0 ≤ year ∧ year ≤ 3
  days : 0 ≤ rest ∧ rest ≤ 365
  sum : day = 36524 * century + 1461 * cycle + 365 * year + rest
  leap : rest = 365 → year = 3 ∧ (cycle < 24 ∨ century = 3)

theorem exists_parts {day : Int} (h0 : 0 ≤ day) (h1 : day ≤ 146096) : ∃ c q y r, Parts day c q y r := by
  obtain ⟨c, r, hc, hr, hl, hday⟩ : ∃ c r : Int, (0 ≤ c ∧ c ≤ 3) ∧ (0 ≤ r ∧ r ≤ 36524) ∧ (r = 36524 → c = 3) ∧
      day = 36524 * c + r := by
    by_cases h : day = 146096
    · exact ⟨3, 36524, by omega⟩
    · exact ⟨day / 36524, day % 36524, by omega⟩
  obtain ⟨y, d, hy, hd, hl', hr'⟩ : ∃ y d : Int, (0 ≤ y ∧ y ≤ 3) ∧ (0 ≤ d ∧ d ≤ 365) ∧ (d = 365 → y = 3) ∧
      r % 1461 = 365 * y + d := by
    by_cases h : r % 1461 = 1460
    · exact ⟨3, 365, by omega⟩
    · exact ⟨r % 1461 / 365, r % 1461 % 365, by omega⟩
  exact ⟨c, r / 1461, y, d, hc, by omega, hy, hd, by omega, by omega⟩

variable {day c q y r : Int}

theorem Parts.yearOfEra (p : Parts day c q y r) :
    (day - day / 1460 + day / 36524 - day / 146096) / 365 = 100 * c + 4 * q + y := by
  obtain ⟨hc, hq, hy, hr, rfl, hl⟩ := p
  generalize hday : 36524 * c + 1461 * q + 365 * y + r = day
  by_cases hlast : day = 146096
  · omega
  have h1 : day / 36524 = c := ediv_eq (r := 1461 * q + 365 * y + r) (by omega) (by omega) (by omega)
  have h2 : day / 146096 = 0 := by omega
  -- of the days past the years some are leap days, and these can make up another 1460
  by_cases hs : 24 * c + q + 365 * y + r < 1460
  · have h3 : day / 1460 = 25 * c + q := ediv_eq (r := 24 * c + q + 365 * y + r) (by omega) (by omega) hs
    rw [h1, h2, h3]
    exact ediv_eq (r := r) (by omega) (by omega) (by omega)
  · have h3 : day / 1460 = 25 * c + q + 1 :=
      ediv_eq (r := 24 * c + q + 365 * y + r - 1460) (by omega) (by omega) (by omega)
    rw [h1, h2, h3]
    exact ediv_eq (r := r - 1) (by omega) (by omega) (by omega)

theorem Parts.dayOfYear (p : Parts day c q y r) :
    day - (365 * (100 * c + 4 * q + y) + (100 * c + 4 * q + y) / 4 - (100 * c + 4 * q + y) / 100) = r := by
  obtain ⟨hc, hq, hy, hr, hs, -⟩ := p
  have h4 : (100 * c + 4 * q + y) / 4 = 25 * c + q := ediv_eq (r := y) (by omega) hy.1 (by omega)
  have h100 : (100 * c + 4 * q + y) / 100 = c := ediv_eq (r := 4 * q + y) (by omega) (by omega) (by omega)
  rw [h4, h100]
  omega

theorem Parts.bounds (p : Parts day c q y r) : 0 ≤ day ∧ day ≤ 146096 := by
  obtain ⟨hc, hq, hy, hr, hs, hl⟩ := p
  omega

/-- The months of a year that starts in March, of up to 31 days each. -/
theorem month_bounds {r : Int} (h0 : 0 ≤ r) (h1 : r ≤ 365) :
    0 ≤ (5 * r + 2) / 153 ∧ (5 * r + 2) / 153 ≤ 11 ∧ 0 ≤ r - (153 * ((5 * r + 2) / 153) + 2) / 5 ∧
      r - (153 * ((5 * r + 2) / 153) + 2) / 5 ≤ 30 := by
  omega

/-- **The date of a day** in terms of its era and its parts there. -/
theorem ofDay_eq {era : Int} (p : Parts (day + 719468 - era * 146097) c q y r) : ofDay day =
    { year := 100 * c + 4 * q + y + era * 400 + (if (5 * r + 2) / 153 < 10 then 0 else 1)
      month := (if (5 * r + 2) / 153 < 10 then (5 * r + 2) / 153 + 3 else (5 * r + 2) / 153 - 9).toNat
      day := (r - (153 * ((5 * r + 2) / 153) + 2) / 5 + 1).toNat } := by
  have hera : (day + 719468) / 146097 = era := by
    have := p.bounds
    exact ediv_eq (r := day + 719468 - era * 146097) (by omega) this.1 (by omega)
  have hm := month_bounds p.days.1 p.days.2
  unfold ofDay
  simp only [hera, p.yearOfEra, p.dayOfYear]
  generalize (5 * r + 2) / 153 = month at hm ⊢
  by_cases h : month < 10
  · rw [if_pos h, if_pos h, if_neg (by omega)]
  · rw [if_neg h, if_neg h, if_pos (by omega)]

theorem exists_era (day : Int) : ∃ era c q y r, Parts (day + 719468 - era * 146097) c q y r :=
  ⟨(day + 719468) / 146097, exists_parts (by omega) (by omega)⟩

/-- **The day of the date of a day is that day.** -/
theorem toDay_ofDay (day : Int) : (ofDay day).toDay = day := by
  obtain ⟨era, c, q, y, r, p⟩ := exists_era day
  have hm := month_bounds p.days.1 p.days.2
  have hera : (100 * c + 4 * q + y + era * 400) / 400 = era := by
    obtain ⟨hc, hq, hy, -, -, -⟩ := p
    exact ediv_eq (r := 100 * c + 4 * q + y) (by omega) (by omega) (by omega)
  have hr := p.dayOfYear
  rw [ofDay_eq p]
  clear p
  unfold toDay
  generalize (5 * r + 2) / 153 = month at hm ⊢
  generalize 100 * c + 4 * q + y = year at hera hr ⊢
  by_cases h : month < 10
  · simp only [if_pos h]
    rw [if_neg (by omega), if_neg (by omega), show year + era * 400 + 0 = year + era * 400 by omega, hera,
      show year + era * 400 - era * 400 = year by omega, show ((month + 3).toNat : Int) - 3 = month by omega]
    omega
  · simp only [if_neg h]
    rw [if_pos (by omega), if_pos (by omega), show year + era * 400 + 1 - 1 = year + era * 400 by omega, hera,
      show year + era * 400 - era * 400 = year by omega, show ((month - 9).toNat : Int) + 9 = month by omega]
    omega

/-- The length of a month of a year that starts in March: as it is in the calendar, and for the last, February, as long
as the year has days. -/
theorem monthLength_ge {year : Int} {r month : Int} (h0 : 0 ≤ r) (h1 : r ≤ 365) (hmonth : (5 * r + 2) / 153 = month)
    (hleap : r = 365 → isLeapYear year = true) :
    r - (153 * month + 2) / 5 + 1 ≤ monthLength year (if month < 10 then month + 3 else month - 9).toNat := by
  have cases : month = 0 ∨ month = 1 ∨ month = 2 ∨ month = 3 ∨ month = 4 ∨ month = 5 ∨ month = 6 ∨ month = 7 ∨
      month = 8 ∨ month = 9 ∨ month = 10 ∨ month = 11 := by
    have := month_bounds h0 h1
    omega
  have thirty : ∀ n : Nat, n = 4 ∨ n = 6 ∨ n = 9 ∨ n = 11 → monthLength year n = 30 := by
    rintro n (rfl | rfl | rfl | rfl) <;> rfl
  have more : ∀ n : Nat, n ≠ 2 ∧ n ≠ 4 ∧ n ≠ 6 ∧ n ≠ 9 ∧ n ≠ 11 → monthLength year n = 31 := by
    intro n hn
    rw [monthLength, if_neg (by omega), if_neg (by omega)]
  rcases cases with rfl | rfl | rfl | rfl | rfl | rfl | rfl | rfl | rfl | rfl | rfl | rfl
  case inr.inr.inr.inr.inr.inr.inr.inr.inr.inr.inr =>
    show _ ≤ ((if isLeapYear year then 29 else 28 : Nat) : Int)
    cases hl : isLeapYear year with
    | true =>
      rw [if_pos rfl]
      omega
    | false =>
      rw [if_neg (by decide)]
      rw [hl] at hleap
      have : r ≠ 365 := fun h => Bool.false_ne_true (hleap h)
      omega
  all_goals
    first
    | rw [thirty _ (by decide)]; omega
    | rw [more _ (by decide)]; omega

theorem isLeapYear_of_parts {era : Int} (p : Parts day c q y r) (hr : r = 365) :
    isLeapYear (100 * c + 4 * q + y + era * 400 + 1) = true := by
  obtain ⟨hy, hl⟩ := p.leap hr
  have hq := p.cycles
  have h4 : (100 * c + 4 * q + y + era * 400 + 1) % 4 = 0 := by omega
  unfold isLeapYear
  rw [h4]
  rcases hl with hl | hl
  · have h100 : (100 * c + 4 * q + y + era * 400 + 1) % 100 ≠ 0 := by omega
    simp [h100]
  · by_cases hq' : q < 24
    · have h100 : (100 * c + 4 * q + y + era * 400 + 1) % 100 ≠ 0 := by omega
      simp [h100]
    · have h400 : (100 * c + 4 * q + y + era * 400 + 1) % 400 = 0 := by omega
      simp [h400]

/-- **The date of a day is a date of the calendar.** -/
theorem isValid_ofDay (day : Int) : (ofDay day).isValid = true := by
  obtain ⟨era, c, q, y, r, p⟩ := exists_era day
  have hm := month_bounds p.days.1 p.days.2
  rw [ofDay_eq p]
  unfold isValid
  simp only [Bool.and_eq_true, decide_eq_true_eq]
  refine ⟨⟨⟨?_, ?_⟩, ?_⟩, Int.toNat_le.2 (monthLength_ge p.days.1 p.days.2 rfl fun hr => ?_)⟩
  · split <;> omega
  · split <;> omega
  · omega
  · rw [if_neg (by omega)]
    exact isLeapYear_of_parts p hr

/-- **The first day and the last** of the instants there are lie in the first year and the last, and so do all. -/
theorem ofDay_year {day : Int} (hl : -96465292 ≤ day) (hu : day ≤ 95026236) :
    -262143 ≤ (ofDay day).year ∧ (ofDay day).year ≤ 262142 := by
  obtain ⟨era, c, q, y, r, p⟩ := exists_era day
  rw [show (ofDay day).year = 100 * c + 4 * q + y + era * 400 + (if (5 * r + 2) / 153 < 10 then 0 else 1) by
    rw [ofDay_eq p]]
  obtain ⟨hc, hq, hy, hr, hs, -⟩ := p
  have hday : day + 719468 = 146097 * era + 365 * (100 * c + 4 * q + y) + (24 * c + q) + r := by omega
  have hera : -656 ≤ era ∧ era ≤ 655 := by omega
  have late : 10 ≤ (5 * r + 2) / 153 ↔ 306 ≤ r := by omega
  constructor
  · by_cases hlow : era = -656 ∧ 100 * c + 4 * q + y = 256
    · have hparts : c = 2 ∧ q = 14 := by omega
      have := late.2 (by omega)
      rw [if_neg (by omega)]
      omega
    · have : 0 ≤ (if (5 * r + 2) / 153 < 10 then (0 : Int) else 1) := by split <;> decide
      omega
  · by_cases hhigh : era = 655 ∧ 100 * c + 4 * q + y = 142
    · have hparts : c = 1 ∧ q = 10 := by omega
      have := mt late.1 (by omega)
      rw [if_pos (by omega)]
      omega
    · have : (if (5 * r + 2) / 153 < 10 then (0 : Int) else 1) ≤ 1 := by split <;> decide
      omega

theorem isValid_bounds {d : Date} (h : d.isValid = true) :
    (1 ≤ d.month ∧ d.month ≤ 12) ∧ 1 ≤ d.day ∧ d.day ≤ 31 := by
  unfold isValid at h
  simp only [Bool.and_eq_true, decide_eq_true_eq] at h
  obtain ⟨⟨hm, hd⟩, hl⟩ := h
  have : monthLength d.year d.month ≤ 31 := by
    unfold monthLength
    repeat' split
    all_goals decide
  exact ⟨hm, hd, Nat.le_trans hl this⟩

end ApprovalGate.Date
