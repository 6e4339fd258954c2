import ApprovalGate.Proofs.Text
import ApprovalGate.Proofs.Time.Calendar
import ApprovalGate.Time.Timestamp
/-!
# Timestamps are read as they were written

Each field of a timestamp is read back from its digits, and the instant from its fields (`read?_write`), leap seconds
and years of more than four digits among them.
-/
namespace ApprovalGate.Instant

open Text (Digits NoDigitNext)

/-! ## Fields -/

theorem skipBlank_digits {ds rest : List Char} (hd : Digits ds) (hne : ds ≠ []) :
    skipBlank (ds ++ rest) = ds ++ rest := by
  cases ds with
  | nil => exact absurd rfl hne
  | cons d ds =>
    have := Text.isBlank_of_isDigit (hd d List.mem_cons_self)
    exact List.dropWhile_cons_of_neg (by rw [this]; decide)

/-- A run of digits is read as far as the width goes, or up to what is no digit. -/
theorem readNumber?_digits {width : Nat} {ds rest : List Char} (hd : Digits ds) (hne : ds ≠ [])
    (hw : ds.length ≤ width) (hr : NoDigitNext (rest.take (width - ds.length))) :
    readNumber? width (ds ++ rest) = some (Nat.ofDigitChars 10 ds 0, rest) := by
  have htake : ((ds ++ rest).take width).takeWhile Char.isDigit = ds := by
    rw [List.take_append, List.take_of_length_le hw, Text.takeWhile_digits hd hr]
  unfold readNumber?
  rw [htake]
  split
  · exact absurd rfl hne
  · rw [List.drop_left]

theorem readField?_padded {low high n : Nat} (hl : low ≤ n) (hh : n ≤ high) (hn : n < 100) (rest : List Char) :
    readField? 2 low high (Text.decimalPadded 2 n ++ rest) = some (n, rest) := by
  have hlen := Text.length_decimalPadded (w := 2) (by decide) hn
  unfold readField?
  rw [skipBlank_digits (Text.digits_decimalPadded 2 n) (Text.decimalPadded_ne_nil 2 n),
    readNumber?_digits (Text.digits_decimalPadded 2 n) (Text.decimalPadded_ne_nil 2 n) (Nat.le_of_eq hlen)
      (by rw [hlen]; exact trivial), Text.ofDigitChars_decimalPadded, Option.filter_some, if_pos]
  simp [hl, hh]

theorem readMark?_cons {mark : Char} (h : Text.isBlank mark = false) (rest : List Char) :
    readMark? mark (mark :: rest) = some rest := by
  have hs : skipBlank (mark :: rest) = mark :: rest := List.dropWhile_cons_of_neg (by rw [h]; decide)
  unfold readMark?
  rw [hs]
  simp only [if_true]

theorem readYear?_digits {ds rest : List Char} (hd : Digits ds) (hne : ds ≠ []) :
    readYear? (ds ++ rest) = (readNumber? 4 (ds ++ rest)).map fun (n, rest) => ((n : Int), rest) := by
  have hs := @skipBlank_digits ds rest hd hne
  cases ds with
  | nil => exact absurd rfl hne
  | cons d ds =>
    have hdigit := hd d List.mem_cons_self
    unfold readYear?
    rw [hs, List.cons_append]
    split
    · rename_i heq
      rw [List.head_eq_of_cons_eq heq] at hdigit
      cases hdigit
    · rename_i heq
      rw [List.head_eq_of_cons_eq heq] at hdigit
      cases hdigit
    · rfl

theorem readYear?_writeYear (y : Int) (rest : List Char) :
    readYear? (writeYear y ++ '-' :: rest) = some (y, '-' :: rest) := by
  have hd := Text.digits_decimalPadded 4 y.natAbs
  have hne := Text.decimalPadded_ne_nil 4 y.natAbs
  unfold writeYear
  by_cases h : 0 ≤ y ∧ y ≤ 9999
  · have hy : y.toNat = y.natAbs := by omega
    have hlt : y.natAbs < 10000 := by omega
    have hlen := @Text.length_decimalPadded 4 y.natAbs (by decide) hlt
    rw [if_pos h, hy, readYear?_digits hd hne, readNumber?_digits hd hne (Nat.le_of_eq hlen)
      (by rw [hlen]; exact trivial), Text.ofDigitChars_decimalPadded]
    exact congrArg (fun z : Int => some (z, '-' :: rest)) (by omega)
  · have signed : readNumber? (Text.decimalPadded 4 y.natAbs ++ '-' :: rest).length
        (Text.decimalPadded 4 y.natAbs ++ '-' :: rest) = some (y.natAbs, '-' :: rest) := by
      rw [readNumber?_digits hd hne, Text.ofDigitChars_decimalPadded]
      · rw [List.length_append]
        exact Nat.le_add_right _ _
      · rw [List.length_append, Nat.add_sub_cancel_left, List.take_length]
        rfl
    rw [if_neg h]
    by_cases hn : y < 0
    · have minus : ∀ cs, readYear? ('-' :: cs) = (readNumber? cs.length cs).map fun (n, rest) => (-(n : Int), rest) :=
        fun _ => rfl
      rw [if_pos hn, List.cons_append, minus, signed]
      exact congrArg (fun z : Int => some (z, '-' :: rest)) (by omega)
    · have plus : ∀ cs, readYear? ('+' :: cs) = (readNumber? cs.length cs).map fun (n, rest) => ((n : Int), rest) :=
        fun _ => rfl
      rw [if_neg hn, List.cons_append, plus, signed]
      exact congrArg (fun z : Int => some (z, '-' :: rest)) (by omega)

/-- The digits of a fraction are as many as its unit needs. -/
theorem readFraction?_digits {n width : Nat} (hw : 0 < width) (hw' : width ≤ 9) (hn : n < Nat.pow 10 width) :
    readFraction? ('.' :: Text.decimalPadded width n ++ ['Z']) = some (n * Nat.pow 10 (9 - width), ['Z']) := by
  have hd := Text.digits_decimalPadded width n
  have hlen := Text.length_decimalPadded hw hn
  have hz : NoDigitNext ['Z'] := (rfl : 'Z'.isDigit = false)
  have htake : ((Text.decimalPadded width n ++ ['Z']).take 9).takeWhile Char.isDigit = Text.decimalPadded width n := by
    rw [List.take_append, List.take_of_length_le (by rw [hlen]; exact hw'), Text.takeWhile_digits hd]
    cases 9 - (Text.decimalPadded width n).length with
    | zero => exact trivial
    | succ k => exact hz
  rw [List.cons_append, readFraction?, htake]
  split
  · exact absurd ‹_› (Text.decimalPadded_ne_nil width n)
  · rw [Text.ofDigitChars_decimalPadded, hlen, Text.dropWhile_digits hd hz]

theorem readFraction?_writeFraction {nano : Nat} (h : nano < 1000000000) :
    readFraction? (writeFraction nano ++ ['Z']) = some (nano, ['Z']) := by
  have digits : ∀ {n width : Nat}, 0 < width → width ≤ 9 → n < Nat.pow 10 width → n * Nat.pow 10 (9 - width) = nano →
      readFraction? ('.' :: Text.decimalPadded width n ++ ['Z']) = some (nano, ['Z']) := by
    intro n width hw hw' hn heq
    rw [readFraction?_digits hw hw' hn, heq]
  unfold writeFraction
  by_cases h0 : nano = 0
  · rw [if_pos h0, h0]
    rfl
  · rw [if_neg h0]
    by_cases h6 : nano % 1000000 = 0
    · have hn : nano / 1000000 < 1000 := by omega
      have heq : nano / 1000000 * 1000000 = nano := by omega
      rw [if_pos h6]
      exact digits (by decide) (by decide) hn heq
    · rw [if_neg h6]
      by_cases h3 : nano % 1000 = 0
      · have hn : nano / 1000 < 1000000 := by omega
        have heq : nano / 1000 * 1000 = nano := by omega
        rw [if_pos h3]
        exact digits (by decide) (by decide) hn heq
      · rw [if_neg h3]
        exact digits (by decide) (by decide) h (Nat.mul_one nano)

/-! ## Whole timestamps -/

theorem ofParts?_self (t : Instant) : ofParts? t.second t.nano = some t := dif_pos t.valid

theorem readChars?_writeWith (t : Instant) : readChars? (t.writeWith ['Z']) = some t := by
  have hv := t.valid
  have hvalid := Date.isValid_ofDay t.day
  have hyear := @Date.ofDay_year t.day (by unfold day; omega) (by unfold day; omega)
  have hday := Date.toDay_ofDay t.day
  have hs : t.secondOfDay < 86400 := by unfold secondOfDay; omega
  have hleap : 1000000000 ≤ t.nano → t.secondOfDay % 60 = 59 := by unfold secondOfDay; omega
  have hsum : t.day * 86400 + t.secondOfDay = t.second := by unfold day secondOfDay; omega
  have hself := t.ofParts?_self
  obtain ⟨hm, hd⟩ := Date.isValid_bounds hvalid
  unfold writeWith
  generalize Date.ofDay t.day = date at *
  generalize t.secondOfDay = s at *
  simp only [List.append_assoc, List.cons_append]
  have hh : s / 3600 ≤ 23 := by omega
  have hmi : s / 60 % 60 ≤ 59 := by omega
  have hse : s % 60 + t.nano / 1000000000 ≤ 60 := by omega
  have month := @readField?_padded 1 12 date.month hm.1 hm.2 (by omega)
  have day := @readField?_padded 1 31 date.day hd.1 hd.2 (by omega)
  have hour := @readField?_padded 0 23 (s / 3600) (Nat.zero_le _) hh (by omega)
  have minute := @readField?_padded 0 59 (s / 60 % 60) (Nat.zero_le _) hmi (by omega)
  have second := @readField?_padded 0 60 (s % 60 + t.nano / 1000000000) (Nat.zero_le _) hse (by omega)
  have fraction := @readFraction?_writeFraction (t.nano % 1000000000) (Nat.mod_lt _ (by decide))
  have dash := @readMark?_cons '-' (by decide)
  have colon := @readMark?_cons ':' (by decide)
  have offset : readOffset? (skipBlank ['Z']) = some (0, []) := rfl
  have hdate : (⟨date.year, date.month, date.day⟩ : Date) = date := rfl
  unfold readChars?
  refine Option.bind_eq_some_iff.2 ⟨_, readYear?_writeYear _ _, ?_⟩
  refine Option.bind_eq_some_iff.2 ⟨_, dash _, Option.bind_eq_some_iff.2 ⟨_, month _, ?_⟩⟩
  refine Option.bind_eq_some_iff.2 ⟨_, dash _, Option.bind_eq_some_iff.2 ⟨_, day _, ?_⟩⟩
  refine (if_pos (Or.inl rfl)).trans (Option.bind_eq_some_iff.2 ⟨_, rfl, Option.bind_eq_some_iff.2 ⟨_, hour _, ?_⟩⟩)
  refine Option.bind_eq_some_iff.2 ⟨_, colon _, Option.bind_eq_some_iff.2 ⟨_, minute _, ?_⟩⟩
  refine Option.bind_eq_some_iff.2 ⟨_, colon _, Option.bind_eq_some_iff.2 ⟨_, second _, ?_⟩⟩
  refine Option.bind_eq_some_iff.2 ⟨_, fraction, Option.bind_eq_some_iff.2 ⟨_, offset, ?_⟩⟩
  simp only
  rw [hdate, hday, if_neg]
  · -- a leap second is written as the sixtieth
    by_cases hl : 1000000000 ≤ t.nano
    · have h59 := hleap hl
      rw [if_pos (by omega)]
      rw [← hself]
      congr 1 <;> omega
    · rw [if_neg (by omega)]
      rw [← hself]
      congr 1 <;> omega
  · rw [hvalid]
    simp only [skipBlank, List.dropWhile_nil, List.isEmpty_nil, Bool.not_true, Bool.false_eq_true, false_or, not_or,
      Int.not_lt]
    exact hyear

/-- **An instant is read as it was written.** -/
theorem read?_write (t : Instant) : read? t.write = some t := by
  rw [read?, write, String.toList_ofList]
  exact readChars?_writeWith t

end ApprovalGate.Instant
