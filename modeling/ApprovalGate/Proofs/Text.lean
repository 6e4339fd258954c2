import ApprovalGate.Text.Digit
import ApprovalGate.Text.Split
/-!
# Texts and the digits in them

What a number's decimal digits are, and that they are found again where they are followed by something else.  A reader
takes the longest run of digits there is, so the digits come back just when no digit follows them.
-/
namespace ApprovalGate.Text

/-- **The bytes of a text are that text.** -/
theorem fromUTF8?_toUTF8 (s : String) : String.fromUTF8? s.toUTF8 = some s := dif_pos s.isValidUTF8

/-- **All of one character at the end of a text goes**, and what is before it stays. -/
theorem trimEndOf_replicate {s : String} {c : Char} {base : List Char} {n : Nat}
    (hs : s.toList = base ++ List.replicate n c) (hb : base.getLast? ≠ some c) : (trimEndOf c s).toList = base := by
  have hd : base.reverse.dropWhile (· == c) = base.reverse := by
    cases h : base.reverse with
    | nil => rfl
    | cons x xs =>
      have hx : x ≠ c := fun hc => hb (by rw [List.getLast?_eq_head?_reverse, h, hc, List.head?_cons])
      exact List.dropWhile_cons_of_neg (by simpa using hx)
  rw [trimEndOf, String.toList_ofList, hs, dropEndWhile, List.reverse_append,
    List.dropWhile_append_of_pos (by simp), hd, List.reverse_reverse]

/-! ## Runs of digits -/

/-- Whether every character is a digit. -/
def Digits (cs : List Char) : Prop := ∀ c ∈ cs, c.isDigit = true

/-- Whether a text does not go on with a digit. -/
def NoDigitNext : List Char → Prop
  | [] => True
  | c :: _ => c.isDigit = false

theorem takeWhile_digits : ∀ {ds rest : List Char}, Digits ds → NoDigitNext rest →
    (ds ++ rest).takeWhile Char.isDigit = ds
  | [], [], _, _ => rfl
  | [], c :: _, _, hr => by
    rw [List.nil_append, List.takeWhile_cons_of_neg (by rw [show c.isDigit = false from hr]; decide)]
  | d :: ds, rest, hd, hr => by
    rw [List.cons_append, List.takeWhile_cons_of_pos (hd d List.mem_cons_self),
      takeWhile_digits (fun c hc => hd c (List.mem_cons_of_mem _ hc)) hr]

theorem dropWhile_digits {ds rest : List Char} (hd : Digits ds) (hr : NoDigitNext rest) :
    (ds ++ rest).dropWhile Char.isDigit = rest := by
  have h := List.takeWhile_append_dropWhile (p := Char.isDigit) (l := ds ++ rest)
  rw [takeWhile_digits hd hr] at h
  exact List.append_cancel_left h

theorem toNat_of_isDigit {c : Char} (h : c.isDigit = true) : 48 ≤ c.toNat ∧ c.toNat ≤ 57 := by
  have h := Char.isDigit_iff_toNat.1 h
  simpa only [Char.reduceToNat] using h

/-- The characters of ASCII that can be seen are not blank. -/
theorem isBlank_of_visible {c : Char} (h : 33 ≤ c.toNat ∧ c.toNat ≤ 126) : isBlank c = false := by
  unfold isBlank
  simp only [Bool.or_eq_false_iff, Bool.and_eq_false_imp, decide_eq_true_eq, decide_eq_false_iff_not,
    beq_eq_false_iff_ne]
  omega

theorem isBlank_of_isDigit {c : Char} (h : c.isDigit = true) : isBlank c = false := by
  have := toNat_of_isDigit h
  exact isBlank_of_visible (by omega)

/-! ## Decimals -/

theorem digits_decimal (n : Nat) : Digits (decimal n) := fun _ hc =>
  Nat.isDigit_of_mem_toDigits (by decide) (by decide) hc

theorem decimal_ne_nil (n : Nat) : decimal n ≠ [] := Nat.toDigits_ne_nil

/-- A decimal of more than one digit does not begin with a zero. -/
theorem decimal_ne_zero_cons (n : Nat) (d : Char) (ds : List Char) : decimal n ≠ '0' :: d :: ds := by
  intro h
  have hlen : (decimal n).length = ds.length + 2 := by rw [h]; rfl
  have hval : n = Nat.ofDigitChars 10 (d :: ds) 0 := by
    have := Nat.ofDigitChars_ten_toDigits (n := n)
    rw [show Nat.toDigits 10 n = decimal n from rfl, h, Nat.ofDigitChars_cons] at this
    exact this.symm
  have hds : Digits (d :: ds) := fun c hc => digits_decimal n c (h ▸ List.mem_cons_of_mem _ hc)
  have hlt : n < Nat.pow 10 (ds.length + 1) := by
    rw [hval]
    exact ofDigitChars_lt hds
  have := (Nat.length_toDigits_le_iff (b := 10) (n := n) (k := ds.length + 1) (by decide) (by omega)).2 hlt
  rw [show Nat.toDigits 10 n = decimal n from rfl, hlen] at this
  omega
where
  /-- The value of some digits is below the power of ten that has one digit more. -/
  ofDigitChars_lt {ds : List Char} (hd : Digits ds) : Nat.ofDigitChars 10 ds 0 < Nat.pow 10 ds.length := by
    induction ds with
    | nil => decide
    | cons d ds ih =>
      have hc := toNat_of_isDigit (hd d List.mem_cons_self)
      have ih := ih fun c hc => hd c (List.mem_cons_of_mem _ hc)
      have : d.toNat - '0'.toNat ≤ 9 := by
        show d.toNat - 48 ≤ 9
        omega
      rw [Nat.ofDigitChars_cons, Nat.ofDigitChars_eq_ofDigitChars_zero]
      calc Nat.pow 10 ds.length * (10 * 0 + (d.toNat - '0'.toNat)) + Nat.ofDigitChars 10 ds 0
          < Nat.pow 10 ds.length * 9 + Nat.pow 10 ds.length := by
            refine Nat.add_lt_add_of_le_of_lt (Nat.mul_le_mul_left _ ?_) ih
            omega
        _ = Nat.pow 10 ds.length * 10 := by omega

theorem digits_decimalPadded (w n : Nat) : Digits (decimalPadded w n) := by
  intro c hc
  rcases List.mem_append.1 hc with hc | hc
  · rw [(List.mem_replicate.1 hc).2]
    rfl
  · exact digits_decimal n c hc

theorem ofDigitChars_decimalPadded (w n : Nat) : Nat.ofDigitChars 10 (decimalPadded w n) 0 = n := by
  rw [decimalPadded, Nat.ofDigitChars_append, Nat.ofDigitChars_replicate_zero, Nat.mul_zero]
  exact Nat.ofDigitChars_ten_toDigits

theorem length_decimalPadded {w n : Nat} (hw : 0 < w) (h : n < Nat.pow 10 w) : (decimalPadded w n).length = w := by
  have := (Nat.length_toDigits_le_iff (b := 10) (by decide) hw).2 h
  rw [decimalPadded, List.length_append, List.length_replicate, decimal]
  omega

theorem decimalPadded_ne_nil (w n : Nat) : decimalPadded w n ≠ [] := by
  intro h
  exact decimal_ne_nil n (List.append_eq_nil_iff.1 h).2

end ApprovalGate.Text
