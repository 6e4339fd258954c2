import ApprovalGate.Json.Printer
import ApprovalGate.Json.Reader
import ApprovalGate.Proofs.Text
/-!
# Numbers and strings in JSON

A number is read as far as it can go on, so it is found again where something follows that does not go on with it
(`readNumberText?_append`).  An integer of 64 bits is read as what it was written for (`readNumber?_writeInt`), and so
is every string (`readString?_escape`).
-/
namespace ApprovalGate.Json

open Text (Digits NoDigitNext)

/-! ## Numbers -/

/-- Whether a text that follows a number is no part of it. -/
def EndsNumber : List Char → Prop
  | [] => True
  | c :: _ => c.isDigit = false ∧ c ≠ '.' ∧ c ≠ 'e' ∧ c ≠ 'E'

theorem EndsNumber.noDigitNext : ∀ {rest : List Char}, EndsNumber rest → NoDigitNext rest
  | [], _ => trivial
  | _ :: _, h => h.1

theorem takeDigits_append {rest : List Char} (hr : NoDigitNext rest) : ∀ cs : List Char,
    takeDigits (cs ++ rest) = ((takeDigits cs).1, (takeDigits cs).2 ++ rest)
  | [] => by
    have none : Text.Digits [] := fun _ h => absurd h List.not_mem_nil
    have h := Text.takeWhile_digits none hr
    have h' := Text.dropWhile_digits none hr
    unfold takeDigits
    rw [h, h']
    rfl
  | c :: cs => by
    have ih := takeDigits_append hr cs
    unfold takeDigits at ih ⊢
    by_cases hc : c.isDigit = true
    · simpa [List.takeWhile_cons, List.dropWhile_cons, hc] using ih
    · rw [List.cons_append, List.takeWhile_cons_of_neg hc, List.dropWhile_cons_of_neg hc,
        List.takeWhile_cons_of_neg hc, List.dropWhile_cons_of_neg hc]
      rfl

theorem takeDigits_digits {ds rest : List Char} (hd : Digits ds) (hr : NoDigitNext rest) :
    takeDigits (ds ++ rest) = (ds, rest) := by
  unfold takeDigits
  rw [Text.takeWhile_digits hd hr, Text.dropWhile_digits hd hr]

/-- The sign of an exponent, and what follows it. -/
def exponentSign : List Char → Bool × List Char
  | '-' :: rest => (true, rest)
  | '+' :: rest => (false, rest)
  | rest => (false, rest)

/-- An exponent after its sign. -/
def readUnsigned? (negative : Bool) (cs : List Char) : Option (Option Int × List Char) :=
  match takeDigits cs with
  | ([], _) => none
  | (ds, rest) => some (some (if negative then -(Nat.ofDigitChars 10 ds 0 : Int) else Nat.ofDigitChars 10 ds 0), rest)

theorem readExponent?_mark {c : Char} (hc : c = 'e' ∨ c = 'E') (cs : List Char) :
    readExponent? (c :: cs) = readUnsigned? (exponentSign cs).1 (exponentSign cs).2 := if_pos hc

theorem exponentSign_append {cs : List Char} (hcs : cs ≠ []) (rest : List Char) :
    exponentSign (cs ++ rest) = ((exponentSign cs).1, (exponentSign cs).2 ++ rest) := by
  cases cs with
  | nil => exact absurd rfl hcs
  | cons c cs =>
    by_cases hm : c = '-'
    · subst hm
      rfl
    · by_cases hp : c = '+'
      · subst hp
        rfl
      · simp [exponentSign, hm, hp]

theorem readUnsigned?_append {rest : List Char} (hr : NoDigitNext rest) {negative : Bool} {cs left : List Char}
    {e : Option Int} (h : readUnsigned? negative cs = some (e, left)) :
    readUnsigned? negative (cs ++ rest) = some (e, left ++ rest) := by
  unfold readUnsigned? at h ⊢
  rw [takeDigits_append hr]
  generalize takeDigits cs = p at h ⊢
  rcases p with ⟨_ | ⟨d, ds⟩, left'⟩
  · cases h
  · cases h
    rfl

theorem readExponent?_append {rest : List Char} (hr : EndsNumber rest) {cs left : List Char} {e : Option Int}
    (h : readExponent? cs = some (e, left)) : readExponent? (cs ++ rest) = some (e, left ++ rest) := by
  cases cs with
  | nil =>
    cases h
    cases rest with
    | nil => rfl
    | cons c rest => simp [readExponent?, hr.2.2.1, hr.2.2.2]
  | cons c cs =>
    by_cases hc : c = 'e' ∨ c = 'E'
    · rw [readExponent?_mark hc] at h
      rw [List.cons_append, readExponent?_mark hc]
      have hcs : cs ≠ [] := by
        rintro rfl
        cases h
      rw [exponentSign_append hcs]
      exact readUnsigned?_append hr.noDigitNext h
    · simp only [readExponent?, if_neg hc, List.cons_append, Option.some.injEq, Prod.mk.injEq] at h ⊢
      exact ⟨h.1, by rw [← h.2, List.cons_append]⟩

/-- The rest of a number after the digits before its point. -/
def readPoint? (whole : List Char) : List Char → Option (NumberText × List Char)
  | '.' :: rest =>
    match takeDigits rest with
    | ([], _) => none
    | (fraction, rest) => (readExponent? rest).map fun (e, rest) => (⟨whole, fraction, e⟩, rest)
  | rest => (readExponent? rest).map fun (e, rest) => (⟨whole, [], e⟩, rest)

/-- Whether digits can stand before the point: there are some, and no zero is before another one. -/
def IsWhole (ds : List Char) : Prop := ds ≠ [] ∧ ∀ d ds', ds ≠ '0' :: d :: ds'

theorem readNumberText?_of_isWhole {cs ds rest : List Char} (h : takeDigits cs = (ds, rest)) (hd : IsWhole ds) :
    readNumberText? cs = readPoint? ds rest := by
  unfold readNumberText?
  rw [h]
  unfold readPoint?
  split <;> rename_i heq
  · cases heq
    exact absurd rfl hd.1
  · cases heq
    exact absurd rfl (hd.2 _ _)
  · cases heq
    rfl
  · cases heq
    split <;> simp_all

theorem isWhole_of_readNumberText? {cs left : List Char} {t : NumberText}
    (h : readNumberText? cs = some (t, left)) : IsWhole (takeDigits cs).1 := by
  unfold readNumberText? at h
  generalize takeDigits cs = p at h ⊢
  rcases p with ⟨ds, rest⟩
  constructor
  · rintro rfl
    cases h
  · rintro d ds' rfl
    cases h

theorem readPoint?_of_ne {whole cs : List Char} (h : ∀ rest, cs ≠ '.' :: rest) :
    readPoint? whole cs = (readExponent? cs).map fun (e, rest) => (⟨whole, [], e⟩, rest) := by
  unfold readPoint?
  split
  · exact absurd rfl (h _)
  · rfl

theorem readPoint?_append {rest : List Char} (hr : EndsNumber rest) {whole cs left : List Char} {t : NumberText}
    (h : readPoint? whole cs = some (t, left)) : readPoint? whole (cs ++ rest) = some (t, left ++ rest) := by
  by_cases hcs : ∃ ds, cs = '.' :: ds
  · obtain ⟨ds, rfl⟩ := hcs
    simp only [List.cons_append, readPoint?] at h ⊢
    rw [takeDigits_append hr.noDigitNext]
    generalize takeDigits ds = p at h ⊢
    rcases p with ⟨_ | ⟨d, ds⟩, left'⟩
    · cases h
    · obtain ⟨⟨e, left''⟩, he, heq⟩ := Option.map_eq_some_iff.1 h
      cases heq
      exact Option.map_eq_some_iff.2 ⟨_, readExponent?_append hr he, rfl⟩
  · have hcs' : ∀ ds, cs ≠ '.' :: ds := fun ds hds => hcs ⟨ds, hds⟩
    rw [readPoint?_of_ne hcs'] at h
    obtain ⟨⟨e, left'⟩, he, heq⟩ := Option.map_eq_some_iff.1 h
    cases heq
    rw [readPoint?_of_ne]
    · exact Option.map_eq_some_iff.2 ⟨_, readExponent?_append hr he, rfl⟩
    · intro ds hds
      cases cs with
      | nil =>
        rw [List.nil_append] at hds
        rw [hds] at hr
        exact hr.2.1 rfl
      | cons c cs =>
        cases hds
        exact hcs' cs rfl

theorem readNumberText?_append {rest : List Char} (hr : EndsNumber rest) {cs left : List Char} {t : NumberText}
    (h : readNumberText? cs = some (t, left)) : readNumberText? (cs ++ rest) = some (t, left ++ rest) := by
  have hw := isWhole_of_readNumberText? h
  rw [readNumberText?_of_isWhole rfl hw] at h
  rw [readNumberText?_of_isWhole (takeDigits_append hr.noDigitNext cs) hw]
  exact readPoint?_append hr h

/-- A number after its sign. -/
def readMagnitude? (negative : Bool) (cs : List Char) : Option (Json × List Char) :=
  (readNumberText? cs).bind fun (t, rest) => (t.value? negative).map (·, rest)

theorem readNumber?_minus (cs : List Char) : readNumber? ('-' :: cs) = readMagnitude? true cs := by
  simp only [readNumber?, readMagnitude?]
  cases readNumberText? cs <;> rfl

theorem readNumber?_of_ne {cs : List Char} (h : ∀ rest, cs ≠ '-' :: rest) :
    readNumber? cs = readMagnitude? false cs := by
  unfold readNumber? readMagnitude?
  split
  rename_i heq
  split at heq
  · exact absurd rfl (h _)
  · cases heq
    cases readNumberText? cs <;> rfl

/-! ## Integers -/

theorem le_ofDigitChars (ds : List Char) (m : Nat) : m ≤ Nat.ofDigitChars 10 ds m := by
  rw [Nat.ofDigitChars_eq_ofDigitChars_zero]
  calc m ≤ 10 ^ ds.length * m := Nat.le_mul_of_pos_left _ (Nat.pow_pos (by decide))
    _ ≤ _ := Nat.le_add_right _ _

/-- Digits of a number that fits in 64 bits all fit. -/
theorem fitDigits_eq : ∀ {ds : List Char} {m : Nat}, Nat.ofDigitChars 10 ds m < Nat.pow 2 64 →
    fitDigits m ds = (Nat.ofDigitChars 10 ds m, [])
  | [], m, _ => by rw [fitDigits, Nat.ofDigitChars_nil]
  | d :: ds, m, h => by
    rw [Nat.ofDigitChars_cons] at h ⊢
    have hm : m * 10 + (d.toNat - 48) = 10 * m + (d.toNat - '0'.toNat) := by
      rw [Nat.mul_comm]
      rfl
    unfold fitDigits
    have hfit : 10 * m + (d.toNat - '0'.toNat) < Nat.pow 2 64 := Nat.lt_of_le_of_lt (le_ofDigitChars ds _) h
    simp only [hm, if_pos hfit]
    exact fitDigits_eq h

theorem readNumberText?_decimal (n : Nat) :
    readNumberText? (Text.decimal n) = some (⟨Text.decimal n, [], none⟩, []) := by
  have h := @takeDigits_digits (Text.decimal n) [] (Text.digits_decimal n) trivial
  rw [List.append_nil] at h
  rw [readNumberText?_of_isWhole h ⟨Text.decimal_ne_nil n, Text.decimal_ne_zero_cons n⟩]
  rfl

theorem value?_decimal {n : Nat} (h : n < Nat.pow 2 64) :
    (⟨Text.decimal n, [], none⟩ : NumberText).value? false = some (.int n) ∧
      (0 < n → n ≤ Nat.pow 2 63 → (⟨Text.decimal n, [], none⟩ : NumberText).value? true = some (.int (-n))) := by
  have hv : Nat.ofDigitChars 10 (Text.decimal n) 0 = n := Nat.ofDigitChars_ten_toDigits
  have hfit : fitDigits 0 (Text.decimal n) = (n, []) := by
    rw [fitDigits_eq (by rw [hv]; exact h), hv]
  unfold NumberText.value?
  simp only [hfit]
  exact ⟨rfl, fun hpos hle => if_pos (And.intro hpos hle)⟩

theorem readMagnitude?_decimal (negative : Bool) (n : Nat) : readMagnitude? negative (Text.decimal n) =
    ((⟨Text.decimal n, [], none⟩ : NumberText).value? negative).map fun v => (v, []) := by
  rw [readMagnitude?, readNumberText?_decimal]
  rfl

/-- The integers that a reader keeps: those of 64 bits, with a sign or without. -/
def IntFits (n : Int) : Prop := -9223372036854775808 ≤ n ∧ n < 18446744073709551616

/-- **An integer is read as what it was written for.** -/
theorem readNumber?_writeInt {n : Int} (h : IntFits n) : readNumber? (writeInt n) = some (.int n, []) := by
  obtain ⟨hl, hu⟩ := h
  have hlt : n.natAbs < 18446744073709551616 := by omega
  obtain ⟨positive, negative⟩ := value?_decimal hlt
  unfold writeInt
  by_cases hn : n < 0
  · have hle : n.natAbs ≤ 9223372036854775808 := by omega
    have hint : -(n.natAbs : Int) = n := by omega
    rw [if_pos hn, readNumber?_minus, readMagnitude?_decimal, negative (by omega) hle, hint]
    rfl
  · have hint : (n.natAbs : Int) = n := by omega
    rw [if_neg hn, readNumber?_of_ne, readMagnitude?_decimal, positive, hint]
    · rfl
    · intro rest hrest
      have := Text.digits_decimal n.natAbs '-' (by rw [hrest]; exact List.mem_cons_self)
      revert this
      decide

/-! ## Strings -/

/-- The escape of a control character, whose code unit has two zeros in front. -/
theorem readEscape?_control {c : Char} (hc : c.toNat < 0x20) (rest : List Char) :
    readEscape? ('u' :: '0' :: '0' :: Text.hexDigit (Text.nibble (c.toNat / 16)) ::
      Text.hexDigit (Text.nibble c.toNat) :: rest) = some (c, rest) := by
  have hz : Text.hexValue? '0' = some 0 := rfl
  have hn : (((0 : Fin 16).val * 16 + (0 : Fin 16).val) * 16 + (Text.nibble (c.toNat / 16)).val) * 16 +
      (Text.nibble c.toNat).val = c.toNat := by
    simp only [Text.nibble, Fin.val_ofNat, Fin.val_zero]
    omega
  rw [readEscape?, readUnicode?, readUnit?, hz, Text.hexValue?_hexDigit, Text.hexValue?_hexDigit]
  simp only [Option.bind_eq_bind, Option.bind_some, Option.pure_def, hn]
  rw [if_neg (by omega), if_neg (by omega), Char.ofNat_toNat]

/-- One character of a string, escaped or not, takes one step. -/
theorem readChars?_escapeChar (fuel : Nat) (done : List Char) (c : Char) (rest : List Char) :
    readChars? (fuel + 1) done (escapeChar c ++ rest) = readChars? fuel (c :: done) rest := by
  by_cases hs : c = '"' ∨ c = '\\' ∨ c = '\n' ∨ c = '\r' ∨ c = '\t' ∨ c = '\x08' ∨ c = '\x0c'
  · rcases hs with rfl | rfl | rfl | rfl | rfl | rfl | rfl <;> rfl
  · simp only [not_or] at hs
    obtain ⟨hq, hb, hn, hr, ht, hbs, hff⟩ := hs
    unfold escapeChar
    simp only [if_neg hq, if_neg hb, if_neg hn, if_neg hr, if_neg ht, if_neg hbs, if_neg hff]
    by_cases hc : c.toNat < 0x20
    · rw [if_pos hc, List.cons_append, readChars?, if_neg (by decide), if_pos rfl]
      simp only [List.cons_append, List.nil_append]
      rw [readEscape?_control hc]
    · rw [if_neg hc, List.cons_append, List.nil_append, readChars?, if_neg hq, if_neg hb, if_neg hc]

theorem readChars?_escape (rest : List Char) : ∀ (cs : List Char) {fuel : Nat} (done : List Char), cs.length < fuel →
    readChars? fuel done (cs.flatMap escapeChar ++ '"' :: rest) = some (String.ofList (done.reverse ++ cs), rest)
  | [], fuel + 1, done, _ => by
    rw [List.flatMap_nil, List.nil_append, readChars?, if_pos rfl, List.append_nil]
  | c :: cs, fuel + 1, done, h => by
    rw [List.flatMap_cons, List.append_assoc, readChars?_escapeChar,
      readChars?_escape rest cs (c :: done) (Nat.lt_of_succ_lt_succ h), List.reverse_cons, List.append_assoc]
    rfl

theorem length_le_escape (cs : List Char) : cs.length ≤ (cs.flatMap escapeChar).length := by
  induction cs with
  | nil => exact Nat.le_refl _
  | cons c cs ih =>
    have hc : 1 ≤ (escapeChar c).length := by
      unfold escapeChar
      repeat' split
      all_goals simp only [List.length_cons]; omega
    rw [List.flatMap_cons, List.length_append, List.length_cons]
    omega

/-- **A string is read as what it was written for.** -/
theorem readString?_escape (s : String) (rest : List Char) :
    readString? (s.toList.flatMap escapeChar ++ '"' :: rest) = some (s, rest) := by
  have hl := length_le_escape s.toList
  rw [readString?, readChars?_escape rest s.toList [] (by rw [List.length_append]; omega), List.reverse_nil,
    List.nil_append, String.ofList_toList]

end ApprovalGate.Json
