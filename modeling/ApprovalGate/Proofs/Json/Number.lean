import ApprovalGate.Proofs.Json.Shape
/-!
# The texts of numbers

The text of any number is read to its end or not at all (`readNumber?_written`), so what follows it is not touched.
Which number comes back is another matter: an integer of more than 64 bits comes back as a double, and a double may
come back as another one.
-/
namespace ApprovalGate

namespace Json

open Text (Digits NoDigitNext)

theorem readPoint?_fraction {whole ds rest : List Char} (hd : Digits ds) (hne : ds ≠ []) (hr : NoDigitNext rest) :
    readPoint? whole ('.' :: (ds ++ rest)) = (readExponent? rest).map fun (e, left) => (⟨whole, ds, e⟩, left) := by
  simp only [readPoint?, takeDigits_digits hd hr]

theorem readUnsigned?_decimal (negative : Bool) (n : Nat) :
    ∃ e, readUnsigned? negative (Text.decimal n) = some (e, []) := by
  have h : takeDigits (Text.decimal n) = (Text.decimal n, []) := by
    simpa using @takeDigits_digits (Text.decimal n) [] (Text.digits_decimal n) trivial
  unfold readUnsigned?
  rw [h]
  cases hn : Text.decimal n with
  | nil => exact absurd hn (Text.decimal_ne_nil n)
  | cons d ds => exact ⟨_, rfl⟩

theorem readExponent?_decimal (negative : Bool) (n : Nat) :
    ∃ e, readExponent? ('e' :: (if negative then '-' else '+') :: Text.decimal n) = some (e, []) := by
  rw [readExponent?_mark (.inl rfl)]
  cases negative <;> exact readUnsigned?_decimal _ n

/-- What is like the text of a number without its sign: it begins with no sign, and it is read to its end, or it does
not begin a number whatever follows it. -/
structure Unsigned (cs : List Char) : Prop where
  begins : ∃ c cs', cs = c :: cs' ∧ (c.isDigit = true ∨ c = '.' ∨ c = 'e')
  whole : (∃ t, readNumberText? cs = some (t, [])) ∨ ∀ rest, readNumberText? (cs ++ rest) = none

/-- Digits, and after them what is read to its end: only the digits can be such that no number begins with them. -/
theorem unsigned_append {w rest : List Char} {t : NumberText} (hd : Digits w)
    (hr : ∃ c cs', rest = c :: cs' ∧ (c = '.' ∨ c = 'e')) (h : readPoint? w rest = some (t, [])) :
    Unsigned (w ++ rest) := by
  obtain ⟨c, cs', rfl, hc⟩ := hr
  have hnext : ∀ more, NoDigitNext (c :: cs' ++ more) := fun more => by
    rcases hc with rfl | rfl <;> exact rfl
  refine ⟨?_, ?_⟩
  · cases w with
    | nil => exact ⟨c, cs', rfl, .inr hc⟩
    | cons d ds => exact ⟨d, _, rfl, .inl (hd d List.mem_cons_self)⟩
  · by_cases hw : IsWhole w
    · have htake : takeDigits (w ++ c :: cs') = (w, c :: cs') := by
        simpa using takeDigits_digits hd (hnext [])
      exact .inl ⟨t, (readNumberText?_of_isWhole htake hw).trans h⟩
    · refine .inr fun more => Option.eq_none_iff_forall_ne_some.2 fun ⟨u, left⟩ hu => hw ?_
      have := isWhole_of_readNumberText? hu
      rwa [List.append_assoc, takeDigits_digits hd (hnext more)] at this

end Json

namespace Magnitude

open Json
open Text (Digits)

theorem unsigned_writeDecimal {digits : List Char} (hd : Digits digits) (exponent : Int) :
    Unsigned (writeDecimal digits exponent) := by
  have zeros (n : Nat) : Digits (List.replicate n '0') := fun c hc => (List.mem_replicate.1 hc).2 ▸ rfl
  have fraction {ds fs : List Char} (hf : Digits fs) (hne : fs ≠ []) :
      readPoint? ds ('.' :: fs) = some (⟨ds, fs, none⟩, []) := by
    have := @readPoint?_fraction ds fs [] hf hne trivial
    rwa [List.append_nil] at this
  unfold writeDecimal
  simp only
  generalize hpoint : (digits.length : Int) + exponent = point
  by_cases h1 : 0 ≤ exponent ∧ point ≤ 16
  · rw [if_pos h1]
    refine unsigned_append (fun c hc => ?_) ⟨'.', _, rfl, .inl rfl⟩ (fraction (fun c hc => ?_) (List.cons_ne_nil _ _))
    · exact (List.mem_append.1 hc).elim (hd c) (zeros _ c)
    · rw [List.mem_singleton.1 hc]
      rfl
  rw [if_neg h1]
  by_cases h2 : 0 < point ∧ point ≤ 16
  · rw [if_pos h2, List.append_assoc]
    refine unsigned_append (fun c hc => hd c (List.mem_of_mem_take hc)) ⟨'.', _, rfl, .inl rfl⟩
      (fraction (fun c hc => hd c (List.mem_of_mem_drop hc)) fun hn => ?_)
    have := List.drop_eq_nil_iff.1 hn
    omega
  rw [if_neg h2]
  by_cases h3 : -5 < point ∧ point ≤ 0
  · rw [if_pos h3]
    refine unsigned_append (w := ['0']) (zeros 1) ⟨'.', _, rfl, .inl rfl⟩ (fraction (fun c hc => ?_) fun hn => ?_)
    · exact (List.mem_append.1 hc).elim (zeros _ c) (hd c)
    · obtain ⟨hz, rfl⟩ := List.append_eq_nil_iff.1 hn
      have hz : (-point).toNat = 0 := (List.replicate_eq_nil_iff '0').1 hz
      rw [List.length_nil] at hpoint
      omega
  · rw [if_neg h3]
    obtain ⟨e, he⟩ := readExponent?_decimal (decide (point - 1 < 0)) (point - 1).natAbs
    simp only [decide_eq_true_eq] at he
    have exponent {ds : List Char} : readPoint? ds ('e' :: (if point - 1 < 0 then '-' else '+') ::
        Text.decimal (point - 1).natAbs) = some (⟨ds, [], e⟩, []) := by
      rw [readPoint?_of_ne (by intro rest hrest; cases hrest), he]
      rfl
    match digits, hd with
    | [], hd => exact unsigned_append (w := []) hd ⟨'e', _, rfl, .inr rfl⟩ exponent
    | [d], hd => exact unsigned_append (w := [d]) hd ⟨'e', _, rfl, .inr rfl⟩ exponent
    | d :: d' :: ds, hd =>
      refine unsigned_append (w := [d]) (t := ⟨[d], d' :: ds, e⟩)
        (fun c hc => hd c (List.mem_singleton.1 hc ▸ List.mem_cons_self)) ⟨'.', _, rfl, .inl rfl⟩ ?_
      have := @readPoint?_fraction [d] (d' :: ds)
        ('e' :: (if point - 1 < 0 then '-' else '+') :: Text.decimal (point - 1).natAbs)
        (fun c hc => hd c (List.mem_cons_of_mem _ hc)) (List.cons_ne_nil _ _) rfl
      rw [he] at this
      simpa using this

theorem unsigned_write (x : Magnitude) : Unsigned x.write := by
  unfold write
  split
  · exact ⟨⟨'0', _, rfl, .inl rfl⟩, .inl ⟨_, rfl⟩⟩
  · exact unsigned_writeDecimal (fun c hc => Text.digits_decimal _ c (List.mem_of_mem_take hc)) _

end Magnitude

namespace Json

/-- Whether a value is a number. -/
def IsNumber : Json → Prop
  | .int _ | .real _ => True
  | _ => False

/-- A number is written as its magnitude is, with a sign or without. -/
theorem IsNumber.written {v : Json} (h : v.IsNumber) : ∃ cs, Unsigned cs ∧ (v.write = cs ∨ v.write = '-' :: cs) := by
  cases v with
  | int n =>
    have hd := readNumberText?_decimal n.natAbs
    refine ⟨Text.decimal n.natAbs, ⟨?_, .inl ⟨_, hd⟩⟩, ?_⟩
    · cases hn : Text.decimal n.natAbs with
      | nil => exact absurd hn (Text.decimal_ne_nil _)
      | cons c cs => exact ⟨c, cs, rfl, .inl (Text.digits_decimal n.natAbs c (hn ▸ List.mem_cons_self))⟩
    · rw [write, writeInt]
      split
      · exact .inr rfl
      · exact .inl rfl
  | real x =>
    refine ⟨x.magnitude.write, x.magnitude.unsigned_write, ?_⟩
    rw [write, Binary64.write]
    cases x.negative with
    | true => exact .inr rfl
    | false => exact .inl rfl
  | _ => cases h

/-- Whether a text begins as the text of a number can. -/
def BeginsNumber (cs : List Char) : Prop :=
  ∃ c cs', cs = c :: cs' ∧ (c.isDigit = true ∨ c = '-' ∨ c = '.' ∨ c = 'e')

theorem BeginsNumber.append {cs : List Char} (h : BeginsNumber cs) (rest : List Char) : BeginsNumber (cs ++ rest) := by
  obtain ⟨c, cs', rfl, hc⟩ := h
  exact ⟨c, cs' ++ rest, rfl, hc⟩

theorem IsNumber.begins {v : Json} (h : v.IsNumber) : BeginsNumber v.write := by
  obtain ⟨cs, u, hv | hv⟩ := h.written
  · obtain ⟨c, cs', rfl, hc⟩ := u.begins
    exact ⟨c, cs', hv, hc.imp_right .inr⟩
  · exact ⟨'-', cs, hv, .inr (.inl rfl)⟩

/-- What is read of the text of a number, if anything. -/
def readNumberOf? (cs : List Char) : Option Json := (readNumber? cs).map Prod.fst

theorem Unsigned.readMagnitude? {cs rest : List Char} (u : Unsigned cs) (hr : EndsNumber rest) (negative : Bool) :
    readMagnitude? negative (cs ++ rest) = ((Json.readMagnitude? negative cs).map Prod.fst).map (·, rest) := by
  unfold Json.readMagnitude?
  rcases u.whole with ⟨t, ht⟩ | hn
  · rw [readNumberText?_append hr ht, ht]
    simp only [Option.bind_some, Option.map_map, List.nil_append]
    rfl
  · have hself := hn []
    rw [List.append_nil] at hself
    rw [hn rest, hself]
    rfl

/-- **The text of a number is read to its end or not at all.** -/
theorem readNumber?_written {v : Json} (h : v.IsNumber) {rest : List Char} (hr : EndsNumber rest) :
    readNumber? (v.write ++ rest) = (readNumberOf? v.write).map (·, rest) := by
  obtain ⟨cs, u, hv | hv⟩ := h.written
  · obtain ⟨c, cs', rfl, hc⟩ := u.begins
    have unsigned : ∀ more left, c :: cs' ++ more ≠ '-' :: left := by
      rintro more left heq
      obtain rfl : c = '-' := List.head_eq_of_cons_eq heq
      revert hc
      decide
    have self := readNumber?_of_ne (unsigned [])
    rw [List.append_nil] at self
    rw [hv, readNumber?_of_ne (unsigned rest), readNumberOf?, self]
    exact u.readMagnitude? hr false
  · rw [hv, List.cons_append, readNumber?_minus, readNumberOf?, readNumber?_minus]
    exact u.readMagnitude? hr true

end Json
end ApprovalGate
