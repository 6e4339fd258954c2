import ApprovalGate.Callback.Form
import ApprovalGate.Proofs.Text
/-!
# Forms are read as they were written

A form can be written in many ways: a blank as a plus or escaped, the digits of an escape large or small, and much
escaped or little.  However it is written (`Form.Writes`), it is read as the fields that it was written for
(`Form.read_of_writes`).
-/
namespace ApprovalGate

namespace Text

/-! ## Cutting apart -/

variable {sep : Char} {cs : List Char}

theorem splitOn_of_not_mem (h : sep ∉ cs) : splitOn sep cs = [cs] := by
  induction cs with
  | nil => rfl
  | cons c cs ih =>
    rw [List.mem_cons, not_or] at h
    rw [splitOn, if_neg fun hc => h.1 hc.symm, ih h.2]

theorem splitOn_append (h : sep ∉ cs) (rest : List Char) :
    splitOn sep (cs ++ sep :: rest) = cs :: splitOn sep rest := by
  induction cs with
  | nil => rw [List.nil_append, splitOn, if_pos rfl]
  | cons c cs ih =>
    rw [List.mem_cons, not_or] at h
    rw [List.cons_append, splitOn, if_neg fun hc => h.1 hc.symm, ih h.2]

theorem cut?_append (h : sep ∉ cs) (rest : List Char) : cut? sep (cs ++ sep :: rest) = some (cs, rest) := by
  have before : ∀ c ∈ cs, (c != sep) = true := fun c hc => bne_iff_ne.2 fun heq => h (heq ▸ hc)
  have dropped : (cs ++ sep :: rest).dropWhile (· != sep) = sep :: rest := by
    rw [List.dropWhile_append_of_pos before]
    exact List.dropWhile_cons_of_neg (by simp)
  have taken : (cs ++ sep :: rest).takeWhile (· != sep) = cs := by
    rw [List.takeWhile_append_of_pos before]
    simp
  rw [cut?, dropped, taken]

/-- Nothing is trimmed where nothing is blank. -/
theorem trim_of_solid (h : ∀ c ∈ cs, isBlank c = false) : (trim (String.ofList cs)).toList = cs := by
  have keep : ∀ {ds : List Char}, (∀ c ∈ ds, isBlank c = false) → ds.dropWhile isBlank = ds := by
    intro ds hd
    cases ds with
    | nil => rfl
    | cons d ds => exact List.dropWhile_cons_of_neg (by rw [hd d List.mem_cons_self]; decide)
  rw [trim, String.toList_ofList, String.toList_ofList, keep h, dropEndWhile,
    keep fun c hc => h c (List.mem_reverse.1 hc), List.reverse_reverse]

/-! ## Escapes -/

theorem ne_of_hexValue? {c d : Char} {x : Fin 16} (h : hexValue? c = some x) (hd : hexValue? d = none) : c ≠ d := by
  rintro rfl
  rw [hd] at h
  cases h

theorem isBlank_of_hexValue? {c : Char} {x : Fin 16} (h : hexValue? c = some x) : isBlank c = false := by
  refine isBlank_of_visible ?_
  unfold hexValue? at h
  simp only at h
  split at h
  · omega
  · split at h
    · omega
    · split at h
      · omega
      · cases h

namespace Percent

/-- Whether a text escapes some bytes, one after the other, with digits that are large or small. -/
inductive Escapes : List UInt8 → List Char → Prop where
  | nil : Escapes [] []
  | cons {b : UInt8} {bs : List UInt8} {high low : Char} {es : List Char} :
      hexValue? high = some (nibble (b.toNat / 16)) → hexValue? low = some (nibble b.toNat) → Escapes bs es →
      Escapes (b :: bs) ('%' :: high :: low :: es)

theorem escapes_escapeByte : ∀ bs : List UInt8, Escapes bs (bs.flatMap escapeByte)
  | [] => .nil
  | _ :: bs => .cons (hexValue?_hexDigitUpper _) (hexValue?_hexDigitUpper _) (escapes_escapeByte bs)

theorem ofNat_nibbles (b : UInt8) : UInt8.ofNat (16 * (nibble (b.toNat / 16)).val + (nibble b.toNat).val) = b := by
  have hb := b.toNat_lt
  have hn : 16 * (nibble (b.toNat / 16)).val + (nibble b.toNat).val = b.toNat := by
    simp only [nibble, Fin.val_ofNat]
    omega
  rw [hn, UInt8.ofNat_toNat]

theorem decodeBytes_cons {c : Char} (h : c ≠ '%') (rest : List Char) :
    decodeBytes (c :: rest) = String.utf8EncodeChar c ++ decodeBytes rest := by
  rw [decodeBytes]
  intro _ _ _ heq
  exact absurd heq h

/-- **Escapes stand for the bytes that they escape.** -/
theorem Escapes.decodeBytes {bs : List UInt8} {es : List Char} (h : Escapes bs es) (rest : List Char) :
    decodeBytes (es ++ rest) = bs ++ Percent.decodeBytes rest := by
  induction h with
  | nil => rfl
  | @cons b bs high low es hhigh hlow _ ih =>
    simp only [List.cons_append, Percent.decodeBytes, hhigh, hlow, ofNat_nibbles, ih]

end Percent
end Text

namespace Form

open Text (isBlank hexValue?)
open Text.Percent (Escapes decodeBytes)

/-! ## Encoded texts -/

/-- Whether a character may stand for itself: it is not blank, it is not one of those that say how a form is read, and
no object begins with it. -/
def StandsForItself (c : Char) : Prop :=
  isBlank c = false ∧ c ≠ '%' ∧ c ≠ '+' ∧ c ≠ '&' ∧ c ≠ '=' ∧ c ≠ '\x7b'

/-- The ways to write a text in a form. -/
inductive Encodes : List Char → List Char → Prop where
  | nil : Encodes [] []
  | plain {c : Char} {cs es : List Char} : StandsForItself c → Encodes cs es → Encodes (c :: cs) (c :: es)
  | plus {cs es : List Char} : Encodes cs es → Encodes (' ' :: cs) ('+' :: es)
  | escaped {c : Char} {cs ds es : List Char} : Escapes (String.utf8EncodeChar c) ds → Encodes cs es →
      Encodes (c :: cs) (ds ++ es)

/-- What the characters of an encoded text are not. -/
def Inner (c : Char) : Prop := isBlank c = false ∧ c ≠ '&' ∧ c ≠ '=' ∧ c ≠ '\x7b'

theorem inner_of_hexValue? {c : Char} {x : Fin 16} (h : hexValue? c = some x) : Inner c :=
  ⟨Text.isBlank_of_hexValue? h, Text.ne_of_hexValue? h rfl, Text.ne_of_hexValue? h rfl, Text.ne_of_hexValue? h rfl⟩

theorem inner_of_escapes {bs : List UInt8} {es : List Char} (h : Escapes bs es) : ∀ e ∈ es, Inner e ∧ e ≠ '+' := by
  induction h with
  | nil =>
    intro e he
    cases he
  | cons hhigh hlow _ ih =>
    simp only [List.forall_mem_cons]
    exact ⟨⟨⟨rfl, by decide⟩, by decide⟩, ⟨inner_of_hexValue? hhigh, Text.ne_of_hexValue? hhigh rfl⟩,
      ⟨inner_of_hexValue? hlow, Text.ne_of_hexValue? hlow rfl⟩, ih⟩

variable {cs es : List Char}

theorem Encodes.inner (h : Encodes cs es) : ∀ e ∈ es, Inner e := by
  induction h with
  | nil =>
    intro e he
    cases he
  | plain hc _ ih =>
    obtain ⟨hb, -, -, ha, he, ho⟩ := hc
    exact List.forall_mem_cons.2 ⟨⟨hb, ha, he, ho⟩, ih⟩
  | plus _ ih => exact List.forall_mem_cons.2 ⟨⟨rfl, by decide⟩, ih⟩
  | escaped hd _ ih => exact List.forall_mem_append.2 ⟨fun e he => (inner_of_escapes hd e he).1, ih⟩

/-- **A text in a form is read as it was written.** -/
theorem Encodes.decode? (h : Encodes cs es) : decode? es = some (String.ofList cs) := by
  have bytes : decodeBytes (es.map fun c => if c = '+' then ' ' else c) = cs.flatMap String.utf8EncodeChar := by
    induction h with
    | nil => rfl
    | @plain c cs es hc _ ih =>
      obtain ⟨-, hp, hplus, -⟩ := hc
      rw [List.map_cons, if_neg hplus, Text.Percent.decodeBytes_cons hp, ih, List.flatMap_cons]
    | plus _ ih => rw [List.map_cons, if_pos rfl, Text.Percent.decodeBytes_cons (by decide), ih, List.flatMap_cons]
    | @escaped c cs ds es hd _ ih =>
      -- a plus sign stands for a blank, but there is none in an escape
      have same : (ds.map fun c => if c = '+' then ' ' else c) = ds := by
        refine List.map_congr_left (g := id) (fun e he => ?_) |>.trans (List.map_id ds)
        exact if_neg (inner_of_escapes hd e he).2
      rw [List.map_append, same, hd.decodeBytes, ih, List.flatMap_cons]
  rw [Form.decode?, Text.Percent.decodeChars?, bytes]
  exact Text.fromUTF8?_toUTF8 (String.ofList cs)

theorem Encodes.append {cs' es' : List Char} (h : Encodes cs es) (h' : Encodes cs' es') :
    Encodes (cs ++ cs') (es ++ es') := by
  induction h with
  | nil => exact h'
  | plain hc _ ih => exact ih.plain hc
  | plus _ ih => exact ih.plus
  | escaped hd _ ih =>
    rw [List.append_assoc]
    exact ih.escaped hd

theorem standsForItself_of_isUnreserved {c : Char} (h : Text.Percent.isUnreserved c = true) : StandsForItself c := by
  have ne : ∀ d, Text.Percent.isUnreserved d = false → c ≠ d := by
    rintro d hd rfl
    rw [hd] at h
    cases h
  have visible : 33 ≤ c.toNat ∧ c.toNat ≤ 126 := by
    have hv : c.toNat = c.val.toNat := rfl
    simp only [Text.Percent.isUnreserved, Bool.or_eq_true, beq_iff_eq] at h
    rcases h with (((h | rfl) | rfl) | rfl) | rfl
    · delta Char.isAlphanum Char.isAlpha Char.isUpper Char.isLower Char.isDigit at h
      simp only [Bool.or_eq_true, Bool.and_eq_true, decide_eq_true_eq, ge_iff_le, UInt32.le_iff_toNat_le,
        Char.reduceVal, UInt32.reduceToNat] at h
      omega
    all_goals decide
  refine ⟨Text.isBlank_of_visible visible, ne _ ?_, ne _ ?_, ne _ ?_, ne _ ?_, ne _ ?_⟩
  all_goals decide

/-- Percent-encoding is one of the ways. -/
theorem encodes_encodeChars : ∀ cs : List Char, Encodes cs (Text.Percent.encodeChars cs)
  | [] => .nil
  | c :: cs => by
    rw [Text.Percent.encodeChars, List.flatMap_cons]
    by_cases hc : Text.Percent.isUnreserved c = true
    · rw [if_pos hc]
      exact (encodes_encodeChars cs).plain (standsForItself_of_isUnreserved hc)
    · rw [if_neg hc]
      exact (encodes_encodeChars cs).escaped (Text.Percent.escapes_escapeByte _)

/-! ## Forms -/

/-- The ways to write fields as a form, one after the other. -/
inductive Writes : List (String × String) → List Char → Prop where
  | one {k v : String} {ks vs : List Char} : Encodes k.toList ks → Encodes v.toList vs →
      Writes [(k, v)] (ks ++ '=' :: vs)
  | more {k v : String} {ks vs : List Char} {fields : List (String × String)} {cs : List Char} :
      Encodes k.toList ks → Encodes v.toList vs → Writes fields cs →
      Writes ((k, v) :: fields) (ks ++ '=' :: (vs ++ '&' :: cs))

variable {fields : List (String × String)}

theorem Writes.ne_nil (h : Writes fields cs) : fields ≠ [] := by
  cases h <;> exact List.cons_ne_nil _ _

theorem inner_ne_mem (h : ∀ e ∈ es, Inner e) {c : Char} (hc : c = '&' ∨ c = '=') : c ∉ es := by
  intro hm
  obtain ⟨-, ha, he, -⟩ := h c hm
  exact hc.elim ha he

/-- A form begins with something, and has neither a blank nor the beginning of an object in it. -/
theorem Writes.solid (h : Writes fields cs) : cs ≠ [] ∧ ∀ c ∈ cs, isBlank c = false ∧ c ≠ '\x7b' := by
  have inner {es : List Char} (h : ∀ e ∈ es, Inner e) : ∀ e ∈ es, isBlank e = false ∧ e ≠ '\x7b' :=
    fun e he => ⟨(h e he).1, (h e he).2.2.2⟩
  have sign {c : Char} (hc : c = '&' ∨ c = '=') : isBlank c = false ∧ c ≠ '\x7b' := by
    rcases hc with rfl | rfl <;> exact ⟨rfl, by decide⟩
  induction h with
  | one hk hv =>
    refine ⟨List.append_ne_nil_of_right_ne_nil _ (List.cons_ne_nil _ _), List.forall_mem_append.2 ⟨inner hk.inner, ?_⟩⟩
    exact List.forall_mem_cons.2 ⟨sign (.inr rfl), inner hv.inner⟩
  | more hk hv _ ih =>
    refine ⟨List.append_ne_nil_of_right_ne_nil _ (List.cons_ne_nil _ _), List.forall_mem_append.2 ⟨inner hk.inner, ?_⟩⟩
    refine List.forall_mem_cons.2 ⟨sign (.inr rfl), List.forall_mem_append.2 ⟨inner hv.inner, ?_⟩⟩
    exact List.forall_mem_cons.2 ⟨sign (.inl rfl), ih.2⟩

/-- No object begins a form. -/
theorem Writes.begins (h : Writes fields cs) : ∃ c rest, cs = c :: rest ∧ isBlank c = false ∧ c ≠ '\x7b' := by
  obtain ⟨hne, hsolid⟩ := h.solid
  obtain ⟨c, rest, rfl⟩ := List.exists_cons_of_ne_nil hne
  exact ⟨c, rest, rfl, hsolid c List.mem_cons_self⟩

theorem readPair_encoded {k v : String} {ks vs : List Char} (hk : Encodes k.toList ks) (hv : Encodes v.toList vs) :
    readPair (ks ++ '=' :: vs) = .ok (k, v) := by
  rw [readPair, Text.cut?_append (inner_ne_mem hk.inner (.inr rfl))]
  simp only [hk.decode?, hv.decode?, String.ofList_toList]

/-- The pairs of a form, read one by one. -/
theorem Writes.mapM_readPair (h : Writes fields cs) :
    ((Text.splitOn '&' cs).filter fun p => !p.isEmpty).mapM readPair = .ok fields := by
  have pair {k v : String} {ks vs : List Char} (hk : Encodes k.toList ks) (hv : Encodes v.toList vs) :
      '&' ∉ ks ++ '=' :: vs ∧ (!(ks ++ '=' :: vs).isEmpty) = true := by
    refine ⟨fun hm => ?_, by simp⟩
    rcases List.mem_append.1 hm with hm | hm
    · exact inner_ne_mem hk.inner (.inl rfl) hm
    · exact inner_ne_mem hv.inner (.inl rfl) ((List.mem_cons.1 hm).resolve_left (by decide))
  induction h with
  | @one k v ks vs hk hv =>
    obtain ⟨hamp, hne⟩ := pair hk hv
    rw [Text.splitOn_of_not_mem hamp, List.filter_cons, if_pos hne, List.filter_nil, List.mapM_cons,
      readPair_encoded hk hv]
    rfl
  | @more k v ks vs fields cs hk hv _ ih =>
    obtain ⟨hamp, hne⟩ := pair hk hv
    have cut : ks ++ '=' :: (vs ++ '&' :: cs) = (ks ++ '=' :: vs) ++ '&' :: cs := by
      rw [List.append_assoc, List.cons_append]
    rw [cut, Text.splitOn_append hamp, List.filter_cons, if_pos hne, List.mapM_cons, readPair_encoded hk hv, ih]
    rfl

/-- **A form is read as the fields that it was written for**, in ascending order of their keys. -/
theorem read_of_writes (h : Writes fields cs) :
    read (String.ofList cs) = .ok (Ordered.ofList (fields.map fun (k, v) => (k, .str v))) := by
  have pairs := h.mapM_readPair
  unfold read
  rw [Text.trim_of_solid fun c hc => (h.solid.2 c hc).1]
  simp only [pairs]
  show (if fields.isEmpty then Except.error Fault.noFields else _) = _
  rw [if_neg (by simpa using h.ne_nil)]
  rfl

end Form
end ApprovalGate
