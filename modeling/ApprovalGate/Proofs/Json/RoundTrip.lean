import ApprovalGate.Proofs.Json.Layout
import ApprovalGate.Proofs.Json.Number
/-!
# Reading what was written

The text of a value, in whatever layout, is read as that value if the reader goes as deep, and as nothing if not
(`IsText.read?`).  Doubles are the exception that is left open: their text is the shortest one, and the reader rounds
more than once, so that a double is read as itself only if it says so (`Steady`).  Whatever numbers come back, all else
in a value comes back as it was (`reread`, `IsText.reread`).
-/
namespace ApprovalGate.Json

/-- Whether a value is no double that is read as another one than was written. -/
def Steady : Json → Prop
  | .real x => readNumber? x.write = some (.real x, [])
  | _ => True

/-- Whether all numbers in a value are read as they were written. -/
def Exact (v : Json) : Prop := v.Every Fits ∧ v.Every Steady

theorem exact_arr {items : List Json} : (Json.arr items).Exact ↔ ∀ x ∈ items, x.Exact := by
  unfold Exact
  rw [Every, Every, everyItem_iff, everyItem_iff]
  exact ⟨fun h x hx => ⟨h.1 x hx, h.2 x hx⟩, fun h => ⟨fun x hx => (h x hx).1, fun x hx => (h x hx).2⟩⟩

theorem exact_obj {members : List (String × Json)} : (Json.obj members).Exact ↔ ∀ m ∈ members, m.2.Exact := by
  unfold Exact
  rw [Every, Every, everyMember_iff, everyMember_iff]
  exact ⟨fun h m hm => ⟨h.1 m hm, h.2 m hm⟩, fun h => ⟨fun m hm => (h m hm).1, fun m hm => (h m hm).2⟩⟩

mutual
/-- What is read of the text of a value: the value with what its numbers are read as, if all of them are read. -/
def reread : Json → Option Json
  | .arr items => (rereadItems items).map .arr
  | .obj members => (rereadMembers members).map .obj
  | .int n => readNumberOf? (write (.int n))
  | .real x => readNumberOf? (write (.real x))
  | v => some v

def rereadItems : List Json → Option (List Json)
  | [] => some []
  | x :: xs => (reread x).bind fun y => (rereadItems xs).map fun ys => y :: ys

def rereadMembers : List (String × Json) → Option (List (String × Json))
  | [] => some []
  | (k, v) :: rest => (reread v).bind fun w => (rereadMembers rest).map fun ms => (k, w) :: ms
end

theorem IsNumber.reread {v : Json} (h : v.IsNumber) : v.reread = readNumberOf? v.write := by
  cases v <;> first | rfl | cases h

theorem rereadItems_self {xs : List Json} (h : ∀ x ∈ xs, x.reread = some x) : rereadItems xs = some xs := by
  induction xs with
  | nil => rfl
  | cons x xs ih =>
    rw [rereadItems, h x List.mem_cons_self, ih fun y hy => h y (List.mem_cons_of_mem _ hy)]
    rfl

theorem rereadMembers_self {ms : List (String × Json)} (h : ∀ m ∈ ms, m.2.reread = some m.2) :
    rereadMembers ms = some ms := by
  induction ms with
  | nil => rfl
  | cons m ms ih =>
    obtain ⟨k, v⟩ := m
    have hv : v.reread = some v := h (k, v) List.mem_cons_self
    rw [rereadMembers, hv, ih fun m hm => h m (List.mem_cons_of_mem _ hm)]
    rfl

/-- **An exact value is read as itself.** -/
theorem Exact.reread {v : Json} (h : v.Exact) : v.reread = some v := by
  induction v using inductOn with
  | int n =>
    show (readNumber? (writeInt n)).map Prod.fst = _
    rw [readNumber?_writeInt h.1]
    rfl
  | real x =>
    have hx : readNumber? x.write = some (.real x, []) := h.2
    show (readNumber? x.write).map Prod.fst = _
    rw [hx]
    rfl
  | arr items ih => rw [Json.reread, rereadItems_self fun x hx => ih x hx (exact_arr.1 h x hx), Option.map_some]
  | obj members ih => rw [Json.reread, rereadMembers_self fun m hm => ih m hm (exact_obj.1 h m hm), Option.map_some]
  | _ => rfl

/-! ## Blanks -/

theorem skipBlank_blanks {blanks : List Char} (h : ∀ c ∈ blanks, isJsonBlank c = true) (cs : List Char) :
    skipBlank (blanks ++ cs) = skipBlank cs := List.dropWhile_append_of_pos h

/-- Whether a text begins with what is neither blank nor the end of an array. -/
def Solid (cs : List Char) : Prop := ∃ c cs', cs = c :: cs' ∧ isJsonBlank c = false ∧ c ≠ ']'

theorem Solid.append {cs : List Char} (h : Solid cs) (rest : List Char) : Solid (cs ++ rest) := by
  obtain ⟨c, cs', rfl, hc⟩ := h
  exact ⟨c, cs' ++ rest, rfl, hc⟩

theorem Solid.skipBlank {cs : List Char} (h : Solid cs) : skipBlank cs = cs := by
  obtain ⟨c, cs', rfl, hc, -⟩ := h
  exact List.dropWhile_cons_of_neg (by rw [hc]; decide)

theorem Solid.ne {cs : List Char} (h : Solid cs) (rest : List Char) : cs ≠ ']' :: rest := by
  obtain ⟨c, cs', rfl, -, hc⟩ := h
  intro heq
  cases heq
  exact hc rfl

theorem BeginsNumber.solid {cs : List Char} (h : BeginsNumber cs) : Solid cs := by
  obtain ⟨c, cs', rfl, hc⟩ := h
  refine ⟨c, cs', rfl, ?_⟩
  rcases hc with hc | rfl | rfl | rfl
  · have hn := Text.toNat_of_isDigit hc
    have ne : ∀ d : Char, d.toNat < 48 ∨ 57 < d.toNat → c ≠ d := by
      rintro d hd rfl
      omega
    unfold isJsonBlank
    simp [ne ' ' (by decide), ne '\n' (by decide), ne '\t' (by decide), ne '\r' (by decide), ne ']' (by decide)]
  all_goals decide

/-! ## One step of the reader -/

theorem readValue?_number {cs : List Char} (h : BeginsNumber cs) (fuel depth : Nat) :
    readValue? (fuel + 1) depth cs = readNumber? cs := by
  obtain ⟨c, cs', rfl, hc⟩ := h
  have ne : ∀ d : Char, d.isDigit = false ∧ d ≠ '-' ∧ d ≠ '.' ∧ d ≠ 'e' → c ≠ d := by
    rintro d ⟨hd, hrest⟩ rfl
    rcases hc with hc | hc | hc | hc
    · rw [hd] at hc
      cases hc
    · exact hrest.1 hc
    · exact hrest.2.1 hc
    · exact hrest.2.2 hc
  rw [readValue?]
  all_goals
    intro rest heq
    exact ne _ (by decide) (List.head_eq_of_cons_eq heq)

theorem readValue?_arr (fuel depth : Nat) {cs : List Char} (h : ∀ rest, skipBlank cs ≠ ']' :: rest) :
    readValue? (fuel + 1) depth ('[' :: cs) =
      if depth = 0 then none
      else (readItems? fuel (depth - 1) (skipBlank cs)).map fun (xs, rest) => (.arr xs, rest) := by
  rw [readValue?]
  split
  · rfl
  · split
    · exact absurd ‹_› (h _)
    · rfl

theorem readValue?_obj (fuel depth : Nat) {cs : List Char} (h : ∀ rest, skipBlank cs ≠ '\x7d' :: rest) :
    readValue? (fuel + 1) depth ('\x7b' :: cs) =
      if depth = 0 then none
      else (readMembers? fuel (depth - 1) (skipBlank cs)).map fun (ms, rest) => (.obj ms, rest) := by
  rw [readValue?]
  split
  · rfl
  · split
    · exact absurd ‹_› (h _)
    · rfl

theorem endsNumber_comma {cs : List Char} : EndsNumber (',' :: cs) := ⟨by decide, by decide, by decide, by decide⟩

theorem skipBlank_comma (cs : List Char) : skipBlank (',' :: cs) = ',' :: cs := rfl

/-- What nests one level deeper. -/
theorem nested {α β : Type} (d depth : Nat) (x? : Option α) (f : α → β) :
    (if depth = 0 then none else (if d ≤ depth - 1 then x? else none).map f) =
      if d + 1 ≤ depth then x?.map f else none := by
  by_cases hz : depth = 0
  · rw [if_pos hz, if_neg (by omega)]
  · rw [if_neg hz]
    by_cases hd : d ≤ depth - 1
    · rw [if_pos hd, if_pos (by omega)]
    · rw [if_neg hd, if_neg (by omega), Option.map_none]

/-! ## The text of a value -/

namespace Layout

variable (l : Layout)

theorem solid_text (v : Json) (level : Nat) : Solid (l.text level v) := by
  have solid : ∀ {c : Char} {cs : List Char}, isJsonBlank c = false ∧ c ≠ ']' → Solid (c :: cs) :=
    fun hc => ⟨_, _, rfl, hc⟩
  cases v with
  | null => exact solid (by decide)
  | bool b => cases b <;> exact solid (by decide)
  | int n => exact (IsNumber.begins (v := .int n) trivial).solid
  | real x => exact (IsNumber.begins (v := .real x) trivial).solid
  | str s => exact solid (by decide)
  | arr items => cases items <;> exact solid (by decide)
  | obj members => cases members <;> exact solid (by decide)

theorem skipBlank_gap (level : Nat) (cs : List Char) : skipBlank (l.gap level ++ cs) = skipBlank cs :=
  skipBlank_blanks (l.blank_gap level) cs

theorem skipBlank_afterColon (cs : List Char) : skipBlank (l.afterColon ++ cs) = skipBlank cs :=
  skipBlank_blanks l.blank_afterColon cs

/-- What ends a level ends a number before it. -/
theorem endsNumber_gap (level : Nat) {c : Char} (hc : c = ']' ∨ c = '\x7d') (cs : List Char) :
    EndsNumber (l.gap level ++ c :: cs) := by
  cases hg : l.gap level with
  | nil => rcases hc with rfl | rfl <;> exact ⟨by decide, by decide, by decide, by decide⟩
  | cons b blanks =>
    have hb := l.blank_gap level b (hg ▸ List.mem_cons_self)
    unfold isJsonBlank at hb
    simp only [Bool.or_eq_true, beq_iff_eq] at hb
    rcases hb with ((rfl | rfl) | rfl) | rfl <;> exact ⟨by decide, by decide, by decide, by decide⟩

/-! ## Values -/

/-- Whether the text of a value at a level is read to its end, where it is not too deep. -/
def ReadsBack (v : Json) (level : Nat) : Prop := ∀ {fuel depth : Nat} {rest : List Char}, EndsNumber rest →
  2 * (l.text level v).length ≤ fuel →
    readValue? fuel depth (l.text level v ++ rest) = if v.depth ≤ depth then v.reread.map (·, rest) else none

theorem readItems?_gap (fuel depth level : Nat) (cs : List Char) :
    readItems? fuel depth (l.gap level ++ cs) = readItems? fuel depth cs := by
  cases fuel with
  | zero => rfl
  | succ fuel => rw [readItems?, readItems?, skipBlank_gap]

theorem readMembers?_gap (fuel depth level : Nat) (cs : List Char) :
    readMembers? fuel depth (l.gap level ++ cs) = readMembers? fuel depth cs := by
  cases fuel with
  | zero => rfl
  | succ fuel => rw [readMembers?, readMembers?, skipBlank_gap]

/-- A member up to its value. -/
theorem readMember?_step (fuel depth : Nat) (k : String) (cs : List Char) :
    readMembers? (fuel + 1) depth (writeString k ++ ':' :: (l.afterColon ++ cs)) =
      match readValue? fuel depth (skipBlank cs) with
      | none => none
      | some (v, rest) => match skipBlank rest with
        | '\x7d' :: rest => some ([(k, v)], rest)
        | ',' :: rest => (readMembers? fuel depth rest).map fun (ms, rest) => ((k, v) :: ms, rest)
        | _ => none := by
  have hk : writeString k ++ ':' :: (l.afterColon ++ cs) =
      '"' :: (k.toList.flatMap escapeChar ++ '"' :: ':' :: (l.afterColon ++ cs)) := by
    simp only [writeString, List.cons_append, List.append_assoc, List.nil_append]
  have hq : ∀ cs, skipBlank ('"' :: cs) = '"' :: cs := fun _ => rfl
  rw [← l.skipBlank_afterColon cs, readMembers?, hk, hq]
  simp only [readString?_escape]
  rfl

variable {l}

theorem readItems?_items {level depth : Nat} {rest : List Char} : ∀ (xs : List Json) {x : Json} {fuel : Nat},
    (∀ y ∈ x :: xs, l.ReadsBack y (level + 1)) →
    2 * ((l.text (level + 1) x).length + (l.items level xs).length) ≤ fuel →
    readItems? fuel depth (l.text (level + 1) x ++ (l.items level xs ++ rest)) =
      if depthItems (x :: xs) ≤ depth then (rereadItems (x :: xs)).map (·, rest) else none := by
  intro xs
  induction xs with
  | nil =>
    intro x fuel h hf
    have hr : l.ReadsBack x (level + 1) := h x List.mem_cons_self
    rw [items, List.length_append, List.length_singleton] at hf
    obtain ⟨fuel, rfl⟩ : ∃ f, fuel = f + 1 := ⟨fuel - 1, by omega⟩
    have hend : l.items level [] ++ rest = l.gap level ++ ']' :: rest := by
      rw [items, List.append_assoc]
      rfl
    have hskip : skipBlank (l.gap level ++ ']' :: rest) = ']' :: rest := by
      rw [skipBlank_gap]
      rfl
    rw [readItems?, ((l.solid_text x _).append _).skipBlank, hend, hr (l.endsNumber_gap _ (.inl rfl) _) (by omega),
      depthItems, depthItems, Nat.max_zero]
    by_cases hd : x.depth ≤ depth
    · rw [if_pos hd, if_pos hd, rereadItems]
      cases x.reread with
      | none => rfl
      | some y =>
        simp only [Option.map_some, hskip]
        rfl
    · rw [if_neg hd, if_neg hd]
  | cons y ys ih =>
    intro x fuel h hf
    have hr : l.ReadsBack x (level + 1) := h x List.mem_cons_self
    simp only [items, List.length_cons, List.length_append] at hf
    obtain ⟨fuel, rfl⟩ : ∃ f, fuel = f + 1 := ⟨fuel - 1, by omega⟩
    have ih := @ih y fuel (fun z hz => h z (List.mem_cons_of_mem _ hz)) (by omega)
    have hcomma : l.items level (y :: ys) ++ rest = ',' ::
        (l.gap (level + 1) ++ (l.text (level + 1) y ++ (l.items level ys ++ rest))) := by
      simp only [items, List.cons_append, List.append_assoc]
    rw [readItems?, ((l.solid_text x _).append _).skipBlank, hcomma, hr endsNumber_comma (by omega), depthItems,
      rereadItems]
    by_cases hd : x.depth ≤ depth
    · rw [if_pos hd]
      cases x.reread with
      | none => simp
      | some x' =>
        simp only [Option.map_some, Option.bind_some, skipBlank_comma, readItems?_gap, ih]
        by_cases hds : depthItems (y :: ys) ≤ depth
        · rw [if_pos hds, if_pos (Nat.max_le.2 ⟨hd, hds⟩), Option.map_map, Option.map_map]
          rfl
        · rw [if_neg hds, if_neg fun h => hds (Nat.max_le.1 h).2, Option.map_none]
    · rw [if_neg hd, if_neg fun h => hd (Nat.max_le.1 h).1]

theorem readMembers?_members {level depth : Nat} {rest : List Char} : ∀ (ms : List (String × Json))
    {k : String} {v : Json} {fuel : Nat}, (∀ m ∈ (k, v) :: ms, l.ReadsBack m.2 (level + 1)) →
    2 * ((l.text (level + 1) v).length + (l.members level ms).length) ≤ fuel →
    readMembers? fuel depth (writeString k ++ ':' :: (l.afterColon ++ (l.text (level + 1) v ++
      (l.members level ms ++ rest)))) =
      if depthMembers ((k, v) :: ms) ≤ depth then (rereadMembers ((k, v) :: ms)).map (·, rest) else none := by
  intro ms
  induction ms with
  | nil =>
    intro k v fuel h hf
    have hr : l.ReadsBack v (level + 1) := h (k, v) List.mem_cons_self
    rw [members, List.length_append, List.length_singleton] at hf
    obtain ⟨fuel, rfl⟩ : ∃ f, fuel = f + 1 := ⟨fuel - 1, by omega⟩
    have hend : l.members level [] ++ rest = l.gap level ++ '\x7d' :: rest := by
      rw [members, List.append_assoc]
      rfl
    have hskip : skipBlank (l.gap level ++ '\x7d' :: rest) = '\x7d' :: rest := by
      rw [skipBlank_gap]
      rfl
    rw [readMember?_step, ((l.solid_text v _).append _).skipBlank, hend,
      hr (l.endsNumber_gap _ (.inr rfl) _) (by omega), depthMembers, depthMembers, Nat.max_zero]
    by_cases hd : v.depth ≤ depth
    · rw [if_pos hd, if_pos hd, rereadMembers]
      cases v.reread with
      | none => rfl
      | some w =>
        simp only [Option.map_some, hskip]
        rfl
    · rw [if_neg hd, if_neg hd]
  | cons m ms ih =>
    intro k v fuel h hf
    obtain ⟨k', v'⟩ := m
    have hr : l.ReadsBack v (level + 1) := h (k, v) List.mem_cons_self
    simp only [members, List.length_cons, List.length_append] at hf
    obtain ⟨fuel, rfl⟩ : ∃ f, fuel = f + 1 := ⟨fuel - 1, by omega⟩
    have ih := @ih k' v' fuel (fun m hm => h m (List.mem_cons_of_mem _ hm)) (by omega)
    have hcomma : l.members level ((k', v') :: ms) ++ rest = ',' :: (l.gap (level + 1) ++
        (writeString k' ++ ':' :: (l.afterColon ++ (l.text (level + 1) v' ++ (l.members level ms ++ rest))))) := by
      simp only [members, List.cons_append, List.append_assoc]
    rw [readMember?_step, hcomma, ((l.solid_text v _).append _).skipBlank, hr endsNumber_comma (by omega),
      depthMembers, rereadMembers]
    by_cases hd : v.depth ≤ depth
    · rw [if_pos hd]
      cases v.reread with
      | none => simp
      | some w =>
        simp only [Option.map_some, Option.bind_some, skipBlank_comma, readMembers?_gap, ih]
        by_cases hds : depthMembers ((k', v') :: ms) ≤ depth
        · rw [if_pos hds, if_pos (Nat.max_le.2 ⟨hd, hds⟩), Option.map_map, Option.map_map]
          rfl
        · rw [if_neg hds, if_neg fun h => hds (Nat.max_le.1 h).2, Option.map_none]
    · rw [if_neg hd, if_neg fun h => hd (Nat.max_le.1 h).1]

theorem fuel_pos {v : Json} {level fuel : Nat} (h : 2 * (l.text level v).length ≤ fuel) : ∃ f, fuel = f + 1 := by
  obtain ⟨c, cs, hcs, -⟩ := l.solid_text v level
  rw [hcs, List.length_cons] at h
  exact ⟨fuel - 1, by omega⟩

theorem readsBack_of_number {v : Json} (h : v.IsNumber) (level : Nat) : l.ReadsBack v level := by
  intro fuel depth rest hr hf
  obtain ⟨fuel, rfl⟩ := fuel_pos hf
  have htext : l.text level v = v.write := by
    cases v <;> first | rfl | cases h
  have hdepth : v.depth = 0 := by
    cases v <;> first | rfl | cases h
  rw [htext, readValue?_number (h.begins.append rest), readNumber?_written h hr, hdepth, if_pos (Nat.zero_le _),
    h.reread]

/-- **The text of a value is read to its end**, in every layout, where it is not too deep. -/
theorem readsBack (v : Json) (level : Nat) : l.ReadsBack v level := by
  induction v using inductOn generalizing level with
  | null =>
    intro fuel depth rest hr hf
    obtain ⟨fuel, rfl⟩ := fuel_pos hf
    rfl
  | bool b =>
    intro fuel depth rest hr hf
    obtain ⟨fuel, rfl⟩ := fuel_pos hf
    cases b <;> rfl
  | int n => exact readsBack_of_number (v := .int n) trivial level
  | real x => exact readsBack_of_number (v := .real x) trivial level
  | str s =>
    intro fuel depth rest hr hf
    obtain ⟨fuel, rfl⟩ := fuel_pos hf
    have hs : l.text level (.str s) ++ rest = '"' :: (s.toList.flatMap escapeChar ++ '"' :: rest) := by
      simp only [text, write, writeString, List.cons_append, List.append_assoc, List.nil_append]
    rw [hs, readValue?, readString?_escape]
    rfl
  | arr items ih =>
    intro fuel depth rest hr hf
    obtain ⟨fuel, rfl⟩ := fuel_pos hf
    cases items with
    | nil => exact nested 0 depth (some rest) fun rest => (Json.arr [], rest)
    | cons x xs =>
      have hs := (l.solid_text x (level + 1)).append (l.items level xs ++ rest)
      have htext : l.text level (.arr (x :: xs)) ++ rest =
          '[' :: (l.gap (level + 1) ++ (l.text (level + 1) x ++ (l.items level xs ++ rest))) := by
        simp only [text, List.cons_append, List.append_assoc]
      simp only [text, List.length_cons, List.length_append] at hf
      rw [htext, readValue?_arr _ _ (by rw [skipBlank_gap, hs.skipBlank]; exact hs.ne), skipBlank_gap, hs.skipBlank,
        readItems?_items xs (fun y hy => ih y hy (level + 1)) (by omega), nested, reread, Option.map_map,
        Option.map_map]
      rfl
  | obj members ih =>
    intro fuel depth rest hr hf
    obtain ⟨fuel, rfl⟩ := fuel_pos hf
    cases members with
    | nil => exact nested 0 depth (some rest) fun rest => (Json.obj [], rest)
    | cons m ms =>
      obtain ⟨k, v⟩ := m
      have hskip : ∀ cs, skipBlank (writeString k ++ cs) = writeString k ++ cs := fun _ => rfl
      have htext : l.text level (.obj ((k, v) :: ms)) ++ rest =
          '\x7b' :: (l.gap (level + 1) ++ (writeString k ++ ':' :: (l.afterColon ++
            (l.text (level + 1) v ++ (l.members level ms ++ rest))))) := by
        simp only [text, List.cons_append, List.append_assoc]
      simp only [text, List.length_cons, List.length_append] at hf
      rw [htext, readValue?_obj, skipBlank_gap, hskip, readMembers?_members ms (fun m hm => ih m hm (level + 1))
        (by omega), nested, reread, Option.map_map, Option.map_map]
      · rfl
      · intro cs hcs
        rw [skipBlank_gap, hskip] at hcs
        cases hcs

end Layout

/-! ## Whole texts -/

/-- **The text of a value, in whatever layout, is read as the value with what its numbers are read as**, unless it nests
more than 127 deep. -/
theorem IsText.reread {v : Json} {s : String} (hs : v.IsText s) :
    read? s = if v.depth ≤ maxDepth then v.reread else none := by
  obtain ⟨l, rfl⟩ := hs
  have hr : readValue? (2 * (l.text 0 v).length + 2) maxDepth (l.text 0 v ++ []) = _ :=
    Layout.readsBack v 0 trivial (Nat.le_add_right _ _)
  rw [List.append_nil] at hr
  unfold Json.read?
  simp only [String.toList_ofList, (l.solid_text v 0).skipBlank, hr]
  by_cases hd : v.depth ≤ maxDepth
  · rw [if_pos hd, if_pos hd]
    cases v.reread <;> rfl
  · rw [if_neg hd, if_neg hd]

/-- **The text of an exact value is read as the value**, unless it nests more than 127 deep. -/
theorem IsText.read? {v : Json} {s : String} (hs : v.IsText s) (h : v.Exact) :
    read? s = if v.depth ≤ maxDepth then some v else none := by rw [hs.reread, h.reread]

theorem solid_writePretty (v : Json) (level : Nat) : Solid (v.writePretty level) := by
  rw [← Layout.prints_writePretty.text_eq]
  exact Layout.lines.solid_text v level

/-- **The pretty text of an exact value is read as the value**, unless it nests more than 127 deep. -/
theorem read?_pretty {v : Json} (h : v.Exact) : read? v.pretty = if v.depth ≤ maxDepth then some v else none :=
  v.isText_pretty.read? h

end ApprovalGate.Json
