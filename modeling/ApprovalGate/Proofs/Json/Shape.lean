import ApprovalGate.Proofs.Json.Scalar
import ApprovalGate.Proofs.Ordered
/-!
# The shape of JSON values

How deep a value nests and what holds of every number and text in it, and that neither suffers when the value is put
into normal form (`depth_normal`, `Every.normal`).  What a reader makes is as deep as it may be and has integers of 64
bits only (`readValue?_bounds`).
-/
namespace ApprovalGate.Json

/-- Induction over a value, with what is known of the values in an array or an object. -/
theorem inductOn {P : Json → Prop} (null : P .null) (bool : ∀ b, P (.bool b)) (int : ∀ n, P (.int n))
    (real : ∀ x, P (.real x)) (str : ∀ s, P (.str s)) (arr : ∀ items : List Json, (∀ x ∈ items, P x) → P (.arr items))
    (obj : ∀ members : List (String × Json), (∀ m ∈ members, P m.2) → P (.obj members)) (v : Json) : P v :=
  @Json.rec P (fun xs => ∀ x ∈ xs, P x) (fun ms => ∀ m ∈ ms, P m.2) (fun m => P m.2) null bool int real str arr obj
    (fun _ h => absurd h List.not_mem_nil) (fun _ _ hx hxs => List.forall_mem_cons.2 ⟨hx, hxs⟩)
    (fun _ h => absurd h List.not_mem_nil) (fun _ _ hm hms => List.forall_mem_cons.2 ⟨hm, hms⟩) (fun _ _ h => h) v

mutual
/-- How deep arrays and objects nest. -/
def depth : Json → Nat
  | .arr items => depthItems items + 1
  | .obj members => depthMembers members + 1
  | _ => 0

def depthItems : List Json → Nat
  | [] => 0
  | x :: xs => max (depth x) (depthItems xs)

def depthMembers : List (String × Json) → Nat
  | [] => 0
  | (_, v) :: rest => max (depth v) (depthMembers rest)
end

mutual
/-- Whether a property holds of all that is in a value and neither an array nor an object. -/
def Every (P : Json → Prop) : Json → Prop
  | .arr items => EveryItem P items
  | .obj members => EveryMember P members
  | v => P v

def EveryItem (P : Json → Prop) : List Json → Prop
  | [] => True
  | x :: xs => Every P x ∧ EveryItem P xs

def EveryMember (P : Json → Prop) : List (String × Json) → Prop
  | [] => True
  | (_, v) :: rest => Every P v ∧ EveryMember P rest
end

theorem depthItems_le {d : Nat} {xs : List Json} : depthItems xs ≤ d ↔ ∀ x ∈ xs, x.depth ≤ d := by
  induction xs with
  | nil => simp [depthItems]
  | cons x xs ih => rw [depthItems, Nat.max_le, ih, List.forall_mem_cons]

theorem depthMembers_le {d : Nat} {ms : List (String × Json)} : depthMembers ms ≤ d ↔ ∀ m ∈ ms, m.2.depth ≤ d := by
  induction ms with
  | nil => simp [depthMembers]
  | cons m ms ih => rw [depthMembers, Nat.max_le, ih, List.forall_mem_cons]

theorem everyItem_iff {P : Json → Prop} {xs : List Json} : EveryItem P xs ↔ ∀ x ∈ xs, Every P x := by
  induction xs with
  | nil => simp [EveryItem]
  | cons x xs ih => rw [EveryItem, ih, List.forall_mem_cons]

theorem everyMember_iff {P : Json → Prop} {ms : List (String × Json)} :
    EveryMember P ms ↔ ∀ m ∈ ms, Every P m.2 := by
  induction ms with
  | nil => simp [EveryMember]
  | cons m ms ih => rw [EveryMember, ih, List.forall_mem_cons]

/-! ## Normal form -/

theorem normalItems_eq (xs : List Json) : normalItems xs = xs.map normal := by
  induction xs with
  | nil => rfl
  | cons x xs ih => rw [normalItems, ih, List.map_cons]

theorem normalMembers_eq (ms : List (String × Json)) : normalMembers ms = ms.map fun m => (m.1, m.2.normal) := by
  induction ms with
  | nil => rfl
  | cons m ms ih => rw [normalMembers, ih, List.map_cons]

/-- The members of the normal form are members in normal form. -/
theorem mem_normal {ms : List (String × Json)} {m : String × Json} (h : m ∈ Ordered.ofList (normalMembers ms)) :
    ∃ m' ∈ ms, m = (m'.1, m'.2.normal) := by
  have h := Ordered.mem_ofList h
  rw [normalMembers_eq] at h
  obtain ⟨m', hm', rfl⟩ := List.mem_map.1 h
  exact ⟨m', hm', rfl⟩

theorem depth_normal (v : Json) : v.normal.depth ≤ v.depth := by
  induction v using inductOn with
  | arr items ih =>
    rw [normal, normalItems_eq, depth, depth]
    refine Nat.succ_le_succ (depthItems_le.2 fun x hx => ?_)
    obtain ⟨y, hy, rfl⟩ := List.mem_map.1 hx
    exact Nat.le_trans (ih y hy) (depthItems_le.1 (Nat.le_refl _) y hy)
  | obj members ih =>
    rw [normal, depth, depth]
    refine Nat.succ_le_succ (depthMembers_le.2 fun m hm => ?_)
    obtain ⟨m', hm', rfl⟩ := mem_normal hm
    exact Nat.le_trans (ih m' hm') (depthMembers_le.1 (Nat.le_refl _) m' hm')
  | _ => exact Nat.le_refl _

theorem Every.normal {P : Json → Prop} {v : Json} (h : v.Every P) : v.normal.Every P := by
  induction v using inductOn with
  | arr items ih =>
    rw [Json.normal, normalItems_eq, Every, everyItem_iff]
    intro x hx
    obtain ⟨y, hy, rfl⟩ := List.mem_map.1 hx
    exact ih y hy (everyItem_iff.1 h y hy)
  | obj members ih =>
    rw [Json.normal, Every, everyMember_iff]
    intro m hm
    obtain ⟨m', hm', rfl⟩ := mem_normal hm
    exact ih m' hm' (everyMember_iff.1 h m' hm')
  | _ => exact h

/-- **A normal form is its own normal form.** -/
theorem normal_normal (v : Json) : v.normal.normal = v.normal := by
  induction v using inductOn with
  | arr items ih =>
    simp only [normal, normalItems_eq, List.map_map]
    congr 1
    exact List.map_congr_left fun x hx => ih x hx
  | obj members ih =>
    have same : ∀ m ∈ Ordered.ofList (normalMembers members), (m.1, m.2.normal) = m := by
      intro m hm
      obtain ⟨m', hm', rfl⟩ := mem_normal hm
      rw [ih m' hm']
    have hms : normalMembers (Ordered.ofList (normalMembers members)) = Ordered.ofList (normalMembers members) := by
      rw [normalMembers_eq, List.map_congr_left same, List.map_id']
    rw [normal, normal, hms, Ordered.ofList_ascending (Ordered.ascending_ofList _)]
  | _ => rfl

/-! ## What a reader makes -/

/-- Whether a value is no integer of more than 64 bits. -/
def Fits : Json → Prop
  | .int n => IntFits n
  | _ => True

theorem fitDigits_lt : ∀ {ds : List Char} {m : Nat}, m < Nat.pow 2 64 → (fitDigits m ds).1 < Nat.pow 2 64
  | [], _, h => h
  | d :: ds, m, h => by
    unfold fitDigits
    by_cases hm : m * 10 + (d.toNat - 48) < Nat.pow 2 64
    · simp only [if_pos hm]
      exact fitDigits_lt hm
    · simp only [if_neg hm]
      exact h

theorem value?_bounds {t : NumberText} {negative : Bool} {v : Json} (h : t.value? negative = some v) :
    v.depth = 0 ∧ v.Every Fits := by
  unfold NumberText.value? at h
  have hm : (fitDigits 0 t.whole).1 < 18446744073709551616 := fitDigits_lt (by decide)
  generalize fitDigits 0 t.whole = p at h hm
  obtain ⟨m, dropped⟩ := p
  have real : ∀ {x? : Option Magnitude} {negative : Bool},
      (x?.map fun x => Json.real ⟨negative, x⟩) = some v → v.depth = 0 ∧ v.Every Fits := by
    intro x? negative h
    obtain ⟨x, -, rfl⟩ := Option.map_eq_some_iff.1 h
    exact ⟨rfl, trivial⟩
  simp only at h hm
  split at h
  · split at h
    · cases h
      refine ⟨rfl, ?_, ?_⟩ <;> omega
    · split at h
      · rename_i hb
        have hb : m ≤ 9223372036854775808 := hb.2
        cases h
        refine ⟨rfl, ?_, ?_⟩ <;> omega
      · exact real h
  · exact real h

theorem readNumber?_bounds {cs rest : List Char} {v : Json} (h : readNumber? cs = some (v, rest)) :
    v.depth = 0 ∧ v.Every Fits := by
  have magnitude : ∀ {negative : Bool} {cs : List Char}, readMagnitude? negative cs = some (v, rest) →
      v.depth = 0 ∧ v.Every Fits := by
    intro negative cs h
    obtain ⟨⟨t, left⟩, -, h⟩ := Option.bind_eq_some_iff.1 h
    obtain ⟨v', hv, heq⟩ := Option.map_eq_some_iff.1 h
    cases heq
    exact value?_bounds hv
  by_cases hm : ∃ ds, cs = '-' :: ds
  · obtain ⟨ds, rfl⟩ := hm
    rw [readNumber?_minus] at h
    exact magnitude h
  · rw [readNumber?_of_ne fun ds hds => hm ⟨ds, hds⟩] at h
    exact magnitude h

/-- What is within bounds: values that nest no deeper and have integers of 64 bits only. -/
def Within (depth : Nat) (v : Json) : Prop := v.depth ≤ depth ∧ v.Every Fits

theorem within_arr {d : Nat} {xs : List Json} : Within (d + 1) (.arr xs) ↔ ∀ x ∈ xs, x.Within d := by
  unfold Within
  rw [depth, Nat.succ_le_succ_iff, depthItems_le, Every, everyItem_iff]
  exact ⟨fun h x hx => ⟨h.1 x hx, h.2 x hx⟩, fun h => ⟨fun x hx => (h x hx).1, fun x hx => (h x hx).2⟩⟩

theorem within_obj {d : Nat} {ms : List (String × Json)} : Within (d + 1) (.obj ms) ↔ ∀ m ∈ ms, m.2.Within d := by
  unfold Within
  rw [depth, Nat.succ_le_succ_iff, depthMembers_le, Every, everyMember_iff]
  exact ⟨fun h m hm => ⟨h.1 m hm, h.2 m hm⟩, fun h => ⟨fun m hm => (h m hm).1, fun m hm => (h m hm).2⟩⟩

/-- **What is read is within bounds**: a value, the items of an array, and the members of an object. -/
theorem readValue?_bounds : ∀ fuel : Nat,
    (∀ {d cs v rest}, readValue? fuel d cs = some (v, rest) → v.Within d) ∧
    (∀ {d cs xs rest}, readItems? fuel d cs = some (xs, rest) → ∀ x ∈ xs, x.Within d) ∧
    (∀ {d cs ms rest}, readMembers? fuel d cs = some (ms, rest) → ∀ m ∈ ms, m.2.Within d)
  | 0 => by
    refine ⟨fun h => ?_, fun h => ?_, fun h => ?_⟩
    · rw [readValue?] at h
      cases h
    · rw [readItems?] at h
      cases h
    · rw [readMembers?] at h
      cases h
  | fuel + 1 => by
    obtain ⟨value, items, members⟩ := readValue?_bounds fuel
    refine ⟨fun {d cs v rest} h => ?_, fun {d cs xs rest} h => ?_, fun {d cs ms rest} h => ?_⟩
    · unfold readValue? at h
      split at h
      · cases h
        exact ⟨Nat.zero_le _, trivial⟩
      · cases h
        exact ⟨Nat.zero_le _, trivial⟩
      · cases h
        exact ⟨Nat.zero_le _, trivial⟩
      · obtain ⟨⟨s, left⟩, -, heq⟩ := Option.map_eq_some_iff.1 h
        cases heq
        exact ⟨Nat.zero_le _, trivial⟩
      · split at h
        · cases h
        · obtain ⟨d, rfl⟩ := Nat.exists_eq_succ_of_ne_zero ‹_›
          split at h
          · cases h
            exact within_arr.2 fun x hx => absurd hx List.not_mem_nil
          · obtain ⟨⟨xs, left⟩, hxs, heq⟩ := Option.map_eq_some_iff.1 h
            cases heq
            exact within_arr.2 (items hxs)
      · split at h
        · cases h
        · obtain ⟨d, rfl⟩ := Nat.exists_eq_succ_of_ne_zero ‹_›
          split at h
          · cases h
            exact within_obj.2 fun m hm => absurd hm List.not_mem_nil
          · obtain ⟨⟨ms, left⟩, hms, heq⟩ := Option.map_eq_some_iff.1 h
            cases heq
            exact within_obj.2 (members hms)
      · obtain ⟨hd, hf⟩ := readNumber?_bounds h
        exact ⟨hd ▸ Nat.zero_le _, hf⟩
    · unfold readItems? at h
      split at h
      · cases h
      · rename_i hx
        split at h
        · cases h
          exact List.forall_mem_singleton.2 (value hx)
        · obtain ⟨⟨xs, left⟩, hxs, heq⟩ := Option.map_eq_some_iff.1 h
          cases heq
          exact List.forall_mem_cons.2 ⟨value hx, items hxs⟩
        · cases h
    · unfold readMembers? at h
      split at h
      · split at h
        · cases h
        · split at h
          · split at h
            · cases h
            · rename_i hv
              split at h
              · cases h
                exact List.forall_mem_singleton.2 (value hv)
              · obtain ⟨⟨ms, left⟩, hms, heq⟩ := Option.map_eq_some_iff.1 h
                cases heq
                exact List.forall_mem_cons.2 ⟨value hv, members hms⟩
              · cases h
          · cases h
      · cases h

/-- **The value in a text** nests 127 deep at most and has integers of 64 bits only. -/
theorem read?_within {s : String} {v : Json} (h : read? s = some v) : v.Within maxDepth := by
  unfold read? at h
  simp only at h
  split at h
  · rename_i hv
    split at h
    · cases h
      exact (readValue?_bounds _).1 hv
    · cases h
  · cases h

end ApprovalGate.Json
