import ApprovalGate.Table
/-!
# Tables without repeated keys

Every table that grows from the empty one by putting, erasing and filtering holds each key once.  For such a table the
entries are exactly what looking up finds (`mem_entries_iff`), so filtering it filters what is found (`get?_filter`).
-/
namespace ApprovalGate.Table

variable {κ α : Type}

/-- No key occurs twice. -/
def Distinct (t : Table κ α) : Prop := t.keys.Nodup

theorem distinct_empty : (empty : Table κ α).Distinct := List.nodup_nil

theorem Distinct.filter {t : Table κ α} (h : t.Distinct) (p : κ → α → Bool) : (t.filter p).Distinct :=
  (List.Sublist.map Prod.fst List.filter_sublist).nodup h

/-- What a test does not let through is the rest. -/
theorem size_sub_filter (t : Table κ α) (p : κ → α → Bool) :
    t.size - (t.filter fun k v => !p k v).size = (t.filter p).keys.length := by
  have parts := List.length_eq_countP_add_countP (fun e => p e.1 e.2) (l := t.entries)
  simp only [List.countP_eq_length_filter, Bool.not_eq_true, Bool.decide_eq_false] at parts
  exact (Nat.sub_eq_of_eq_add parts).trans (List.length_map Prod.fst).symm

variable [DecidableEq κ]

theorem mem_of_find {k : κ} {v : α} : ∀ {es : List (κ × α)}, find k es = some v → (k, v) ∈ es
  | [], h => by cases h
  | (l, w) :: rest, h => by
    rw [find] at h
    split at h
    · rename_i hl
      cases h
      subst hl
      exact List.mem_cons_self
    · exact List.mem_cons_of_mem _ (mem_of_find h)

theorem find_of_mem {k : κ} {v : α} : ∀ {es : List (κ × α)}, (es.map Prod.fst).Nodup → (k, v) ∈ es →
    find k es = some v
  | (l, w) :: rest, hn, h => by
    rw [List.map_cons, List.nodup_cons] at hn
    rw [find]
    rcases List.mem_cons.1 h with heq | hr
    · cases heq
      rw [if_pos rfl]
    · have hl : l ≠ k := by
        rintro rfl
        exact hn.1 (List.mem_map.2 ⟨(l, v), hr, rfl⟩)
      rw [if_neg hl]
      exact find_of_mem hn.2 hr

/-- The key of an entry is found. -/
theorem find_ne_none_of_mem : ∀ {es : List (κ × α)} {e : κ × α}, e ∈ es → find e.1 es ≠ none
  | (l, v) :: rest, e, h => by
    rw [find]
    split
    · exact Option.some_ne_none v
    · rename_i hl
      refine find_ne_none_of_mem ((List.mem_cons.1 h).resolve_left ?_)
      rintro rfl
      exact hl rfl

/-- **The entries of a table are what looking up finds.** -/
theorem mem_entries_iff {t : Table κ α} (h : t.Distinct) {k : κ} {v : α} : (k, v) ∈ t.entries ↔ t.get? k = some v :=
  ⟨find_of_mem h, mem_of_find⟩

theorem mem_values_iff {t : Table κ α} (h : t.Distinct) {v : α} : v ∈ t.values ↔ ∃ k, t.get? k = some v := by
  constructor
  · intro hv
    obtain ⟨⟨k, w⟩, hm, rfl⟩ := List.mem_map.1 hv
    exact ⟨k, (mem_entries_iff h).1 hm⟩
  · rintro ⟨k, hk⟩
    exact List.mem_map.2 ⟨(k, v), (mem_entries_iff h).2 hk, rfl⟩

theorem keys_set (k : κ) (v : α) : ∀ es : List (κ × α),
    (set k v es).map Prod.fst = if k ∈ es.map Prod.fst then es.map Prod.fst else es.map Prod.fst ++ [k]
  | [] => rfl
  | (l, w) :: rest => by
    rw [set, List.map_cons]
    by_cases hl : l = k
    · subst hl
      simp
    · rw [if_neg hl, List.map_cons, keys_set k v rest]
      by_cases hk : k ∈ rest.map Prod.fst
      · rw [if_pos hk, if_pos (List.mem_cons_of_mem _ hk)]
      · have hk' : k ∉ (l, w).1 :: rest.map Prod.fst := fun hm =>
          (List.mem_cons.1 hm).elim (fun he => hl he.symm) hk
        rw [if_neg hk, if_neg hk']
        rfl

theorem set_comm {k l : κ} (hne : k ≠ l) (v w : α) : ∀ {es : List (κ × α)} {u : α}, find k es = some u →
    set l w (set k v es) = set k v (set l w es)
  | (m, x) :: rest, u, h => by
    by_cases hk : m = k
    · subst hk
      simp [set, hne]
    · by_cases hl : m = l
      · subst hl
        simp [set, hk]
      · rw [find, if_neg hk] at h
        simp [set, hk, hl, set_comm hne v w h]

/-- **Keys are put in either order** when one of them is there already. -/
theorem insert_comm {t : Table κ α} {k l : κ} (hne : k ≠ l) {u v w : α} (h : t.get? k = some u) :
    (t.insert k v).insert l w = (t.insert l w).insert k v := congrArg Table.mk (set_comm hne v w h)

theorem Distinct.insert {t : Table κ α} (h : t.Distinct) (k : κ) (v : α) : (t.insert k v).Distinct := by
  show ((set k v t.entries).map Prod.fst).Nodup
  rw [keys_set]
  split
  · exact h
  · rename_i hk
    exact List.nodup_append.2 ⟨h, by simp, fun a ha b hb => by
      rintro rfl
      exact hk (List.mem_singleton.1 hb ▸ ha)⟩

theorem Distinct.erase {t : Table κ α} (h : t.Distinct) (k : κ) : (t.erase k).Distinct := h.filter _

/-- **A filtered table finds what the table finds and the test lets through.** -/
theorem get?_filter {t : Table κ α} (h : t.Distinct) (p : κ → α → Bool) (k : κ) :
    (t.filter p).get? k = (t.get? k).filter (p k) := by
  apply Option.ext
  intro v
  rw [← mem_entries_iff (h.filter p), Option.filter_eq_some_iff, ← mem_entries_iff h]
  exact List.mem_filter

theorem get?_filter_eq_some {t : Table κ α} (h : t.Distinct) {p : κ → α → Bool} {k : κ} {v : α} :
    (t.filter p).get? k = some v ↔ t.get? k = some v ∧ p k v = true := by
  rw [get?_filter h, Option.filter_eq_some_iff]

theorem filter_eq_self {t : Table κ α} (h : t.Distinct) {p : κ → α → Bool}
    (all : ∀ k v, t.get? k = some v → p k v = true) : t.filter p = t :=
  congrArg Table.mk (List.filter_eq_self.2 fun e hm => all e.1 e.2 ((mem_entries_iff h).1 hm))

/-- The keys of what a test lets through. -/
theorem mem_keys_filter {t : Table κ α} (h : t.Distinct) {p : κ → α → Bool} {k : κ} :
    k ∈ (t.filter p).keys ↔ ∃ v, t.get? k = some v ∧ p k v = true := by
  constructor
  · intro hk
    obtain ⟨⟨l, v⟩, hm, rfl⟩ := List.mem_map.1 hk
    exact ⟨v, (get?_filter_eq_some h).1 ((mem_entries_iff (h.filter p)).1 hm)⟩
  · rintro ⟨v, hv⟩
    exact List.mem_map.2 ⟨(k, v), (mem_entries_iff (h.filter p)).2 ((get?_filter_eq_some h).2 hv), rfl⟩

/-- Erasing keys one after the other. -/
theorem get?_foldl_erase (ks : List κ) (k : κ) : ∀ t : Table κ α,
    (ks.foldl erase t).get? k = if k ∈ ks then none else t.get? k := by
  induction ks with
  | nil => intro t; rfl
  | cons l ks ih =>
    intro t
    rw [List.foldl_cons, ih, get?_erase]
    by_cases hk : k ∈ ks
    · rw [if_pos hk, if_pos (List.mem_cons_of_mem _ hk)]
    · rw [if_neg hk]
      by_cases hl : k = l
      · subst hl
        rw [if_pos rfl, if_pos List.mem_cons_self]
      · rw [if_neg hl, if_neg (by simpa [hl] using hk)]

theorem Distinct.foldl_erase (ks : List κ) : ∀ {t : Table κ α}, t.Distinct → (ks.foldl Table.erase t).Distinct := by
  induction ks with
  | nil => exact id
  | cons k ks ih => exact fun h => ih (h.erase k)

end ApprovalGate.Table
