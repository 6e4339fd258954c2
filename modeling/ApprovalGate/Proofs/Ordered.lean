import ApprovalGate.Json.Basic
/-!
# Entries in order, once and for all

What is put into ascending order is in ascending order and has nothing new in it, and what is in ascending order
already stays as it is.  Where no name occurs twice nothing is lost, so that the order in which the entries came makes
no difference (`ofList_perm`).
-/
namespace ApprovalGate.Ordered

variable {α : Type} {name : String} {value : α} {e : String × α}

def Ascending (es : List (String × α)) : Prop := es.Pairwise fun a b => a.1 < b.1

theorem mem_put : ∀ {es : List (String × α)}, e ∈ put name value es → e = (name, value) ∨ e ∈ es
  | [], h => .inl (List.mem_singleton.1 h)
  | (n, v) :: rest, h => by
    unfold put at h
    split at h
    · exact (List.mem_cons.1 h).imp_right (List.mem_cons_of_mem _)
    · split at h
      · exact List.mem_cons.1 h
      · rcases List.mem_cons.1 h with h | h
        · exact .inr (h ▸ List.mem_cons_self)
        · exact (mem_put h).imp_right (List.mem_cons_of_mem _)

theorem Ascending.put : ∀ {es : List (String × α)}, Ascending es → Ascending (put name value es)
  | [], _ => List.pairwise_singleton _ _
  | (n, v) :: rest, h => by
    obtain ⟨hn, hr⟩ := List.pairwise_cons.1 h
    unfold Ordered.put
    by_cases heq : name = n
    · rw [if_pos heq]
      exact List.pairwise_cons.2 ⟨fun e he => heq ▸ hn e he, hr⟩
    · rw [if_neg heq]
      by_cases hlt : name < n
      · rw [if_pos hlt]
        refine List.pairwise_cons.2 ⟨fun e he => ?_, h⟩
        rcases List.mem_cons.1 he with rfl | he
        · exact hlt
        · exact String.lt_trans hlt (hn e he)
      · rw [if_neg hlt]
        have hgt : n < name := Std.lt_of_le_of_ne (String.not_lt.1 hlt) (Ne.symm heq)
        refine List.pairwise_cons.2 ⟨fun e he => ?_, Ascending.put hr⟩
        rcases mem_put he with rfl | he
        · exact hgt
        · exact hn e he

theorem Ascending.putAll : ∀ (entries : List (String × α)) {es : List (String × α)}, Ascending es →
    Ascending (putAll entries es)
  | [], _, h => h
  | _ :: entries, _, h => Ascending.putAll entries h.put

theorem ascending_ofList (entries : List (String × α)) : Ascending (ofList entries) :=
  Ascending.putAll entries List.Pairwise.nil

theorem mem_putAll : ∀ {entries es : List (String × α)}, e ∈ putAll entries es → e ∈ entries ∨ e ∈ es
  | [], _, h => .inr h
  | (n, v) :: entries, es, h => by
    have h : e ∈ putAll entries (put n v es) := h
    rcases mem_putAll h with h | h
    · exact .inl (List.mem_cons_of_mem _ h)
    · rcases mem_put h with rfl | h
      · exact .inl List.mem_cons_self
      · exact .inr h

theorem mem_ofList {entries : List (String × α)} (h : e ∈ ofList entries) : e ∈ entries :=
  (mem_putAll h).resolve_right List.not_mem_nil

/-- A name past all others is put at the end. -/
theorem put_last : ∀ {es : List (String × α)}, (∀ e ∈ es, e.1 < name) → put name value es = es ++ [(name, value)]
  | [], _ => rfl
  | (n, v) :: rest, h => by
    have hn : n < name := h _ List.mem_cons_self
    have hne : name ≠ n := by
      rintro rfl
      exact String.lt_irrefl _ hn
    rw [put, if_neg hne, if_neg (String.lt_asymm hn), put_last fun e he => h e (List.mem_cons_of_mem _ he)]
    rfl

theorem putAll_ascending : ∀ {entries es : List (String × α)}, Ascending (es ++ entries) →
    putAll entries es = es ++ entries
  | [], es, _ => (List.append_nil es).symm
  | (n, v) :: entries, es, h => by
    have hlast : ∀ e ∈ es, e.1 < n := fun e he => (List.pairwise_append.1 h).2.2 e he _ List.mem_cons_self
    have happ : es ++ (n, v) :: entries = es ++ [(n, v)] ++ entries := by
      rw [List.append_assoc]
      rfl
    rw [happ] at h ⊢
    show putAll entries (put n v es) = _
    rw [put_last hlast, putAll_ascending h]

/-- **What is in order stays as it is.** -/
theorem ofList_ascending {entries : List (String × α)} (h : Ascending entries) : ofList entries = entries :=
  @putAll_ascending α entries [] h

/-! ## Different names -/

theorem mem_put_self : ∀ es : List (String × α), (name, value) ∈ put name value es
  | [] => List.mem_cons_self
  | (n, v) :: rest => by
    unfold put
    split
    · exact List.mem_cons_self
    · split
      · exact List.mem_cons_self
      · exact List.mem_cons_of_mem _ (mem_put_self rest)

theorem mem_put_of_ne (hn : e.1 ≠ name) : ∀ {es : List (String × α)}, e ∈ es → e ∈ put name value es
  | (n, v) :: rest, h => by
    unfold put
    split
    · rename_i heq
      rcases List.mem_cons.1 h with rfl | h
      · exact absurd heq.symm hn
      · exact List.mem_cons_of_mem _ h
    · split
      · exact List.mem_cons_of_mem _ h
      · rcases List.mem_cons.1 h with rfl | h
        · exact List.mem_cons_self
        · exact List.mem_cons_of_mem _ (mem_put_of_ne hn h)

theorem mem_putAll_of_mem : ∀ {entries es : List (String × α)}, e ∈ es → e.1 ∉ entries.map Prod.fst →
    e ∈ putAll entries es
  | [], _, h, _ => h
  | (n, v) :: entries, es, h, hn => by
    rw [List.map_cons, List.mem_cons, not_or] at hn
    show e ∈ putAll entries (put n v es)
    exact mem_putAll_of_mem (mem_put_of_ne hn.1 h) hn.2

theorem mem_putAll_of_entry : ∀ {entries es : List (String × α)}, (entries.map Prod.fst).Nodup → e ∈ entries →
    e ∈ putAll entries es
  | (n, v) :: entries, es, hd, h => by
    rw [List.map_cons, List.nodup_cons] at hd
    show e ∈ putAll entries (put n v es)
    rcases List.mem_cons.1 h with rfl | h
    · exact mem_putAll_of_mem (mem_put_self es) hd.1
    · exact mem_putAll_of_entry hd.2 h

theorem mem_ofList_iff {entries : List (String × α)} (hd : (entries.map Prod.fst).Nodup) :
    e ∈ ofList entries ↔ e ∈ entries := ⟨mem_ofList, mem_putAll_of_entry hd⟩

theorem Ascending.nodup {es : List (String × α)} (h : Ascending es) : es.Nodup := by
  unfold Ascending at h
  refine h.imp fun {a b} hab heq => ?_
  rw [heq] at hab
  exact String.lt_irrefl _ hab

/-- **Entries with different names are put into the same order**, whichever they came in. -/
theorem ofList_perm {entries entries' : List (String × α)} (hp : entries.Perm entries')
    (hd : (entries.map Prod.fst).Nodup) : ofList entries = ofList entries' := by
  have hd' : (entries'.map Prod.fst).Nodup := (hp.map Prod.fst).nodup_iff.1 hd
  have perm : (ofList entries).Perm (ofList entries') := by
    refine (List.perm_ext_iff_of_nodup (ascending_ofList _).nodup (ascending_ofList _).nodup).2 fun e => ?_
    rw [mem_ofList_iff hd, mem_ofList_iff hd', hp.mem_iff]
  exact perm.eq_of_pairwise (fun a b _ _ hab hba => absurd hba (String.lt_asymm hab)) (ascending_ofList _)
    (ascending_ofList _)

end ApprovalGate.Ordered
