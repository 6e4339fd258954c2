import ApprovalGate.Proofs.Store
/-!
# Deleting one token after the other

A store that has deleted some tokens is as it would be if they had gone in one write (`Store.without`,
`delete_eq_without`, `without_without`), so nothing is left of the order in which they went.  And whether it deletes a
token is seen before the others are deleted (`delete_delete_ok_iff`).
-/
namespace ApprovalGate

namespace Records

/-- The records but those under some tokens. -/
def without (rs : Records) (ts : List Token) : Records := rs.filter fun t _ => decide (t ∉ ts)

theorem without_nil (rs : Records) : rs.without [] = rs :=
  congrArg Table.mk (List.filter_eq_self.2 fun _ _ => decide_eq_true List.not_mem_nil)

theorem without_without (rs : Records) (ts us : List Token) : (rs.without ts).without us = rs.without (ts ++ us) := by
  refine congrArg Table.mk ((List.filter_filter ..).trans (List.filter_congr fun e _ => ?_))
  rw [← Bool.decide_and, decide_eq_decide, List.mem_append, not_or]
  exact and_comm

theorem without_congr (rs : Records) {ts us : List Token} (h : ∀ t, t ∈ ts ↔ t ∈ us) :
    rs.without ts = rs.without us := by
  unfold without
  simp only [h]

theorem erase_eq_without (rs : Records) (t : Token) : rs.erase t = rs.without [t] := by
  unfold without Table.erase
  simp only [List.mem_singleton]

theorem get?_without {rs : Records} (h : rs.Distinct) (ts : List Token) (t : Token) :
    (rs.without ts).get? t = if t ∈ ts then none else rs.get? t := by
  rw [without, Table.get?_filter h]
  cases rs.get? t with
  | none => exact (ite_self none).symm
  | some r => simp only [Option.filter_some, decide_not, Bool.not_eq_true', decide_eq_false_iff_not, ite_not]

/-- Nothing goes with more tokens only when nothing goes with fewer. -/
theorem without_eq_self_of_append {rs : Records} {ts us : List Token} (h : rs.without (ts ++ us) = rs) :
    rs.without ts = rs := by
  rw [← without_without] at h
  have outer : ((rs.without ts).without us).entries.Sublist (rs.without ts).entries := List.filter_sublist
  rw [h] at outer
  exact congrArg Table.mk (List.Sublist.antisymm List.filter_sublist outer)

theorem without_singleton_eq_self {rs : Records} {t : Token} : rs.without [t] = rs ↔ rs.contains t = false := by
  rw [Table.contains, Option.isSome_eq_false_iff, Option.isNone_iff_eq_none]
  constructor
  · intro h
    rw [← h, ← erase_eq_without, Table.get?_erase_self]
  · intro h
    refine congrArg Table.mk (List.filter_eq_self.2 fun e he => decide_eq_true fun ht => ?_)
    have found := Table.find_ne_none_of_mem he
    rw [List.mem_singleton.1 ht] at found
    exact found h

end Records

namespace Disk

theorem drop_put (d : Disk) (p : Path) (e : DiskEntry) : (d.put p e).drop p = d.drop p := by
  refine congrArg Disk.mk ((List.filter_cons_of_neg (by simp)).trans ?_)
  rw [List.filter_filter]
  simp only [Bool.and_self]

/-- The last write of a file counts, also when another file was dropped in between. -/
theorem put_drop_put (d : Disk) (p q : Path) (e f : DiskEntry) :
    (((d.drop q).put p e).drop q).put p f = (d.drop q).put p f := by
  unfold put drop
  by_cases hpq : p = q
  · subst hpq
    simp [List.filter_filter]
  · simp [hpq, List.filter_filter, Bool.and_left_comm]

end Disk

namespace Store

theorem written_eq (path : String) (copy : Records) (disk : Disk) : written path copy disk =
    (disk.drop (temporary path)).put (Path.ofString path) (.file (Snapshot.write copy.sorted).toUTF8) := by
  rw [written, Disk.drop_put]

/-- **The last snapshot counts.** -/
theorem written_written (path : String) (copy copy' : Records) (disk : Disk) :
    written path copy' (written path copy disk) = written path copy' disk := by
  simp only [written_eq, Disk.put_drop_put]

/-- The store with some tokens deleted in one write, or as it is when it holds none of them in its file. -/
def without (s : Store) (ts : List Token) : Store :=
  match s.medium with
  | .memory records => { s with medium := .memory (records.without ts) }
  | .file path copy disk =>
    if copy.without ts = copy then s
    else { s with medium := .file path (copy.without ts) (written path (copy.without ts) disk) }

theorem without_nil (s : Store) : s.without [] = s := by
  obtain ⟨medium, refuses⟩ := s
  cases medium with
  | memory records => simp only [without, Records.without_nil]
  | file path copy disk => exact if_pos (Records.without_nil copy)

theorem without_congr (s : Store) {ts us : List Token} (h : ∀ t, t ∈ ts ↔ t ∈ us) : s.without ts = s.without us := by
  unfold without
  simp only [fun rs => Records.without_congr rs h]

/-- The records that are left are those under other tokens. -/
theorem records_without (s : Store) (ts : List Token) : (s.without ts).records = s.records.without ts := by
  obtain ⟨medium, refuses⟩ := s
  cases medium with
  | memory records => rfl
  | file path copy disk =>
    simp only [without]
    split
    · rename_i h
      exact h.symm
    · rfl

/-- **Two writes come to one.** -/
theorem without_without (s : Store) (ts us : List Token) : (s.without ts).without us = s.without (ts ++ us) := by
  obtain ⟨medium, refuses⟩ := s
  cases medium with
  | memory records => simp only [without, Records.without_without]
  | file path copy disk =>
    simp only [without]
    by_cases h : copy.without ts = copy
    · -- the first write does nothing, and so the second one does it all
      rw [if_pos h, ← Records.without_without, h]
    · have both : copy.without (ts ++ us) ≠ copy := fun h' => h (Records.without_eq_self_of_append h')
      rw [if_neg h, if_neg both]
      simp only [Records.without_without, written_written]
      split
      · rename_i h'
        rw [h']
      · rfl

/-! ## Deletions -/

/-- **When a token is deleted.** -/
theorem delete_ok_iff {s : Store} {t : Token} : (s.delete t).1 = .ok () ↔ s.refuses.delete = false ∧
    ∀ path copy disk, s.medium = .file path copy disk → copy.contains t = true → Writable path disk := by
  obtain ⟨medium, refuses⟩ := s
  rw [delete]
  cases hr : refuses.delete with
  | true => simp
  | false =>
    simp only [Bool.false_eq_true, if_false, true_and]
    cases medium with
    | memory records => simp
    | file path copy disk =>
      simp only
      by_cases hc : copy.contains t = true
      · rw [if_pos hc]
        constructor
        · rintro h _ _ _ ⟨⟩ -
          exact writable_of_commit h
        · intro h
          simp only [commit_writable (h path copy disk rfl hc)]
      · rw [if_neg hc]
        refine ⟨?_, fun _ => rfl⟩
        rintro - _ _ _ ⟨⟩ h
        exact absurd h hc

/-- **What deleting a token comes to.** -/
theorem delete_eq_without {s : Store} {t : Token} (h : (s.delete t).1 = .ok ()) :
    (s.delete t).2 = s.without [t] := by
  obtain ⟨hr, hw⟩ := delete_ok_iff.1 h
  obtain ⟨medium, refuses⟩ := s
  have hr : refuses.delete = false := hr
  simp only [delete, hr, Bool.false_eq_true, if_false, without]
  cases medium with
  | memory records => simp only [Records.erase_eq_without]
  | file path copy disk =>
    simp only [Records.without_singleton_eq_self]
    by_cases hc : copy.contains t = true
    · rw [if_pos hc, if_neg (by simp [hc]), commit_writable (hw path copy disk rfl hc), Records.erase_eq_without]
    · rw [if_neg hc, if_pos (Bool.not_eq_true _ ▸ hc)]

/-- **Whether a token is deleted does not depend on those that were deleted before.** -/
theorem delete_delete_ok_iff {s : Store} {t : Token} (h : (s.delete t).1 = .ok ()) (u : Token) :
    ((s.delete t).2.delete u).1 = .ok () ↔ (s.delete u).1 = .ok () := by
  obtain ⟨hr, hw⟩ := delete_ok_iff.1 h
  rw [delete_ok_iff, delete_ok_iff, delete_refuses, delete_eq_without h]
  refine and_congr_right fun _ => ?_
  obtain ⟨medium, refuses⟩ := s
  cases medium with
  | memory records => simp [without]
  | file path copy disk =>
    simp only [without]
    split
    · exact Iff.rfl
    · -- the first token was there, so the snapshot could be written and can be again
      rename_i hne
      have hc : copy.contains t = true := by simpa [Records.without_singleton_eq_self] using hne
      have writable := hw path copy disk rfl hc
      constructor
      · rintro - _ _ _ ⟨⟩ -
        exact writable
      · rintro - _ _ _ ⟨⟩ -
        exact writable.written _

end Store
end ApprovalGate
