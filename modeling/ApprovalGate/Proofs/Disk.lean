import ApprovalGate.Store.Basic
/-!
# Snapshots on a disk

A snapshot is written beside its file and moved there, which works exactly when the directory is there and neither of
the two names is one (`writeSnapshot_ok_iff`).  Then the file holds the snapshot, and the next one can be written too.
-/
namespace ApprovalGate

namespace Disk

theorem find?_without {p q : Path} (h : p ≠ q) (es : List (Path × DiskEntry)) :
    (es.filter fun (r, _) => r != p).find? (fun (r, _) => r == q) = es.find? fun (r, _) => r == q := by
  rw [List.find?_filter]
  congr 1
  funext ⟨r, e⟩
  by_cases hr : r = q
  · subst hr
    simpa using Ne.symm h
  · simp [hr]

theorem entry?_put (d : Disk) {p : Path} (q : Path) (e : DiskEntry) (hp : p ≠ []) :
    entry? (d.put p e) q = if p = q then some e else d.entry? q := by
  cases q with
  | nil =>
    rw [if_neg hp]
    rfl
  | cons n ns =>
    show (List.find? _ ((p, e) :: _)).map Prod.snd = if _ then _ else (List.find? _ _).map Prod.snd
    rw [List.find?_cons]
    by_cases hpq : p = n :: ns
    · subst hpq
      simp
    · have hb : (p == n :: ns) = false := beq_eq_false_iff_ne.2 hpq
      simp only [hb, if_neg hpq, find?_without hpq]

theorem entry?_drop (d : Disk) {p : Path} (q : Path) (hp : p ≠ []) :
    entry? (d.drop p) q = if p = q then none else d.entry? q := by
  cases q with
  | nil =>
    rw [if_neg hp]
    rfl
  | cons n ns =>
    show (List.find? _ (List.filter _ _)).map Prod.snd = if _ then _ else (List.find? _ _).map Prod.snd
    by_cases hpq : p = n :: ns
    · subst hpq
      rw [if_pos rfl, Option.map_eq_none_iff, List.find?_eq_none]
      intro x hx
      simpa using (List.mem_filter.1 hx).2
    · rw [if_neg hpq, find?_without hpq]

theorem read?_put (d : Disk) {p : Path} (q : Path) (bytes : ByteArray) (hp : p ≠ []) :
    read? (d.put p (.file bytes)) q = if p = q then some bytes else d.read? q := by
  rw [read?, entry?_put d q _ hp]
  by_cases h : p = q
  · rw [if_pos h, if_pos h]
  · rw [if_neg h, if_neg h, read?]

theorem isDirectory_nil (d : Disk) : d.isDirectory [] = true := rfl

theorem isDirectory_congr {d e : Disk} {p : Path} (h : d.entry? p = e.entry? p) :
    d.isDirectory p = e.isDirectory p := by
  rw [isDirectory, isDirectory, h]

end Disk

namespace Path

theorem parent_withExtension (p : Path) (extension : String) : (withExtension p extension).parent = parent p := by
  rw [withExtension]
  cases h : p.getLast? with
  | none => rfl
  | some name => simp [parent]

theorem parent_ne {p : Path} (h : p ≠ []) : parent p ≠ p := fun he => by
  have := congrArg List.length he
  rw [parent, List.length_dropLast] at this
  have := List.length_pos_iff.2 h
  omega

theorem withExtension_eq_nil {p : Path} {extension : String} : withExtension p extension = [] ↔ p = [] := by
  rw [withExtension]
  cases h : p.getLast? with
  | none =>
    rw [List.getLast?_eq_none_iff] at h
  | some name =>
    have hp : p ≠ [] := fun hp => by
      rw [hp] at h
      cases h
    simp [hp]

end Path

namespace Store

/-- The file beside a snapshot that is written first. -/
abbrev temporary (path : String) : Path := (Path.ofString path).withExtension "tmp"

/-- Whether a snapshot can be written: its directory is there, and neither it nor the file beside it is one. -/
structure Writable (path : String) (disk : Disk) : Prop where
  parent : disk.isDirectory (Path.ofString path).parent = true
  target : disk.isDirectory (Path.ofString path) = false
  beside : disk.isDirectory (temporary path) = false

theorem Writable.ne_nil {path : String} {disk : Disk} (h : Writable path disk) : Path.ofString path ≠ [] := by
  intro hn
  have := h.target
  rw [hn, Disk.isDirectory_nil] at this
  cases this

def written (path : String) (copy : Records) (disk : Disk) : Disk :=
  ((disk.put (temporary path) (.file (Snapshot.write copy.sorted).toUTF8)).drop (temporary path)).put
    (Path.ofString path) (.file (Snapshot.write copy.sorted).toUTF8)

/-- **When a snapshot is written**, and what the disk is like then. -/
theorem writeSnapshot_ok_iff {path : String} {copy : Records} {disk disk' : Disk} :
    writeSnapshot path copy disk = (.ok (), disk') ↔ Writable path disk ∧ disk' = written path copy disk := by
  rw [writeSnapshot, Disk.write?, Path.parent_withExtension, written]
  generalize (Snapshot.write copy.sorted).toUTF8 = bytes
  by_cases hw : disk.isDirectory (Path.ofString path).parent = true ∧ (!disk.isDirectory (temporary path)) = true
  · have htmp : temporary path ≠ [] := fun hn => by
      have := hw.2
      rw [hn, Disk.isDirectory_nil] at this
      cases this
    have hentry : ∀ q, Disk.entry? (disk.put (temporary path) (.file bytes)) q =
        if temporary path = q then some (.file bytes) else disk.entry? q := fun q => Disk.entry?_put disk q _ htmp
    have hpar : (disk.put (temporary path) (.file bytes)).isDirectory (Path.ofString path).parent = true := by
      rw [Disk.isDirectory_congr (e := disk), hw.1]
      rw [hentry, if_neg]
      rw [← Path.parent_withExtension _ "tmp"]
      exact (Path.parent_ne htmp).symm
    have hdir : (disk.put (temporary path) (.file bytes)).isDirectory (Path.ofString path) =
        disk.isDirectory (Path.ofString path) := by
      by_cases heq : temporary path = Path.ofString path
      · rw [Disk.isDirectory, hentry, if_pos heq, ← heq]
        simpa using hw.2
      · rw [Disk.isDirectory_congr]
        rw [hentry, if_neg heq]
    rw [if_pos hw]
    simp only [Disk.rename?, hentry, if_true, hpar, hdir, true_and]
    cases hd : disk.isDirectory (Path.ofString path) with
    | true =>
      constructor
      · intro h
        cases h
      · rintro ⟨⟨-, ht, -⟩, -⟩
        rw [hd] at ht
        cases ht
    | false =>
      simp only [Bool.not_false, if_true, Prod.mk.injEq, true_and]
      constructor
      · rintro rfl
        exact ⟨⟨hw.1, hd, by simpa using hw.2⟩, rfl⟩
      · rintro ⟨-, rfl⟩
        rfl
  · rw [if_neg hw]
    constructor
    · intro h
      cases h
    · rintro ⟨⟨hp, -, ht⟩, -⟩
      exact absurd ⟨hp, by rw [ht]; rfl⟩ hw

theorem Writable.temporary_ne_nil {path : String} {disk : Disk} (h : Writable path disk) : temporary path ≠ [] := by
  rw [Ne, Path.withExtension_eq_nil]
  exact h.ne_nil

theorem Writable.entry?_written {path : String} {disk : Disk} (h : Writable path disk) (copy : Records) (q : Path) :
    Disk.entry? (written path copy disk) q =
      if Path.ofString path = q then some (.file (Snapshot.write copy.sorted).toUTF8)
      else if temporary path = q then none else disk.entry? q := by
  rw [written, Disk.entry?_put _ _ _ h.ne_nil, Disk.entry?_drop _ _ h.temporary_ne_nil,
    Disk.entry?_put _ _ _ h.temporary_ne_nil]
  split
  · rfl
  · split <;> rfl

theorem Writable.read?_written {path : String} {disk : Disk} (h : Writable path disk) (copy : Records) :
    (written path copy disk).read? (Path.ofString path) = some (Snapshot.write copy.sorted).toUTF8 := by
  rw [Disk.read?, h.entry?_written, if_pos rfl]

/-- **Whether a snapshot is written or not, its file is as it was before or holds the snapshot.** -/
theorem writeSnapshot_read? {path : String} {copy : Records} {disk disk' : Disk} {result : Outcome Unit}
    (h : writeSnapshot path copy disk = (result, disk')) :
    disk'.read? (Path.ofString path) = disk.read? (Path.ofString path) ∨
      disk'.read? (Path.ofString path) = some (Snapshot.write copy.sorted).toUTF8 := by
  cases result with
  | ok _ =>
    obtain ⟨hw, rfl⟩ := writeSnapshot_ok_iff.1 h
    exact .inr (hw.read?_written copy)
  | error f =>
    rw [writeSnapshot, Disk.write?] at h
    split at h
    · cases h
      exact .inl rfl
    · rename_i disk₁ hwrite
      split at hwrite
      · rename_i hdir
        cases hwrite
        have htmp : temporary path ≠ [] := fun hn => by
          have hfile : (!disk.isDirectory (temporary path)) = true := hdir.2
          rw [hn, Disk.isDirectory_nil] at hfile
          cases hfile
        split at h
        · -- the file beside the snapshot is there, and it may have the name of the snapshot's own
          cases h
          have hput := Disk.read?_put disk (Path.ofString path) (Snapshot.write copy.sorted).toUTF8 htmp
          by_cases heq : temporary path = Path.ofString path
          · exact .inr (hput.trans (if_pos heq))
          · exact .inl (hput.trans (if_neg heq))
        · cases h
      · cases hwrite

/-- Where a snapshot could not be written the next one cannot be either. -/
theorem not_writable_of_error {path : String} {copy : Records} {disk disk' : Disk} {f : Failure}
    (h : writeSnapshot path copy disk = (.error f, disk')) : ¬Writable path disk' := by
  intro hw
  rw [writeSnapshot, Disk.write?, Path.parent_withExtension] at h
  split at h
  · rename_i hwrite
    cases h
    rw [if_pos ⟨hw.parent, by rw [hw.beside]; rfl⟩] at hwrite
    cases hwrite
  · rename_i disk₁ hwrite
    split at hwrite
    · cases hwrite
      split at h
      · rename_i hrename
        cases h
        rw [Disk.rename?, Disk.entry?_put _ _ _ hw.temporary_ne_nil, if_pos rfl] at hrename
        simp only [hw.parent, hw.target, Bool.not_false, and_self, if_true] at hrename
        cases hrename
      · cases h
    · cases hwrite

/-- Where one snapshot was written the next one can be. -/
theorem Writable.written {path : String} {disk : Disk} (h : Writable path disk) (copy : Records) :
    Writable path (written path copy disk) := by
  refine ⟨?_, ?_, ?_⟩
  · rw [Disk.isDirectory_congr (e := disk), h.parent]
    rw [h.entry?_written, if_neg (Path.parent_ne h.ne_nil).symm, if_neg]
    rw [← Path.parent_withExtension _ "tmp"]
    exact (Path.parent_ne h.temporary_ne_nil).symm
  · rw [Disk.isDirectory, h.entry?_written, if_pos rfl]
  · rw [Disk.isDirectory, h.entry?_written]
    split
    · rename_i heq
      split at heq
      · cases heq
      · rw [if_pos rfl] at heq
        cases heq
    · rfl

end Store
end ApprovalGate
