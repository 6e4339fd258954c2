import ApprovalGate.Proofs.Store
import ApprovalGate.Proofs.Store.Snapshot
/-!
# Opening a snapshot file again

A store that was opened on a file has all directories on the way to it, and keeps them.  So when it is opened again
its file is read: one that is still as it was gives the same store (`reopen_opened`), and one that was written has the
store's records if they are shallow, and is corrupt if not (`reopen_saved`).
-/
namespace ApprovalGate

namespace Disk

/-- Whether a path and all on the way to it are directories. -/
def HasDirs (d : Disk) (p : Path) : Prop := ∀ q, q <+: p → d.isDirectory q = true

theorem makeDirsFrom?_self (d : Disk) : ∀ (rest : List String) {done : Path}, d.HasDirs (done ++ rest) →
    d.makeDirsFrom? done rest = some d
  | [], _, _ => rfl
  | name :: rest, done, h => by
    have happ : done ++ [name] ++ rest = done ++ name :: rest := by rw [List.append_assoc]; rfl
    unfold makeDirsFrom?
    simp only
    rw [if_pos (h _ ⟨rest, happ⟩), makeDirsFrom?_self d rest (happ ▸ h)]

theorem hasDirs_concat {d : Disk} {done : Path} {name : String} :
    d.HasDirs (done ++ [name]) ↔ d.HasDirs done ∧ d.isDirectory (done ++ [name]) = true := by
  constructor
  · intro h
    exact ⟨fun q hq => h q (hq.trans (List.prefix_append _ _)), h _ List.prefix_rfl⟩
  · rintro ⟨hd, hn⟩ q hq
    rcases List.prefix_concat_iff.1 hq with rfl | hq
    · exact hn
    · exact hd q hq

theorem hasDirs_makeDirsFrom? : ∀ (rest : List String) {d d' : Disk} {done : Path}, d.HasDirs done →
    d.makeDirsFrom? done rest = some d' → d'.HasDirs (done ++ rest)
  | [], _, _, done, hd, h => by
    cases h
    rwa [List.append_nil]
  | name :: rest, d, d', done, hd, h => by
    have happ : done ++ [name] ++ rest = done ++ name :: rest := by rw [List.append_assoc]; rfl
    unfold makeDirsFrom? at h
    simp only at h
    rw [← happ]
    by_cases hn : d.isDirectory (done ++ [name]) = true
    · rw [if_pos hn] at h
      exact hasDirs_makeDirsFrom? rest (hasDirs_concat.2 ⟨hd, hn⟩) h
    · rw [if_neg hn] at h
      obtain ⟨made, hmade, h⟩ := Option.bind_eq_some_iff.1 h
      refine hasDirs_makeDirsFrom? rest (fun q hq => ?_) h
      have hne : done ++ [name] ≠ [] := by simp
      unfold makeDir? at hmade
      split at hmade
      · cases hmade
        rw [isDirectory, entry?_put d q _ hne]
        by_cases heq : done ++ [name] = q
        · rw [if_pos heq]
        · rw [if_neg heq]
          rcases List.prefix_concat_iff.1 hq with hq | hq
          · exact absurd hq.symm heq
          · exact hd q hq
      · cases hmade

theorem hasDirs_makeDirs? {d d' : Disk} {p : Path} (h : d.makeDirs? p = some d') : d'.HasDirs p := by
  refine @hasDirs_makeDirsFrom? p d d' [] (fun q hq => ?_) h
  rw [List.prefix_nil.1 hq]
  rfl

/-- Making directories leaves the files as they are. -/
theorem read?_makeDirsFrom? (q : Path) : ∀ (rest : List String) {d d' : Disk} {done : Path},
    d.makeDirsFrom? done rest = some d' → d'.read? q = d.read? q
  | [], _, _, _, h => by
    cases h
    rfl
  | name :: rest, d, d', done, h => by
    unfold makeDirsFrom? at h
    simp only at h
    split at h
    · exact read?_makeDirsFrom? q rest h
    · obtain ⟨made, hmade, h⟩ := Option.bind_eq_some_iff.1 h
      refine (read?_makeDirsFrom? q rest h).trans ?_
      unfold makeDir? at hmade
      split at hmade
      · rename_i hnew
        cases hmade
        have hne : done ++ [name] ≠ [] := by simp
        have hnone : d.entry? (done ++ [name]) = none := by simpa [contains] using hnew.2
        rw [read?, read?, entry?_put d q _ hne]
        by_cases heq : done ++ [name] = q
        · rw [if_pos heq, ← heq, hnone]
        · rw [if_neg heq]
      · cases hmade

theorem makeDirs?_self {d : Disk} {p : Path} (h : d.HasDirs p) : d.makeDirs? p = some d :=
  @makeDirsFrom?_self d p [] h

end Disk

theorem Path.not_prefix_parent {p : Path} (h : p ≠ []) : ¬p <+: p.parent := by
  intro hp
  have := hp.length_le
  rw [parent, List.length_dropLast] at this
  have := List.length_pos_iff.2 h
  omega

namespace Records

/-- The table of records with different tokens has each of them. -/
theorem get?_foldl_insert : ∀ {rs : List WaitRecord} (t : Records), (rs.map WaitRecord.token).Nodup →
    (∀ r ∈ rs, (rs.foldl (fun t r => t.insert r.token r) t).get? r.token = some r) ∧
      ∀ u, u ∉ rs.map WaitRecord.token → (rs.foldl (fun t r => t.insert r.token r) t).get? u = t.get? u
  | [], _, _ => ⟨fun _ h => absurd h List.not_mem_nil, fun _ _ => rfl⟩
  | r :: rs, t, hn => by
    obtain ⟨hr, hn⟩ := List.nodup_cons.1 hn
    obtain ⟨hin, hout⟩ := get?_foldl_insert (t.insert r.token r) hn
    rw [List.foldl_cons]
    constructor
    · intro q hq
      rcases List.mem_cons.1 hq with rfl | hq
      · rw [hout _ hr, Table.get?_insert_self]
      · exact hin q hq
    · intro u hu
      rw [List.map_cons, List.mem_cons, not_or] at hu
      rw [hout u hu.2, Table.get?_insert_of_ne _ _ (Ne.symm hu.1)]

theorem mem_of_get?_foldl_insert : ∀ {rs : List WaitRecord} {t : Records} {u : Token} {r : WaitRecord},
    (rs.foldl (fun t r => t.insert r.token r) t).get? u = some r → r ∈ rs ∨ t.get? u = some r
  | [], _, _, _, h => .inr h
  | q :: rs, t, u, r, h => by
    rw [List.foldl_cons] at h
    rcases mem_of_get?_foldl_insert h with h | h
    · exact .inl (List.mem_cons_of_mem _ h)
    · rw [Table.get?_insert] at h
      split at h
      · cases h
        exact .inl List.mem_cons_self
      · exact .inr h

theorem mem_of_mem_ofList {rs : List WaitRecord} {r : WaitRecord} (h : r ∈ (ofList rs).sorted) : r ∈ rs := by
  have hr := (mem_sortedBy (sound_ofList rs)).1 h
  exact (mem_of_get?_foldl_insert hr).resolve_right (by intro h; cases h)

/-- **The records of a store are in the table of their list.** -/
theorem sorted_ofList_sorted {rs : Records} (s : rs.Sound) : (ofList rs.sorted).sorted = rs.sorted := by
  obtain ⟨hin, hout⟩ := get?_foldl_insert Table.empty (nodup_sortedBy s _)
  refine sorted_congr (sound_ofList _) s fun t => ?_
  cases hr : rs.get? t with
  | some r =>
    have hk := s.keyed hr
    rw [← hk] at hr ⊢
    exact hin r ((mem_sortedBy s).2 hr)
  | none =>
    refine hout t fun ht => ?_
    obtain ⟨r, hr', rfl⟩ := List.mem_map.1 ht
    rw [(mem_sortedBy s).1 hr'] at hr
    cases hr

end Records

namespace Store

theorem Writable.hasDirs_written {path : String} {disk : Disk} (h : Writable path disk) (copy : Records)
    (hd : disk.HasDirs (Path.ofString path).parent) :
    (Store.written path copy disk).HasDirs (Path.ofString path).parent := by
  intro q hq
  rw [Disk.isDirectory_congr (e := disk), hd q hq]
  rw [h.entry?_written, if_neg, if_neg]
  · rintro rfl
    rw [← Path.parent_withExtension _ "tmp"] at hq
    exact Path.not_prefix_parent h.temporary_ne_nil hq
  · rintro rfl
    exact Path.not_prefix_parent h.ne_nil hq

/-- A snapshot that could not be written leaves all directories. -/
theorem hasDirs_of_error {path : String} {copy : Records} {disk disk' : Disk} {f : Failure}
    (h : writeSnapshot path copy disk = (.error f, disk')) (hd : disk.HasDirs (Path.ofString path).parent) :
    disk'.HasDirs (Path.ofString path).parent := by
  rw [writeSnapshot, Disk.write?] at h
  split at h
  · cases h
    exact hd
  · rename_i disk₁ hwrite
    split at hwrite
    · rename_i hdir
      cases hwrite
      have htmp : temporary path ≠ [] := fun hn => by
        have hfile : (!disk.isDirectory (temporary path)) = true := hdir.2
        rw [hn, Disk.isDirectory_nil] at hfile
        cases hfile
      split at h
      · cases h
        intro q hq
        rw [Disk.isDirectory_congr (e := disk), hd q hq]
        rw [Disk.entry?_put _ _ _ htmp, if_neg]
        rintro rfl
        rw [← Path.parent_withExtension _ "tmp"] at hq
        exact Path.not_prefix_parent htmp hq
      · cases h
    · cases hwrite

/-- A store on a snapshot file whose directories are there. -/
def Rooted (path : String) (s : Store) : Prop :=
  ∃ copy disk, s.medium = .file path copy disk ∧ disk.HasDirs (Path.ofString path).parent

theorem Rooted.listing {path : String} {s : Store} (h : s.Rooted path) (happens : TokenOrder) :
    s.listing happens = .byText := by
  obtain ⟨copy, disk, hm, -⟩ := h
  rw [Store.listing, hm]

theorem Rooted.put {path : String} {s : Store} (h : s.Rooted path) {r : WaitRecord} (hok : (s.put r).1 = .ok ()) :
    (s.put r).2.Rooted path := by
  obtain ⟨medium, refuses⟩ := s
  obtain ⟨copy, disk, rfl, hd⟩ := h
  rw [Store.put] at hok ⊢
  split at hok
  · cases hok
  · rename_i hp
    have hw := writable_of_commit hok
    rw [if_neg hp]
    simp only [commit_writable hw]
    exact ⟨_, _, rfl, hw.hasDirs_written _ hd⟩

theorem Rooted.delete {path : String} {s : Store} (h : s.Rooted path) {t : Token} (hok : (s.delete t).1 = .ok ()) :
    (s.delete t).2.Rooted path := by
  obtain ⟨medium, refuses⟩ := s
  obtain ⟨copy, disk, rfl, hd⟩ := h
  rw [Store.delete] at hok ⊢
  split at hok
  · cases hok
  · rename_i hr
    rw [if_neg hr]
    simp only at hok ⊢
    split at hok
    · rename_i hc
      have hw := writable_of_commit hok
      simp only [if_pos hc, commit_writable hw]
      exact ⟨_, _, rfl, hw.hasDirs_written _ hd⟩
    · rename_i hc
      rw [if_neg hc]
      exact ⟨_, _, rfl, hd⟩

/-- What opening a file finds once its directories are there. -/
inductive Found (path : String) (disk : Disk) : Medium → Prop where
  | file {bytes : ByteArray} {rs : List WaitRecord} : disk.contains (Path.ofString path) = true →
      disk.read? (Path.ofString path) = some bytes → Snapshot.read bytes = .ok rs →
      Found path disk (.file path (Records.ofList rs) disk)
  | nothing : disk.contains (Path.ofString path) = false → Found path disk (.file path Table.empty disk)

theorem found_of_openFile {path : String} {disk : Disk} {medium : Medium} (h : openFile path disk = .ok medium) :
    ∃ disk', disk.makeDirs? (Path.ofString path).parent = some disk' ∧ Found path disk' medium := by
  rw [openFile] at h
  cases hd : disk.makeDirs? (Path.ofString path).parent with
  | none =>
    simp only [hd] at h
    cases h
  | some disk' =>
    refine ⟨disk', rfl, ?_⟩
    simp only [hd] at h
    split at h
    · rename_i hc
      cases hb : disk'.read? (Path.ofString path) with
      | none =>
        simp only [hb] at h
        cases h
      | some bytes =>
        simp only [hb] at h
        cases hs : Snapshot.read bytes with
        | error fault =>
          simp only [hs] at h
          cases h
        | ok rs =>
          simp only [hs] at h
          cases h
          exact .file hc hb hs
    · rename_i hc
      cases h
      exact .nothing (Bool.eq_false_iff.2 hc)

theorem Found.medium {path : String} {disk : Disk} {medium : Medium} (h : Found path disk medium) :
    ∃ copy, medium = .file path copy disk := by
  cases h <;> exact ⟨_, rfl⟩

theorem Found.openFile {path : String} {disk : Disk} {medium : Medium} (h : Found path disk medium)
    (hd : disk.HasDirs (Path.ofString path).parent) : openFile path disk = .ok medium := by
  unfold Store.openFile
  simp only [Disk.makeDirs?_self hd]
  cases h with
  | file hc hb hs => rw [if_pos hc, hb]; simp only [hs]
  | nothing hc => rw [if_neg (by rw [hc]; decide)]

theorem rooted_of_openFile {path : String} {disk : Disk} {medium : Medium} (h : openFile path disk = .ok medium)
    (refuses : Refusals) : Rooted path ⟨medium, refuses⟩ := by
  obtain ⟨disk', hd, found⟩ := found_of_openFile h
  obtain ⟨copy, rfl⟩ := found.medium
  exact ⟨copy, disk', rfl, Disk.hasDirs_makeDirs? hd⟩

/-- **A store that is as it was opened is opened again as it is.** -/
theorem reopen_opened {path : String} {disk : Disk} {medium : Medium} (h : openFile path disk = .ok medium)
    (refuses : Refusals) : reopen ⟨medium, refuses⟩ = .ok ⟨medium, refuses⟩ := by
  obtain ⟨disk', hd, found⟩ := found_of_openFile h
  have again := found.openFile (Disk.hasDirs_makeDirs? hd)
  obtain ⟨copy, rfl⟩ := found.medium
  rw [reopen]
  simp only [again]
  rfl

/-- **What is opened is held as values are, and shallow.** -/
theorem held_of_openFile {path : String} {disk : Disk} {medium : Medium} (h : openFile path disk = .ok medium)
    (refuses : Refusals) : ∀ r ∈ (Store.mk medium refuses).records.sorted, r.Held ∧ r.Shallow := by
  obtain ⟨disk', -, found⟩ := found_of_openFile h
  intro r hr
  cases found with
  | file hc hb hs => exact Snapshot.held_of_read hs r (Records.mem_of_mem_ofList hr)
  | nothing hc =>
    have hr : r ∈ ([] : List WaitRecord) := List.mem_mergeSort.1 hr
    cases hr

theorem Reliable.writable {path : String} {copy : Records} {disk : Disk} {refuses : Refusals}
    (h : Reliable ⟨.file path copy disk, refuses⟩) :
    Writable path disk ∧ refuses.put = false ∧ refuses.delete = false := by
  let r := WaitRecord.ofWait (Wait.start default default .epoch)
  have hput : (Store.put ⟨.file path copy disk, refuses⟩ r).1 = .ok () := (h.write (.put r)).1
  have hdelete : (Store.delete ⟨.file path copy disk, refuses⟩ default).1 = .ok () := (h.write (.delete default)).1
  unfold Store.put at hput
  unfold Store.delete at hdelete
  split at hput
  · cases hput
  · split at hdelete
    · cases hdelete
    · exact ⟨writable_of_commit hput, Bool.eq_false_iff.2 ‹_›, Bool.eq_false_iff.2 ‹_›⟩

/-- A store that was opened on the file of another one and has the same records. -/
structure Again (s s' : Store) : Prop where
  opens : s.reopen = .ok s'
  made : s'.Made
  reliable : s.Reliable → s'.Reliable
  refuses : s'.refuses = s.refuses
  listing : s'.listing = s.listing
  records : s'.records.sorted = s.records.sorted

/-- **A store whose file was written** is opened again with its records, if they are shallow, and not at all if one is
not. -/
theorem reopen_saved {path : String} {s : Store} (h : s.Rooted path) (hs : s.Saved) (hsound : s.records.Sound)
    (hh : ∀ r ∈ s.records.sorted, r.Held) (hst : ∀ r ∈ s.records.sorted, r.Steady) :
    ((∀ r ∈ s.records.sorted, r.Shallow) → ∃ s', s.Again s') ∧
      ((¬∀ r ∈ s.records.sorted, r.Shallow) → s.reopen = .error (.store path Snapshot.Fault.corrupt.message)) := by
  obtain ⟨medium, refuses⟩ := s
  obtain ⟨copy, disk, rfl, hd⟩ := h
  have hread : disk.read? (Path.ofString path) = some (Snapshot.write copy.sorted).toUTF8 := hs
  have hc : disk.contains (Path.ofString path) = true := by
    unfold Disk.read? at hread
    unfold Disk.contains
    split at hread
    · rename_i he
      rw [he]
      rfl
    · cases hread
  obtain ⟨hok, hbad⟩ := @Snapshot.read_write copy.sorted hh hst
  constructor
  · intro hsh
    have hopen := (Found.file hc hread (hok hsh)).openFile hd
    refine ⟨⟨.file path (Records.ofList copy.sorted) disk, refuses⟩, ?_, .file refuses hopen, fun hr => ?_, rfl, rfl,
      Records.sorted_ofList_sorted hsound⟩
    · unfold reopen
      simp only [hopen]
      rfl
    · obtain ⟨hw, willing⟩ := hr.writable
      exact reliable_of_writable willing rfl hw
  · intro hn
    have hopen : openFile path disk = .error (.store path Snapshot.Fault.corrupt.message) := by
      unfold openFile
      simp only [Disk.makeDirs?_self hd, if_pos hc, hread, hbad hn]
    unfold reopen
    simp only [hopen]
    rfl

/-- Whether a store is as it is opened again: one on a file has its directories, and unless no snapshot can be written
its file was just opened or holds the snapshot of its records. -/
def Settled (s : Store) : Prop :=
  match s.medium with
  | .memory _ => True
  | .file path _ disk => disk.HasDirs (Path.ofString path).parent ∧
    (Writable path disk → openFile path disk = .ok s.medium ∨ s.Saved)

theorem settled_of_openFile {path : String} {disk : Disk} {medium : Medium} (h : openFile path disk = .ok medium)
    (refuses : Refusals) : Settled ⟨medium, refuses⟩ := by
  obtain ⟨disk', hd, found⟩ := found_of_openFile h
  have hd := Disk.hasDirs_makeDirs? hd
  have again := found.openFile hd
  obtain ⟨copy, rfl⟩ := found.medium
  exact ⟨hd, fun _ => .inl again⟩

/-- Whether a snapshot is written or not, the store is settled again. -/
theorem settled_commit {path : String} {disk : Disk} (hd : disk.HasDirs (Path.ofString path).parent) (copy : Records)
    (refuses : Refusals) : Settled ⟨(commit path copy disk).2, refuses⟩ := by
  by_cases hw : Writable path disk
  · rw [commit_writable hw]
    exact ⟨hw.hasDirs_written copy hd, fun _ => .inr (hw.read?_written copy)⟩
  · have hc : (commit path copy disk).2 = .file path copy (writeSnapshot path copy disk).2 := rfl
    rw [hc]
    cases hr : writeSnapshot path copy disk with
    | mk result disk' => cases result with
      | error f => exact ⟨hasDirs_of_error hr hd, fun hw' => absurd hw' (not_writable_of_error hr)⟩
      | ok _ => exact absurd (writeSnapshot_ok_iff.1 hr).1 hw

/-- **Every store is settled.** -/
theorem Made.settled {s : Store} (h : s.Made) : s.Settled := by
  induction h with
  | memory => trivial
  | file refuses ho => exact settled_of_openFile ho refuses
  | @put s r _ ih =>
    obtain ⟨medium, refuses⟩ := s
    rw [Store.put]
    split
    · exact ih
    · cases medium with
      | memory records => trivial
      | file path copy disk => exact settled_commit ih.1 _ refuses
  | @delete s t _ ih =>
    obtain ⟨medium, refuses⟩ := s
    rw [Store.delete]
    split
    · exact ih
    · cases medium with
      | memory records => trivial
      | file path copy disk =>
        simp only
        split
        · exact settled_commit ih.1 _ refuses
        · exact ih
  | refuses _ _ ih => exact ih
  | @reopen s s' _ ho ih =>
    rw [Store.reopen] at ho
    split at ho
    · cases ho
      exact ih
    · rename_i path copy disk _
      cases hf : openFile path disk with
      | error f =>
        rw [hf] at ho
        cases ho
      | ok medium =>
        rw [hf] at ho
        cases ho
        exact settled_of_openFile hf s.refuses

/-- **A store that takes every change is opened again with its records**: memory at any time, and a file if they are
shallow. -/
theorem Made.again {s : Store} (made : s.Made) (reliable : s.Reliable)
    (h : s.InMemory ∨ ∀ r ∈ s.records.sorted, r.Held ∧ r.Steady ∧ r.Shallow) : ∃ s', s.Again s' := by
  have self (hopen : s.reopen = .ok s) : ∃ s', s.Again s' := ⟨s, hopen, made, id, rfl, rfl, rfl⟩
  have settled := made.settled
  have sound := made.sound
  obtain ⟨medium, refuses⟩ := s
  cases medium with
  | memory records => exact self rfl
  | file path copy disk =>
    have all := h.resolve_left (by rintro ⟨records, hm⟩; cases hm)
    rcases settled.2 reliable.writable.1 with hopen | saved
    · refine self ?_
      rw [Store.reopen]
      simp only [hopen]
      rfl
    · exact (reopen_saved ⟨_, _, rfl, settled.1⟩ saved sound (fun r hr => (all r hr).1) fun r hr => (all r hr).2.1).1
        fun r hr => (all r hr).2.2

end Store

end ApprovalGate
