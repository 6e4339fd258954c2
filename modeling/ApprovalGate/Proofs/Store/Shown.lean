import ApprovalGate.Proofs.Store.Reopen
import ApprovalGate.Proofs.Store.Reread
/-!
# What a store shows, now and later

A store shows its records to whoever has it, and its file to whoever opens it next.  What holds of all records that are
shown (`Store.Bears`) holds on through every change, whether it goes through or fails half-way, when it holds of what
is put; and it holds when the file is opened again.  It must be a property that a record keeps when it is written and
read, since what came from others can come back as something else.  One of waits alone is one such (`Store.Shows`).
-/
namespace ApprovalGate

namespace Records

variable {Q : WaitRecord → Prop} {rs : Records}

theorem held_insert (h : ∀ t r, rs.get? t = some r → Q r) {r : WaitRecord} (hr : Q r) :
    ∀ t q, (rs.insert r.token r).get? t = some q → Q q := by
  intro t q hq
  rw [Table.get?_insert] at hq
  split at hq
  · cases hq
    exact hr
  · exact h t q hq

theorem held_erase (h : ∀ t r, rs.get? t = some r → Q r) (u : Token) :
    ∀ t q, (rs.erase u).get? t = some q → Q q := by
  intro t q hq
  rw [Table.get?_erase] at hq
  split at hq
  · cases hq
  · exact h t q hq

/-- A table of records is empty only when there are none. -/
theorem eq_nil_of_ofList : ∀ {rs : List WaitRecord}, ofList rs = Table.empty → rs = []
  | [], _ => rfl
  | r :: rs, h => by
    have stays (rs : List WaitRecord) (t : Records) (ht : (t.get? r.token).isSome = true) :
        ((rs.foldl (fun t r => t.insert r.token r) t).get? r.token).isSome = true := by
      induction rs generalizing t with
      | nil => exact ht
      | cons q rs ih =>
        refine ih _ ?_
        rw [Table.get?_insert]
        split
        · rfl
        · exact ht
    have found := stays rs (Table.empty.insert r.token r) (by rw [Table.get?_insert_self]; rfl)
    have h : rs.foldl (fun t r => t.insert r.token r) (Table.empty.insert r.token r) = Table.empty := h
    rw [h] at found
    cases found

end Records

namespace Store

/-- Whether a property of records holds of those in a store, and of those that its file is read as. -/
structure Bears (Q : WaitRecord → Prop) (s : Store) : Prop where
  sound : s.records.Sound
  held : ∀ t r, s.records.get? t = some r → Q r
  filed : ∀ path copy disk bytes rs, s.medium = .file path copy disk →
    disk.read? (Path.ofString path) = some bytes → Snapshot.read bytes = .ok rs → ∀ r ∈ rs, Q r

/-- Whether a property of waits holds of the records in a store, and of those that its file is read as. -/
structure Shows (P : Wait → Prop) (s : Store) : Prop where
  sound : s.records.Sound
  held : ∀ t r, s.records.get? t = some r → P r.wait
  filed : ∀ path copy disk bytes rs, s.medium = .file path copy disk →
    disk.read? (Path.ofString path) = some bytes → Snapshot.read bytes = .ok rs → ∀ r ∈ rs, P r.wait

/-- What can become of a store from outside: what it turns down can be something else, and so can all that is on its
disk but for the snapshot. -/
inductive Aside : Store → Store → Prop where
  | memory (records : Records) (refuses refuses' : Refusals) :
    Aside ⟨.memory records, refuses⟩ ⟨.memory records, refuses'⟩
  | file {path : String} {copy : Records} {disk disk' : Disk} (refuses refuses' : Refusals) :
    disk'.read? (Path.ofString path) = disk.read? (Path.ofString path) →
    Aside ⟨.file path copy disk, refuses⟩ ⟨.file path copy disk', refuses'⟩

/-! ## Properties of records -/

section Records

variable {Q : WaitRecord → Prop} {s s' : Store}

theorem Bears.aside (h : s.Bears Q) (a : Aside s s') : s'.Bears Q := by
  cases a with
  | memory records refuses refuses' =>
    exact ⟨h.sound, h.held, fun _ _ _ _ _ hm => by cases hm⟩
  | file refuses refuses' hread =>
    refine ⟨h.sound, h.held, fun _ _ _ bytes rs hm hb => ?_⟩
    cases hm
    exact h.filed _ _ _ bytes rs rfl (hread ▸ hb)

section Keeps

variable (keeps : ∀ {r r' : WaitRecord}, r.Same r' → Q r → Q r')
include keeps

theorem borne_of_read {rs : Records} (hs : rs.Sound) (h : ∀ t r, rs.get? t = some r → Q r)
    {found : List WaitRecord} (hread : Snapshot.read (Snapshot.write rs.sorted).toUTF8 = .ok found) :
    ∀ r ∈ found, Q r := by
  intro r hr
  obtain ⟨q, hq, hsame⟩ := Snapshot.same_of_read hread r hr
  exact keeps hsame (h _ q ((Records.mem_sortedBy hs).1 hq))

/-- A store whose file was written shows its records, there too. -/
theorem bears_of_saved (hs : s.records.Sound) (h : ∀ t r, s.records.get? t = some r → Q r) (saved : s.Saved) :
    s.Bears Q := by
  refine ⟨hs, h, fun path copy disk bytes rs hm hb hread => ?_⟩
  obtain ⟨medium, refuses⟩ := s
  cases hm
  have hsaved : disk.read? (Path.ofString path) = some (Snapshot.write copy.sorted).toUTF8 := saved
  cases hb.symm.trans hsaved
  exact borne_of_read keeps hs h hread

theorem Bears.commit {path : String} {copy copy' : Records} {disk : Disk} {refuses : Refusals} {medium : Medium}
    {result : Outcome Unit} (h : Bears Q ⟨.file path copy disk, refuses⟩) (hs : copy'.Sound)
    (hcopy : ∀ t r, copy'.get? t = some r → Q r) (hc : Store.commit path copy' disk = (result, medium)) :
    Bears Q ⟨medium, refuses⟩ := by
  rcases hw : writeSnapshot path copy' disk with ⟨result', disk'⟩
  rw [Store.commit, hw] at hc
  cases hc
  refine ⟨hs, hcopy, fun _ _ _ bytes rs hm hb hread => ?_⟩
  cases hm
  rcases writeSnapshot_read? hw with hold | hnew
  · exact h.filed _ _ _ bytes rs rfl (hold ▸ hb) hread
  · cases hb.symm.trans hnew
    exact borne_of_read keeps hs hcopy hread

theorem Bears.put (h : s.Bears Q) {r : WaitRecord} (hr : Q r) : (s.put r).2.Bears Q := by
  obtain ⟨medium, refuses⟩ := s
  rw [Store.put]
  split
  · exact h
  · cases medium with
    | memory records =>
      exact ⟨h.sound.insert r, Records.held_insert h.held hr, fun _ _ _ _ _ hm => by cases hm⟩
    | file path copy disk => exact h.commit keeps (h.sound.insert r) (Records.held_insert h.held hr) rfl

theorem Bears.delete (h : s.Bears Q) (t : Token) : (s.delete t).2.Bears Q := by
  obtain ⟨medium, refuses⟩ := s
  rw [Store.delete]
  split
  · exact h
  · cases medium with
    | memory records => exact ⟨h.sound.erase t, Records.held_erase h.held t, fun _ _ _ _ _ hm => by cases hm⟩
    | file path copy disk =>
      simp only
      split
      · exact h.commit keeps (h.sound.erase t) (Records.held_erase h.held t) rfl
      · exact h

end Keeps

/-- **What a store shows, it shows when it is opened again.** -/
theorem Bears.reopen (h : s.Bears Q) (hr : s.reopen = .ok s') : s'.Bears Q := by
  obtain ⟨medium, refuses⟩ := s
  unfold Store.reopen at hr
  cases medium with
  | memory records =>
    cases hr
    exact h
  | file path copy disk =>
    simp only at hr
    cases ho : openFile path disk with
    | error f =>
      rw [ho] at hr
      cases hr
    | ok medium =>
      rw [ho] at hr
      cases hr
      obtain ⟨disk', hmade, found⟩ := found_of_openFile ho
      have same : disk'.read? (Path.ofString path) = disk.read? (Path.ofString path) :=
        Disk.read?_makeDirsFrom? _ _ hmade
      have sound := openFile_sound refuses ho
      have filed : ∀ bytes rs, disk'.read? (Path.ofString path) = some bytes → Snapshot.read bytes = .ok rs →
          ∀ r ∈ rs, Q r := fun bytes rs hb => h.filed path copy disk bytes rs rfl (same ▸ hb)
      cases found with
      | @file bytes rs hc hb hread =>
        refine ⟨sound, fun t r hget => ?_, fun _ _ _ bytes rs hm hb => ?_⟩
        · refine filed bytes rs hb hread r ((Records.mem_of_get?_foldl_insert hget).resolve_right ?_)
          intro hget
          cases hget
        · cases hm
          exact filed bytes rs hb
      | nothing hc =>
        refine ⟨sound, fun t r hget => ?_, fun _ _ _ bytes rs hm hb => ?_⟩
        · cases hget
        · cases hm
          exact filed bytes rs hb

theorem Bears.mono {Q' : WaitRecord → Prop} (h : s.Bears Q) (hQ : ∀ r, Q r → Q' r) : s.Bears Q' :=
  ⟨h.sound, fun t r hr => hQ r (h.held t r hr), fun path copy disk bytes rs hm hb hread r hr =>
    hQ r (h.filed path copy disk bytes rs hm hb hread r hr)⟩

/-- A store that shows no record. -/
def Blank (s : Store) : Prop := s.Bears fun _ => False

theorem blank_memory (refuses : Refusals) : Blank ⟨.memory Table.empty, refuses⟩ :=
  ⟨Records.sound_empty, fun _ _ h => (nomatch h), fun _ _ _ _ _ h => (nomatch h)⟩

/-- A file that is opened and found to have no record is blank, whether or not it was there. -/
theorem blank_of_openFile {path : String} {disk disk' : Disk}
    (h : openFile path disk = .ok (.file path Table.empty disk')) (refuses : Refusals) :
    Blank ⟨.file path Table.empty disk', refuses⟩ := by
  obtain ⟨disk'', -, found⟩ := found_of_openFile h
  refine ⟨Records.sound_empty, fun _ _ h => (nomatch h), fun _ _ _ bytes rs hm hb hread r hr => ?_⟩
  cases hm
  generalize hcopy : (Table.empty : Records) = copy at found
  cases found with
  | file hc hb' hread' =>
    cases hb.symm.trans hb'
    cases hread.symm.trans hread'
    cases Records.eq_nil_of_ofList hcopy.symm
    cases hr
  | nothing hc =>
    -- nothing is read of a file that is not there
    have none : disk'.entry? (Path.ofString path) = none := by simpa [Disk.contains] using hc
    rw [Disk.read?, none] at hb
    cases hb

end Records

/-! ## Properties of waits -/

variable {P : Wait → Prop} {s s' : Store}

theorem shows_iff_bears : s.Shows P ↔ s.Bears fun r => P r.wait :=
  ⟨fun h => ⟨h.sound, h.held, h.filed⟩, fun h => ⟨h.sound, h.held, h.filed⟩⟩

theorem Shows.aside (h : s.Shows P) (a : Aside s s') : s'.Shows P := shows_iff_bears.2 ((shows_iff_bears.1 h).aside a)

theorem Shows.reopen (h : s.Shows P) (hr : s.reopen = .ok s') : s'.Shows P :=
  shows_iff_bears.2 ((shows_iff_bears.1 h).reopen hr)

section Keeps

variable (keeps : ∀ {w w' : Wait}, w.Same w' → P w → P w')
include keeps

theorem shows_of_saved (hs : s.records.Sound) (h : ∀ t r, s.records.get? t = some r → P r.wait) (saved : s.Saved) :
    s.Shows P := shows_iff_bears.2 (bears_of_saved (fun same => keeps same.wait) hs h saved)

theorem Shows.put (h : s.Shows P) {r : WaitRecord} (hr : P r.wait) : (s.put r).2.Shows P :=
  shows_iff_bears.2 ((shows_iff_bears.1 h).put (fun same => keeps same.wait) hr)

theorem Shows.delete (h : s.Shows P) (t : Token) : (s.delete t).2.Shows P :=
  shows_iff_bears.2 ((shows_iff_bears.1 h).delete (fun same => keeps same.wait) t)

end Keeps

end Store
end ApprovalGate
