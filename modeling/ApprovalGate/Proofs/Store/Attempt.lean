import Mathlib.Data.List.Induction
import ApprovalGate.Proofs.Store
/-!
# Calls on a store whose writes may fail

Each call on a store that keeps its records in a file finds the disk as it is then, and the snapshot can be written
there or not.  The store's own copy is changed first, so what the store loads is what all calls came to, also those
that failed, and the next snapshot that is written has it all (`Filed.attempts`).  A failed call is without effect
exactly when it puts a record that is held already (`truthful_iff_failed_calls_change_nothing`).
-/
namespace ApprovalGate

namespace Records

/-- The records after a change that is made. -/
def change (rs : Records) : Store.Write → Records
  | .put r => rs.insert r.token r
  | .delete t => rs.erase t

def changeAll (rs : Records) (ws : List Store.Write) : Records := ws.foldl change rs

theorem Sound.change {rs : Records} (s : rs.Sound) (w : Store.Write) : (rs.change w).Sound := by
  cases w with
  | put r => exact s.insert r
  | delete t => exact s.erase t

theorem Sound.changeAll {rs : Records} (s : rs.Sound) (ws : List Store.Write) : (rs.changeAll ws).Sound := by
  induction ws generalizing rs with
  | nil => exact s
  | cons w ws ih => exact ih (s.change w)

theorem change_congr {rs rs' : Records} (h : ∀ t, rs.get? t = rs'.get? t) (w : Store.Write) (t : Token) :
    (rs.change w).get? t = (rs'.change w).get? t := by
  cases w with
  | put r => simp only [change, Table.get?_insert, h]
  | delete u => simp only [change, Table.get?_erase, h]

theorem changeAll_append (rs : Records) (ws ws' : List Store.Write) :
    rs.changeAll (ws ++ ws') = (rs.changeAll ws).changeAll ws' := List.foldl_append

theorem changeAll_concat (rs : Records) (ws : List Store.Write) (w : Store.Write) :
    rs.changeAll (ws ++ [w]) = (rs.changeAll ws).change w := changeAll_append rs ws [w]

end Records

namespace Store

/-- A call on a store, and the disk as the call finds it. -/
structure Attempt where
  write : Write
  disk : Disk

/-- The store on what its disk has become; memory has none. -/
def onDisk (s : Store) (disk : Disk) : Store :=
  match s.medium with
  | .memory _ => s
  | .file path copy _ => { s with medium := .file path copy disk }

def attempt (s : Store) (a : Attempt) : Outcome Unit × Store := (s.onDisk a.disk).write a.write

def attempts (s : Store) (as : List Attempt) : Store := as.foldl (fun s a => (s.attempt a).2) s

/-- The changes that a store said it has made. -/
def granted (s : Store) : List Attempt → List Write
  | [] => []
  | a :: as => (if (s.attempt a).1.isOk then [a.write] else []) ++ (s.attempt a).2.granted as

theorem attempts_concat (s : Store) (as : List Attempt) (a : Attempt) :
    s.attempts (as ++ [a]) = ((s.attempts as).attempt a).2 := List.foldl_append

theorem granted_concat (s : Store) (as : List Attempt) (a : Attempt) : s.granted (as ++ [a]) =
    s.granted as ++ if ((s.attempts as).attempt a).1.isOk then [a.write] else [] := by
  induction as generalizing s with
  | nil => exact List.append_nil _
  | cons b as ih =>
    rw [List.cons_append, granted, granted, ih, List.append_assoc]
    rfl

/-- Whether the file of a store holds the snapshot of some records. -/
def FileHolds (s : Store) (rs : Records) : Prop :=
  match s.medium with
  | .memory _ => True
  | .file path _ disk => disk.read? (Path.ofString path) = some (Snapshot.write rs.sorted).toUTF8

/-- What a store shows after some calls is what it said it did, and nothing else: in the records that it loads, and in
its file when the last call has written it.  A call that goes through without writing finds nothing to do. -/
def Truthful (s : Store) (as : List Attempt) : Prop :=
  (∀ happens, (s.attempts as).load happens = .ok (s.records.changeAll (s.granted as)).sorted) ∧
  ∀ bs a, as = bs ++ [a] → ((s.attempts bs).attempt a).1.isOk = true →
    s.attempts as = (s.attempts bs).onDisk a.disk ∨ (s.attempts as).FileHolds (s.records.changeAll (s.granted as))

/-- A store on a file that turns nothing down, and its copy of the records. -/
structure Filed (s : Store) (copy : Records) : Prop where
  medium : ∃ path disk, s.medium = .file path copy disk
  refuses : s.refuses = {}
  sound : copy.Sound

namespace Filed

variable {s : Store} {copy : Records}

theorem records (f : Filed s copy) : s.records = copy := by
  obtain ⟨path, disk, hm⟩ := f.medium
  simp only [Store.records, hm]

theorem load (f : Filed s copy) (happens : TokenOrder) : s.load happens = .ok copy.sorted := by
  obtain ⟨path, disk, hm⟩ := f.medium
  exact load_eq_ok.2 ⟨by rw [f.refuses], by rw [f.records, listing, hm]⟩

/-- **One call**: its change is made in the copy whatever the call says.  When it goes through, the file has the copy
too, or there was nothing to do; when it fails, there was. -/
theorem attempt (f : Filed s copy) (a : Attempt) : ∃ copy', Filed (s.attempt a).2 copy' ∧
    (∀ t, copy'.get? t = (copy.change a.write).get? t) ∧
    ((s.attempt a).1.isOk = true → (s.attempt a).2 = s.onDisk a.disk ∨ (s.attempt a).2.FileHolds copy') ∧
    ((s.attempt a).1.isOk = false → ∀ t, a.write = .delete t → copy.get? t ≠ none) := by
  obtain ⟨medium, refuses⟩ := s
  obtain ⟨⟨path, disk, rfl⟩, rfl, sound⟩ := f
  have committed (copy' : Records) (hok : (commit path copy' a.disk).1.isOk = true) :
      FileHolds ⟨(commit path copy' a.disk).2, {}⟩ copy' := by
    have hw : Writable path a.disk := by
      refine @writable_of_commit path copy' a.disk ?_
      cases hc : (commit path copy' a.disk).1 with
      | error f => rw [hc] at hok; cases hok
      | ok _ => rfl
    rw [commit_writable hw]
    exact hw.read?_written copy'
  obtain ⟨w, disk'⟩ := a
  cases w with
  | put r =>
    exact ⟨copy.insert r.token r, ⟨⟨path, _, rfl⟩, rfl, sound.insert r⟩, fun _ => rfl,
      fun hok => .inr (committed _ hok), fun _ t h => by cases h⟩
  | delete t =>
    simp only [Store.attempt, onDisk, write, delete, Bool.false_eq_true, if_false]
    by_cases hc : copy.contains t = true
    · simp only [hc, if_true]
      refine ⟨copy.erase t, ⟨⟨path, _, rfl⟩, rfl, sound.erase t⟩, fun _ => rfl,
        fun hok => .inr (committed _ hok), fun _ u hu => ?_⟩
      cases hu
      exact Option.isSome_iff_ne_none.1 hc
    · simp only [hc]
      refine ⟨copy, ⟨⟨path, disk', rfl⟩, rfl, sound⟩, fun u => ?_, fun _ => .inl rfl, fun h => by cases h⟩
      -- a token that is not held has nothing to erase
      have hn : copy.get? t = none := by simpa [Table.contains] using hc
      simp only [Records.change, Table.get?_erase]
      split
      · rename_i hu
        rw [hu, hn]
      · rfl

/-- **Any calls**: the store holds what all of them came to, the failed ones too. -/
theorem attempts (f : Filed s copy) (as : List Attempt) : ∃ copy', Filed (s.attempts as) copy' ∧
    ∀ t, copy'.get? t = (copy.changeAll (as.map Attempt.write)).get? t := by
  induction as using List.reverseRecOn with
  | nil => exact ⟨copy, f, fun _ => rfl⟩
  | append_singleton as a ih =>
    obtain ⟨copy', f', h'⟩ := ih
    obtain ⟨copy'', f'', h'', -⟩ := f'.attempt a
    rw [attempts_concat]
    refine ⟨copy'', f'', fun t => ?_⟩
    rw [h'', List.map_append, List.map_singleton, Records.changeAll_concat, Records.change_congr h']

/-- **What a store shows** is what its copy holds. -/
theorem load_eq_iff (f : Filed s copy) {rs : Records} (h : rs.Sound) :
    (∀ happens, s.load happens = .ok rs.sorted) ↔ ∀ t, copy.get? t = rs.get? t := by
  simp only [f.load]
  constructor
  · intro hl
    exact Records.get?_of_sorted f.sound h (Except.ok.inj (hl .byText))
  · intro hg _
    rw [Records.sorted_congr f.sound h hg]

/-- As long as the failed calls change nothing, the copy is what the calls came to that went through. -/
theorem attempts_granted (f : Filed s copy) {as : List Attempt}
    (h : ∀ p a, p ++ [a] <+: as → ((s.attempts p).attempt a).1.isOk = false →
      ∃ r, a.write = .put r ∧ (s.attempts p).records.get? r.token = some r) :
    ∃ copy', Filed (s.attempts as) copy' ∧ ∀ t, copy'.get? t = (copy.changeAll (s.granted as)).get? t := by
  induction as using List.reverseRecOn with
  | nil => exact ⟨copy, f, fun _ => rfl⟩
  | append_singleton as a ih =>
    obtain ⟨mine, fm, hm⟩ := ih fun p b hp => h p b (hp.trans (List.prefix_append as [a]))
    obtain ⟨next, fn, hn, -, -⟩ := fm.attempt a
    rw [attempts_concat, granted_concat]
    refine ⟨next, fn, fun t => ?_⟩
    cases hok : ((s.attempts as).attempt a).1.isOk with
    | true =>
      rw [if_pos rfl, Records.changeAll_concat, hn, Records.change_congr hm]
    | false =>
      obtain ⟨r, hw, hr⟩ := h as a List.prefix_rfl hok
      rw [fm.records] at hr
      rw [if_neg Bool.false_ne_true, List.append_nil, hn, ← hm, hw, Records.change, Table.get?_insert]
      split
      · rename_i ht
        rw [← ht, hr]
      · rfl

/-- A truthful store has just the records of the calls that went through. -/
theorem get?_of_truthful (f : Filed s copy) {as : List Attempt} (h : s.Truthful as) (t : Token) :
    (s.attempts as).records.get? t = (s.records.changeAll (s.granted as)).get? t := by
  obtain ⟨mine, fm, -⟩ := f.attempts as
  have hs : Records.Sound s.records := f.records ▸ f.sound
  rw [fm.records]
  exact (fm.load_eq_iff (hs.changeAll _)).1 h.1 t

end Filed

theorem filed_of_openFile {path : String} {disk : Disk} {medium : Medium} (h : openFile path disk = .ok medium) :
    ∃ copy, Filed ⟨medium, {}⟩ copy := by
  obtain ⟨rs, disk', rfl⟩ := openFile_records h
  exact ⟨_, ⟨⟨path, disk', rfl⟩, rfl, Records.sound_ofList rs⟩⟩

/-- **A store shows just what it said it did exactly as long as no failed call changes anything**, which only a put of
a record does that is held already; all along it shows what all calls came to, the failed ones too. -/
theorem truthful_iff_failed_calls_change_nothing {path : String} {disk : Disk} {medium : Medium}
    (ho : openFile path disk = .ok medium) (as : List Attempt) :
    let s : Store := ⟨medium, {}⟩
    (∀ happens, (s.attempts as).load happens = .ok (s.records.changeAll (as.map Attempt.write)).sorted) ∧
    ((∀ p, p <+: as → s.Truthful p) ↔ ∀ p a, p ++ [a] <+: as → ((s.attempts p).attempt a).1.isOk = false →
      ∃ r, a.write = .put r ∧ (s.attempts p).records.get? r.token = some r) := by
  intro s
  obtain ⟨copy, f⟩ : ∃ copy, Filed s copy := filed_of_openFile ho
  have hrec : s.records = copy := f.records
  rw [hrec]
  constructor
  · obtain ⟨mine, fm, hm⟩ := f.attempts as
    exact (fm.load_eq_iff (f.sound.changeAll _)).2 hm
  constructor
  · intro ht p a hp hok
    obtain ⟨mine, fm, -⟩ := f.attempts p
    obtain ⟨next, fn, hn, -, hdel⟩ := fm.attempt a
    -- both before and after the failed call the store shows what went through, which is the same
    have before := (ht p ((List.prefix_append p [a]).trans hp)).1
    have behind := (ht (p ++ [a]) hp).1
    rw [granted_concat, hok, if_neg Bool.false_ne_true, List.append_nil, attempts_concat, hrec] at behind
    rw [hrec] at before
    have hsound := f.sound.changeAll (s.granted p)
    have same : ∀ t, (mine.change a.write).get? t = mine.get? t := fun t => by
      rw [← hn, (fn.load_eq_iff hsound).1 behind, (fm.load_eq_iff hsound).1 before]
    rw [fm.records]
    cases hw : a.write with
    | put r =>
      refine ⟨r, rfl, ?_⟩
      have := same r.token
      rw [hw, Records.change, Table.get?_insert_self] at this
      exact this.symm
    | delete t =>
      have := same t
      rw [hw, Records.change, Table.get?_erase_self] at this
      exact absurd this.symm (hdel hok t hw)
  · intro h p hp
    have hpre : ∀ q a, q ++ [a] <+: p → _ := fun q a hq => h q a (hq.trans hp)
    obtain ⟨mine, fm, hm⟩ := f.attempts_granted hpre
    have hsound := f.sound.changeAll (s.granted p)
    rw [Truthful, hrec]
    refine ⟨(fm.load_eq_iff hsound).2 hm, fun bs a hpa hok => ?_⟩
    obtain ⟨past, fp, -⟩ := f.attempts bs
    obtain ⟨next, fn, -, hfile, -⟩ := fp.attempt a
    subst hpa
    rw [attempts_concat] at fm ⊢
    have hsame : next = mine := fn.records.symm.trans fm.records
    refine (hfile hok).imp_right fun hf => ?_
    rw [FileHolds, ← Records.sorted_congr fm.sound hsound hm, ← hsame]
    exact hf

/-- A put that fails where the record is held already changes nothing. -/
theorem failed_put_of_held_record :
    let s : Store := ⟨.file "waits.json" Table.empty .empty, {}⟩
    let blocked : Disk := ⟨[(["waits.tmp"], .directory)]⟩
    let r := WaitRecord.ofWait (Wait.start default default .epoch)
    let as : List Attempt := [⟨.put r, .empty⟩, ⟨.put r, blocked⟩]
    openFile "waits.json" .empty = .ok s.medium ∧ s.granted as = [.put r] ∧ s.Truthful as := by
  intro s blocked r as
  have ho : openFile "waits.json" .empty = .ok s.medium := rfl
  have writable : Writable "waits.json" .empty := ⟨by decide, by decide, by decide⟩
  have first : (s.attempt ⟨.put r, .empty⟩).1.isOk = true := by
    show (commit "waits.json" (Table.empty.insert r.token r) .empty).1.isOk = true
    rw [commit_writable writable]
    rfl
  have second : ((s.attempts [⟨.put r, .empty⟩]).attempt ⟨.put r, blocked⟩).1.isOk = false := rfl
  have granted : s.granted as = [.put r] := by
    show s.granted ([⟨.put r, .empty⟩] ++ [⟨.put r, blocked⟩]) = _
    rw [granted_concat, second, Store.granted, first]
    rfl
  have held : (s.attempts [⟨.put r, .empty⟩]).records.get? r.token = some r := Table.get?_insert_self _ _ _
  refine ⟨ho, granted, ((truthful_iff_failed_calls_change_nothing ho as).2.2 ?_) as List.prefix_rfl⟩
  intro p a hp hok
  match p, hp with
  | [], hp =>
    obtain ⟨rfl, -⟩ := List.cons_prefix_cons.1 hp
    rw [attempts, List.foldl_nil, first] at hok
    cases hok
  | [b], hp =>
    obtain ⟨rfl, hp'⟩ := List.cons_prefix_cons.1 hp
    obtain ⟨rfl, -⟩ := List.cons_prefix_cons.1 hp'
    exact ⟨r, rfl, held⟩
  | b :: c :: p, hp =>
    have := hp.length_le
    simp [as] at this

/-- **A failed put shows as soon as it is over, and is in the file after the next call that goes through**: the file
beside the snapshot cannot be written at first. -/
theorem failed_put_is_loaded :
    let s : Store := ⟨.file "waits.json" Table.empty .empty, {}⟩
    let blocked : Disk := ⟨[(["waits.tmp"], .directory)]⟩
    let r := WaitRecord.ofWait (Wait.start default default .epoch)
    let q := WaitRecord.ofWait (Wait.start ⟨"q", by decide⟩ default .epoch)
    let failed : Attempt := ⟨.put r, blocked⟩
    let as : List Attempt := [failed, ⟨.put q, .empty⟩]
    openFile "waits.json" .empty = .ok s.medium ∧ (s.attempt failed).1.isOk = false ∧ s.granted as = [.put q] ∧
      ¬s.Truthful [failed] ∧ ¬s.Truthful as ∧ (s.attempts as).FileHolds (s.records.changeAll [.put r, .put q]) := by
  intro s blocked r q failed as
  have writable : Writable "waits.json" .empty := ⟨by decide, by decide, by decide⟩
  have f : Filed s Table.empty := ⟨⟨_, _, rfl⟩, rfl, Records.sound_empty⟩
  have first : (s.attempt failed).1.isOk = false := rfl
  have both := commit_writable writable ((Table.empty.insert r.token r).insert q.token q)
  have second : ((s.attempts [failed]).attempt ⟨.put q, .empty⟩).1.isOk = true := by
    show (commit "waits.json" ((Table.empty.insert r.token r).insert q.token q) .empty).1.isOk = true
    rw [both]
    rfl
  have granted : s.granted as = [.put q] := by
    show s.granted ([failed] ++ [⟨.put q, .empty⟩]) = _
    rw [granted_concat, second, Store.granted, first]
    rfl
  have held : (s.attempts as).records.get? r.token = some r := by
    show ((Table.empty.insert r.token r).insert q.token q).get? r.token = some r
    decide
  refine ⟨rfl, first, granted, fun h => ?_, fun h => ?_, ?_⟩
  · have := f.get?_of_truthful h r.token
    revert this
    decide
  · have := f.get?_of_truthful h r.token
    rw [held, granted] at this
    revert this
    decide
  · show FileHolds ⟨(commit "waits.json" ((Table.empty.insert r.token r).insert q.token q) .empty).2, {}⟩ _
    rw [both]
    exact writable.read?_written _

end Store
end ApprovalGate
