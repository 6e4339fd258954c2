import Mathlib.Data.List.Nodup
import ApprovalGate.Proofs.Disk
import ApprovalGate.Proofs.Table
/-!
# What stores hold

The records that any store holds are kept once each and under their own tokens (`Store.Made.sound`), so the list it
loads says exactly what it holds (`mem_sortedBy`, `sortedBy_congr`); from memory it can be any list of the records
(`Store.load_iff`).  A store in memory makes every change asked of it, and so does one on a file from its first snapshot
on (`reliable_of_memory`, `reliable_of_put`).
-/
namespace ApprovalGate

namespace TokenOrder

/-- The order of some tokens as they stand in a list, before all others. -/
def ofList (ts : List Token) : TokenOrder where
  le a b := decide (ts.idxOf a < ts.idxOf b) || (decide (ts.idxOf a = ts.idxOf b) && byText.le a b)
  total a b := by
    have := byText.total a b
    simp only [Bool.or_eq_true, Bool.and_eq_true, decide_eq_true_eq] at *
    grind
  trans a b c h h' := by
    have := byText.trans a b c
    simp only [Bool.or_eq_true, Bool.and_eq_true, decide_eq_true_eq] at *
    grind
  antisymm {a b} h h' := by
    simp only [Bool.or_eq_true, Bool.and_eq_true, decide_eq_true_eq] at h h'
    rcases h with h | ⟨he, h⟩
    · rcases h' with h' | ⟨he, -⟩ <;> omega
    · rcases h' with h' | ⟨-, h'⟩
      · omega
      · exact byText.antisymm h h'

theorem pairwise_ofList {ts : List Token} (hd : ts.Nodup) : ts.Pairwise fun a b => (ofList ts).le a b = true := by
  refine List.pairwise_iff_getElem.2 fun i j hi hj hij => ?_
  have place : ts.idxOf ts[i] < ts.idxOf ts[j] := by rwa [hd.idxOf_getElem, hd.idxOf_getElem]
  simp only [ofList, place, decide_true, Bool.true_or]

end TokenOrder

namespace Records

/-- No token is there twice, and each record is under its own. -/
structure Sound (rs : Records) : Prop where
  distinct : rs.Distinct
  keyed : ∀ {t r}, rs.get? t = some r → r.token = t

theorem sound_empty : Sound Table.empty := ⟨Table.distinct_empty, fun h => by cases h⟩

theorem Sound.insert {rs : Records} (s : rs.Sound) (r : WaitRecord) : Sound (rs.insert r.token r) := by
  refine ⟨s.distinct.insert _ _, fun {t q} h => ?_⟩
  rw [Table.get?_insert] at h
  split at h
  · rename_i ht
    cases h
    exact ht
  · exact s.keyed h

theorem Sound.erase {rs : Records} (s : rs.Sound) (t : Token) : Sound (rs.erase t) := by
  refine ⟨s.distinct.erase _, fun {u q} h => ?_⟩
  rw [Table.get?_erase] at h
  split at h
  · cases h
  · exact s.keyed h

theorem sound_ofList (rs : List WaitRecord) : (ofList rs).Sound := by
  suffices h : ∀ t : Records, t.Sound → Sound (rs.foldl (fun t r => t.insert r.token r) t) from h _ sound_empty
  induction rs with
  | nil => exact fun t s => s
  | cons r rs ih => exact fun t s => ih _ (s.insert r)

section Sorted

variable {rs : Records} {order : TokenOrder}

theorem mem_sortedBy (s : rs.Sound) {r : WaitRecord} : r ∈ rs.sortedBy order ↔ rs.get? r.token = some r := by
  rw [sortedBy, List.mem_mergeSort, Table.mem_values_iff s.distinct]
  constructor
  · rintro ⟨t, ht⟩
    rw [s.keyed ht]
    exact ht
  · exact fun h => ⟨_, h⟩

/-- What is sorted under a token is what is held under it. -/
theorem mem_sortedBy_iff_get? (s : rs.Sound) {t : Token} {r : WaitRecord} :
    r ∈ rs.sortedBy order ∧ r.token = t ↔ rs.get? t = some r := by
  rw [mem_sortedBy s]
  constructor
  · rintro ⟨hr, rfl⟩
    exact hr
  · intro hr
    have hk := s.keyed hr
    exact ⟨hk ▸ hr, hk⟩

theorem perm_sortedBy (rs : Records) (order : TokenOrder) : (rs.sortedBy order).Perm rs.values :=
  List.mergeSort_perm _ _

/-- The values of a table are the records in some order, so the tokens of the sorted ones are all different. -/
theorem nodup_sortedBy (s : rs.Sound) (order : TokenOrder) : ((rs.sortedBy order).map WaitRecord.token).Nodup := by
  have hkeys : rs.values.map WaitRecord.token = rs.keys := by
    rw [Table.values, Table.keys, List.map_map]
    refine List.map_congr_left fun ⟨t, r⟩ hm => ?_
    exact s.keyed ((Table.mem_entries_iff s.distinct).1 hm)
  rw [((perm_sortedBy rs order).map _).nodup_iff, hkeys]
  exact s.distinct

theorem pairwise_sortedBy (rs : Records) (order : TokenOrder) :
    (rs.sortedBy order).Pairwise fun a b => order.le a.token b.token = true := by
  rw [sortedBy]
  exact List.pairwise_mergeSort (fun a b c => order.trans a.token b.token c.token)
    (fun a b => order.total a.token b.token) _

/-- Of records with different tokens only one list is in the order. -/
theorem eq_of_perm_of_pairwise {xs ys : List WaitRecord} (hd : (xs.map WaitRecord.token).Nodup) (perm : xs.Perm ys)
    (hx : xs.Pairwise fun a b => order.le a.token b.token = true)
    (hy : ys.Pairwise fun a b => order.le a.token b.token = true) : xs = ys :=
  perm.eq_of_pairwise (fun _ _ ha hb hab hba =>
    List.inj_on_of_nodup_map hd ha (perm.mem_iff.2 hb) (order.antisymm hab hba)) hx hy

/-- **Tables that find the same records load the same list.** -/
theorem sortedBy_congr {rs' : Records} (s : rs.Sound) (s' : rs'.Sound) (h : ∀ t, rs.get? t = rs'.get? t)
    (order : TokenOrder) : rs.sortedBy order = rs'.sortedBy order := by
  have hmem : ∀ r, r ∈ rs.sortedBy order ↔ r ∈ rs'.sortedBy order := fun r => by
    rw [mem_sortedBy s, mem_sortedBy s', h]
  have hperm : (rs.sortedBy order).Perm (rs'.sortedBy order) :=
    (List.perm_ext_iff_of_nodup (.of_map _ (nodup_sortedBy s order)) (.of_map _ (nodup_sortedBy s' order))).2 hmem
  exact eq_of_perm_of_pairwise (nodup_sortedBy s order) hperm (pairwise_sortedBy rs order)
    (pairwise_sortedBy rs' order)

theorem sorted_congr {rs' : Records} (s : rs.Sound) (s' : rs'.Sound) (h : ∀ t, rs.get? t = rs'.get? t) :
    rs.sorted = rs'.sorted := sortedBy_congr s s' h .byText

/-- **Records that load the same list are the same.** -/
theorem get?_of_sorted {rs' : Records} (s : rs.Sound) (s' : rs'.Sound) (h : rs.sorted = rs'.sorted) (t : Token) :
    rs.get? t = rs'.get? t := by
  have hmem : ∀ {r}, rs.get? t = some r ↔ rs'.get? t = some r := fun {r} => by
    constructor
    · intro hr
      have hk := s.keyed hr
      have : r ∈ rs'.sorted := h ▸ (mem_sortedBy s).2 (hk ▸ hr)
      exact hk ▸ (mem_sortedBy s').1 this
    · intro hr
      have hk := s'.keyed hr
      have : r ∈ rs.sorted := h ▸ (mem_sortedBy s').2 (hk ▸ hr)
      exact hk ▸ (mem_sortedBy s).1 this
  exact Option.ext fun r => hmem

/-- **In some order the records are any list of them.** -/
theorem exists_sortedBy_eq (s : rs.Sound) {xs : List WaitRecord} (perm : xs.Perm rs.values) :
    ∃ order, rs.sortedBy order = xs := by
  have hperm : xs.Perm (rs.sortedBy .byText) := perm.trans (perm_sortedBy rs .byText).symm
  have hd : (xs.map WaitRecord.token).Nodup := (hperm.map _).nodup_iff.2 (nodup_sortedBy s .byText)
  let order := TokenOrder.ofList (xs.map WaitRecord.token)
  refine ⟨order, (eq_of_perm_of_pairwise hd (perm.trans (perm_sortedBy rs order).symm) ?_
    (pairwise_sortedBy rs order)).symm⟩
  exact List.pairwise_map.1 (TokenOrder.pairwise_ofList hd)

end Sorted

end Records

namespace Store

/-- The stores there are: made in memory or from a snapshot file, and then changed and reopened; what they turn down
may change at any time. -/
inductive Made : Store → Prop where
  | memory : Made memory
  | file {path : String} {disk : Disk} {medium : Medium} (refuses : Refusals) :
      openFile path disk = .ok medium → Made ⟨medium, refuses⟩
  | put {s : Store} (r : WaitRecord) : Made s → Made (s.put r).2
  | delete {s : Store} (t : Token) : Made s → Made (s.delete t).2
  | refuses {s : Store} (refuses : Refusals) : Made s → Made { s with refuses }
  | reopen {s s' : Store} : Made s → s.reopen = .ok s' → Made s'

theorem put_records (s : Store) (r : WaitRecord) :
    (s.put r).2.records = s.records ∨ (s.put r).2.records = s.records.insert r.token r := by
  obtain ⟨medium, refuses⟩ := s
  rw [put]
  split
  · exact .inl rfl
  · cases medium <;> exact .inr rfl

theorem delete_records (s : Store) (t : Token) :
    (s.delete t).2.records = s.records ∨ (s.delete t).2.records = s.records.erase t := by
  obtain ⟨medium, refuses⟩ := s
  rw [delete]
  split
  · exact .inl rfl
  · cases medium with
    | memory records => exact .inr rfl
    | file path copy disk =>
      simp only
      split
      · exact .inr rfl
      · exact .inl rfl

theorem openFile_records {path : String} {disk : Disk} {medium : Medium} (h : openFile path disk = .ok medium) :
    ∃ rs disk', medium = .file path (Records.ofList rs) disk' := by
  rw [openFile] at h
  cases hd : disk.makeDirs? (Path.ofString path).parent with
  | none =>
    simp only [hd] at h
    cases h
  | some disk' =>
    simp only [hd] at h
    split at h
    · cases hb : disk'.read? (Path.ofString path) with
      | none =>
        simp only [hb] at h
        cases h
      | some bytes =>
        simp only [hb] at h
        cases hs : Snapshot.read bytes with
        | error fault =>
          simp only [hs] at h
          cases h
        | ok rs =>
          simp only [hs] at h
          cases h
          exact ⟨rs, disk', rfl⟩
    · cases h
      exact ⟨[], disk', rfl⟩

theorem openFile_sound {path : String} {disk : Disk} {medium : Medium} (refuses : Refusals)
    (h : openFile path disk = .ok medium) : (Store.mk medium refuses).records.Sound := by
  obtain ⟨rs, disk', rfl⟩ := openFile_records h
  exact Records.sound_ofList rs

/-- **Every store holds each record once and under its own token.** -/
theorem Made.sound {s : Store} (h : Made s) : s.records.Sound := by
  induction h with
  | memory => exact Records.sound_empty
  | file refuses ho => exact openFile_sound refuses ho
  | @put s r _ ih =>
    rcases put_records s r with h | h
    · exact h ▸ ih
    · exact h ▸ ih.insert r
  | @delete s t _ ih =>
    rcases delete_records s t with h | h
    · exact h ▸ ih
    · exact h ▸ ih.erase t
  | refuses _ _ ih => exact ih
  | @reopen s s' _ ho ih =>
    rw [Store.reopen] at ho
    split at ho
    · cases ho
      exact ih
    · rename_i path copy disk hm
      cases hf : openFile path disk with
      | error f =>
        rw [hf] at ho
        cases ho
      | ok medium =>
        rw [hf] at ho
        cases ho
        exact openFile_sound s.refuses hf

def InMemory (s : Store) : Prop := ∃ records, s.medium = .memory records

/-! ## What a store lists -/

theorem load_eq_ok {s : Store} {happens : TokenOrder} {xs : List WaitRecord} :
    s.load happens = .ok xs ↔ s.refuses.load = false ∧ xs = s.records.sortedBy (s.listing happens) := by
  rw [load]
  split
  · simp [*]
  · simp [*, eq_comm]

/-- **Memory may list its records in any way at all**, and a file only in the order of the tokens. -/
theorem load_iff {s : Store} (h : s.Made) {xs : List WaitRecord} :
    (∃ happens, s.load happens = .ok xs) ↔
      s.refuses.load = false ∧ xs.Perm s.records.values ∧ (s.kind = "file" → xs = s.records.sorted) := by
  simp only [load_eq_ok, exists_and_left]
  refine and_congr_right fun _ => ?_
  obtain ⟨medium, refuses⟩ := s
  cases medium with
  | memory records =>
    simp only [listing, kind, String.reduceEq, false_implies, and_true]
    constructor
    · rintro ⟨happens, rfl⟩
      exact Records.perm_sortedBy _ _
    · intro perm
      obtain ⟨happens, hh⟩ := Records.exists_sortedBy_eq h.sound perm
      exact ⟨happens, hh.symm⟩
  | file path copy disk =>
    simp only [listing, kind, true_implies]
    constructor
    · rintro ⟨-, rfl⟩
      exact ⟨Records.perm_sortedBy _ _, rfl⟩
    · rintro ⟨-, rfl⟩
      exact ⟨.byText, rfl⟩

/-! ## What a change leaves -/

/-- Whether the file of a store holds the snapshot of its records. -/
def Saved (s : Store) : Prop :=
  match s.medium with
  | .memory _ => True
  | .file path copy disk => disk.read? (Path.ofString path) = some (Snapshot.write copy.sorted).toUTF8

theorem put_refuses (s : Store) (r : WaitRecord) : (s.put r).2.refuses = s.refuses := by
  rw [put]
  split
  · rfl
  · split <;> rfl

theorem delete_refuses (s : Store) (t : Token) : (s.delete t).2.refuses = s.refuses := by
  rw [delete]
  split
  · rfl
  · split
    · rfl
    · split <;> rfl

theorem commit_writable {path : String} {disk : Disk} (h : Writable path disk) (copy : Records) :
    commit path copy disk = (.ok (), .file path copy (written path copy disk)) := by
  rw [commit, writeSnapshot_ok_iff.2 ⟨h, rfl⟩]

theorem writable_of_commit {path : String} {copy : Records} {disk : Disk} (h : (commit path copy disk).1 = .ok ()) :
    Writable path disk := by
  have h : (writeSnapshot path copy disk).1 = .ok () := h
  exact (writeSnapshot_ok_iff.1 (Prod.ext h rfl)).1

/-- **A record that was put is held and saved.** -/
theorem put_ok {s : Store} {r : WaitRecord} (h : (s.put r).1 = .ok ()) :
    (s.put r).2.records = s.records.insert r.token r ∧ (s.put r).2.Saved := by
  obtain ⟨medium, refuses⟩ := s
  rw [put] at h ⊢
  split at h
  · cases h
  · rename_i hp
    rw [if_neg hp]
    cases medium with
    | memory records => exact ⟨rfl, trivial⟩
    | file path copy disk =>
      have hw := writable_of_commit h
      simp only [commit_writable hw]
      exact ⟨rfl, hw.read?_written _⟩

/-- **A token that was deleted is not held, and that is saved**, if anything had to be done at all. -/
theorem delete_ok {s : Store} {t : Token} (h : (s.delete t).1 = .ok ()) :
    (∀ u, (s.delete t).2.records.get? u = if u = t then none else s.records.get? u) ∧
      ((s.delete t).2 = s ∨ (s.delete t).2.Saved) := by
  obtain ⟨medium, refuses⟩ := s
  rw [delete] at h ⊢
  split at h
  · cases h
  · rename_i hd
    rw [if_neg hd]
    cases medium with
    | memory records => exact ⟨fun u => Table.get?_erase records t u, .inr trivial⟩
    | file path copy disk =>
      simp only at h ⊢
      split at h
      · rename_i hc
        have hw := writable_of_commit h
        simp only [if_pos hc, commit_writable hw]
        exact ⟨fun u => Table.get?_erase copy t u, .inr (hw.read?_written _)⟩
      · rename_i hc
        rw [if_neg hc]
        refine ⟨fun u => ?_, .inl rfl⟩
        split
        · rename_i hu
          subst hu
          show copy.get? u = none
          simpa [Table.contains] using hc
        · rfl

/-! ## Reliable stores -/

/-- A change that a registry makes to its store. -/
inductive Write where
  | put (r : WaitRecord)
  | delete (t : Token)

def write (s : Store) : Write → Outcome Unit × Store
  | .put r => s.put r
  | .delete t => s.delete t

/-- Whether a store makes changes one after the other. -/
def Takes (s : Store) : List Write → Prop
  | [] => True
  | w :: ws => (s.write w).1 = .ok () ∧ (s.write w).2.Takes ws

/-- A store that makes every change asked of it from now on. -/
def Reliable (s : Store) : Prop := ∀ ws, s.Takes ws

theorem Reliable.write {s : Store} (h : s.Reliable) (w : Write) : (s.write w).1 = .ok () ∧ (s.write w).2.Reliable :=
  ⟨(h [w]).1, fun ws => (h (w :: ws)).2⟩

/-- A property that makes a store take a change, and that the change keeps, makes it reliable. -/
theorem reliable_of_invariant {P : Store → Prop} (h : ∀ s, P s → ∀ w, (s.write w).1 = .ok () ∧ P (s.write w).2)
    {s : Store} (hs : P s) : s.Reliable := by
  intro ws
  induction ws generalizing s with
  | nil => trivial
  | cons w ws ih => exact ⟨(h s hs w).1, ih (h s hs w).2⟩

def Willing (s : Store) : Prop := s.refuses.put = false ∧ s.refuses.delete = false

/-- **Memory takes everything.** -/
theorem reliable_of_memory {s : Store} {records : Records} (hw : s.Willing) (hm : s.medium = .memory records) :
    s.Reliable := by
  refine reliable_of_invariant (P := fun s => s.Willing ∧ ∃ records, s.medium = .memory records) ?_ ⟨hw, records, hm⟩
  rintro ⟨medium, refuses⟩ ⟨⟨hp, hd⟩, records, rfl⟩ w
  have hp' : refuses.put = false := hp
  have hd' : refuses.delete = false := hd
  cases w with
  | put r =>
    simp only [write, put, hp', Bool.false_eq_true, if_false]
    exact ⟨trivial, ⟨hp, hd⟩, _, rfl⟩
  | delete t =>
    simp only [write, delete, hd', Bool.false_eq_true, if_false]
    exact ⟨trivial, ⟨hp, hd⟩, _, rfl⟩

/-- **A file takes everything where its snapshot can be written.** -/
theorem reliable_of_writable {s : Store} {path : String} {copy : Records} {disk : Disk} (hw : s.Willing)
    (hm : s.medium = .file path copy disk) (h : Writable path disk) : s.Reliable := by
  refine reliable_of_invariant
    (P := fun s => s.Willing ∧ ∃ copy disk, s.medium = .file path copy disk ∧ Writable path disk) ?_
    ⟨hw, copy, disk, hm, h⟩
  rintro ⟨medium, refuses⟩ ⟨⟨hp, hd⟩, copy, disk, rfl, h⟩ w
  have hp' : refuses.put = false := hp
  have hd' : refuses.delete = false := hd
  cases w with
  | put r =>
    simp only [write, put, hp', Bool.false_eq_true, if_false, commit_writable h]
    exact ⟨trivial, ⟨hp, hd⟩, _, _, rfl, h.written _⟩
  | delete t =>
    simp only [write, delete, hd', Bool.false_eq_true, if_false, commit_writable h]
    split
    · exact ⟨rfl, ⟨hp, hd⟩, _, _, rfl, h.written _⟩
    · exact ⟨rfl, ⟨hp, hd⟩, _, _, rfl, h⟩

/-- **One record put is enough**: a store that has taken one takes every later change. -/
theorem reliable_of_put {s : Store} {r : WaitRecord} (hd : s.refuses.delete = false) (h : (s.put r).1 = .ok ()) :
    s.Reliable := by
  obtain ⟨medium, refuses⟩ := s
  rw [put] at h
  cases hp : refuses.put with
  | true =>
    simp only [hp, if_true] at h
    cases h
  | false =>
    simp only [hp, Bool.false_eq_true, if_false] at h
    cases medium with
    | memory records => exact reliable_of_memory ⟨hp, hd⟩ rfl
    | file path copy disk => exact reliable_of_writable ⟨hp, hd⟩ rfl (writable_of_commit h)

end Store
end ApprovalGate
