import ApprovalGate.Proofs.Text
import ApprovalGate.Proofs.Wait.Values
import ApprovalGate.Store.Snapshot
/-!
# Snapshots are read as they were written

A snapshot is written as deep as its records are and read to a fixed depth.  So a snapshot of records with exact values
is read as these records when all of them are shallow, and is turned down as corrupt when one is not (`read_write`).
What is read from any file is shallow (`held_of_read`).
-/
namespace ApprovalGate

namespace WaitRecord

/-- Whether a record nests no deeper than a reader of snapshots goes.  It is the third level of a snapshot, after the
snapshot's object and the array of the records, and a decision on it is the fourth. -/
def Shallow : WaitRecord → Prop :=
  Carries (fun v => v.depth ≤ Json.maxDepth - 3) fun v => v.depth ≤ Json.maxDepth - 4

theorem shallow_iff {r : WaitRecord} : r.Shallow ↔ r.toJson.depth ≤ Json.maxDepth - 2 := depth_toJson.symm

/-- A record whose values are held as values are in memory. -/
def Held : WaitRecord → Prop := Carries Json.Held Json.Held

/-- A record in which every double is read as it was written. -/
def Steady : WaitRecord → Prop := Carries (Json.Every Json.Steady) (Json.Every Json.Steady)

theorem Held.exact {r : WaitRecord} (hh : r.Held) (hs : r.Steady) : r.toJson.Exact :=
  exact_toJson ⟨⟨hh.metadata.fits, hs.metadata⟩, fun d hd => ⟨(hh.payload d hd).fits, hs.payload d hd⟩⟩

end WaitRecord

namespace Snapshot

theorem depth_toJson {rs : List WaitRecord} : (toJson rs).depth ≤ Json.maxDepth ↔ ∀ r ∈ rs, r.Shallow := by
  have hdepth : (toJson rs).depth = Json.depthItems (rs.map WaitRecord.toJson) + 1 + 1 := by
    simp only [toJson, Json.depth, Json.depthMembers, Nat.max_zero, Nat.zero_max]
  rw [hdepth]
  refine Iff.trans (Nat.succ_le_succ_iff.trans Nat.succ_le_succ_iff) (Json.depthItems_le.trans ?_)
  constructor
  · intro h r hr
    exact WaitRecord.shallow_iff.2 (h _ (List.mem_map.2 ⟨r, hr, rfl⟩))
  · intro h x hx
    obtain ⟨r, hr, rfl⟩ := List.mem_map.1 hx
    exact WaitRecord.shallow_iff.1 (h r hr)

theorem exact_toJson {rs : List WaitRecord} (h : ∀ r ∈ rs, r.toJson.Exact) : (toJson rs).Exact := by
  refine Json.exact_obj.2 fun m hm => ?_
  rcases List.mem_cons.1 hm with rfl | hm
  · exact ⟨⟨by decide, by decide⟩, trivial⟩
  · cases List.mem_singleton.1 hm
    refine Json.exact_arr.2 fun x hx => ?_
    obtain ⟨r, hr, rfl⟩ := List.mem_map.1 hx
    exact h r hr

theorem ofJson?_toJson {rs : List WaitRecord} (h : ∀ r ∈ rs, WaitRecord.ofJson? r.toJson = some r) :
    ofJson? (toJson rs) = some (version, rs) := by
  have named : Json.Named (toJson rs).fields := by simp [Json.Named, toJson, Json.fields]
  have parts : (toJson rs).parts? ["version", "records"] 2 = some (toJson rs).fields :=
    named.members? ["version", "records"]
  have number : Json.required? Json.nat? "version" (toJson rs).fields = some version :=
    Json.required?_eq (named.lookup List.mem_cons_self) rfl
  have hitems : ("records", Json.arr (rs.map WaitRecord.toJson)) ∈ (toJson rs).fields :=
    List.mem_cons_of_mem _ List.mem_cons_self
  have records : (rs.map WaitRecord.toJson).mapM WaitRecord.ofJson? = some rs := by
    clear named parts number hitems
    induction rs with
    | nil => rfl
    | cons r rs ih =>
      rw [List.map_cons, List.mapM_cons, h r List.mem_cons_self, ih fun q hq => h q (List.mem_cons_of_mem _ hq)]
      rfl
  unfold ofJson?
  simp only [parts, number, Option.bind_eq_bind, Option.bind_some]
  exact Option.bind_eq_some_iff.2 ⟨_, Json.required?_eq (named.lookup hitems) rfl,
    Option.bind_eq_some_iff.2 ⟨rs, records, if_pos (by decide)⟩⟩

/-- **A snapshot is read as the records it was written for**, if all of them are shallow, and else as corrupt. -/
theorem read_write {rs : List WaitRecord} (hh : ∀ r ∈ rs, r.Held) (hs : ∀ r ∈ rs, r.Steady) :
    ((∀ r ∈ rs, r.Shallow) → read (write rs).toUTF8 = .ok rs) ∧
      ((¬∀ r ∈ rs, r.Shallow) → read (write rs).toUTF8 = .error .corrupt) := by
  have hexact : (toJson rs).Exact := exact_toJson fun r hr => (hh r hr).exact (hs r hr)
  have hsize : (write rs).toUTF8.size ≠ 0 := by
    intro h0
    have hempty : write rs = "" := String.utf8ByteSize_eq_zero_iff.1 h0
    have hlist := congrArg String.toList hempty
    rw [write, Json.pretty, String.toList_ofList] at hlist
    obtain ⟨c, cs, hc, -⟩ := Json.solid_writePretty (toJson rs) 0
    rw [hc] at hlist
    cases hlist
  have hread := Json.read?_pretty hexact
  unfold read
  rw [if_neg hsize, Text.fromUTF8?_toUTF8, Option.bind_some, write, hread]
  constructor
  · intro h
    rw [if_pos (depth_toJson.2 h), Option.bind_some,
      ofJson?_toJson fun r hr => WaitRecord.ofJson?_toJson ((hh r hr).mono (fun _ h => h.normal) fun _ h => h.normal)]
    rfl
  · intro h
    rw [if_neg (mt depth_toJson.1 h)]
    rfl

theorem exists_of_mapM {α β : Type} {f : α → Option β} : ∀ {xs : List α} {ys : List β}, xs.mapM f = some ys →
    ∀ y ∈ ys, ∃ x ∈ xs, f x = some y
  | [], ys, h, y, hy => by
    cases h
    cases hy
  | x :: xs, ys, h, y, hy => by
    rw [List.mapM_cons] at h
    obtain ⟨z, hz, h⟩ := Option.bind_eq_some_iff.1 h
    obtain ⟨zs, hzs, h⟩ := Option.bind_eq_some_iff.1 h
    cases h
    rcases List.mem_cons.1 hy with rfl | hy
    · exact ⟨x, List.mem_cons_self, hz⟩
    · obtain ⟨w, hw, hf⟩ := exists_of_mapM hzs y hy
      exact ⟨w, List.mem_cons_of_mem _ hw, hf⟩

theorem held_of_ofJson? {v : Json} {n : Nat} {rs : List WaitRecord} (h : ofJson? v = some (n, rs))
    (hv : v.Within Json.maxDepth) : ∀ r ∈ rs, r.Held ∧ r.Shallow := by
  unfold ofJson? at h
  simp only [Option.bind_eq_bind, Option.bind_eq_some_iff] at h
  obtain ⟨parts, hparts, number, -, items, hitems, records, hrecords, hif⟩ := h
  have heq : records = rs := by
    split at hif
    · cases hif
      rfl
    · cases hif
  subst heq
  intro r hr
  obtain ⟨k, w, hm, hw⟩ := Json.required?_some hitems
  have hin := Json.parts?_within hparts (d := 126) hv _ hm
  obtain ⟨x, hx, hxr⟩ := exists_of_mapM hrecords r hr
  have hxin : x.Within 125 := by
    split at hw
    · cases hw
      exact Json.within_arr.1 hin x hx
    · cases hw
  obtain ⟨hheld, hdepth⟩ := WaitRecord.held_of_ofJson? (n := 123) hxr hxin
  exact ⟨hheld, WaitRecord.shallow_iff.2 hdepth⟩

/-- **What is read from a file is held as values are, and shallow.** -/
theorem held_of_read {bytes : ByteArray} {rs : List WaitRecord} (h : read bytes = .ok rs) :
    ∀ r ∈ rs, r.Held ∧ r.Shallow := by
  unfold read at h
  split at h
  · cases h
    intro r hr
    cases hr
  · split at h
    · cases h
    · rename_i n records hread
      split at h
      · cases h
        obtain ⟨v, hv, hrecords⟩ := Option.bind_eq_some_iff.1 hread
        obtain ⟨s, -, hs⟩ := Option.bind_eq_some_iff.1 hv
        exact held_of_ofJson? hrecords (Json.read?_within hs)
      · cases h

end Snapshot
end ApprovalGate
