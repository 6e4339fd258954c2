import Mathlib.Data.List.Infix
import Mathlib.Data.List.Nodup
import ApprovalGate.Endpoint.Table
/-!
# Routes

A table is searched by falling length of its prefixes, so the first entry that fits a job is the one whose prefix is
the longest.  It is the only one of its length, as two prefixes of one text that are equally long are the same; hence
nothing depends on the order the entries stand in (`longest_prefix_wins`).
-/
namespace ApprovalGate

/-- Of two beginnings of a text one is a proper beginning of the other, shorter in characters and in bytes, unless
they are the same. -/
theorem Text.shorter_of_prefix {p q job : String} (hp : p.toList <+: job.toList) (hq : q.toList <+: job.toList)
    (hle : byteLength q ≤ byteLength p) (hne : q ≠ p) : q.length < p.length ∧ byteLength q < byteLength p := by
  have hproper : ∀ {s t : String}, s.toList <+: t.toList → s ≠ t →
      s.length < t.length ∧ byteLength s < byteLength t := by
    rintro s t ⟨rest, hrest⟩ hst
    cases rest with
    | nil => exact absurd (String.toList_inj.1 (by rwa [List.append_nil] at hrest)) hst
    | cons c rest =>
      have hc := c.utf8Size_pos
      rw [← String.length_toList, ← String.length_toList, byteLength, byteLength, ← hrest, byteCount_append, byteCount,
        List.length_append, List.length_cons]
      omega
  rcases List.prefix_or_prefix_of_prefix hq hp with h | h
  · exact hproper h hne
  · have := (hproper h hne.symm).2
    omega

namespace EndpointTable

variable {t : EndpointTable} {job : String} {x : String × Endpoint}

theorem lookup?_eq (t : EndpointTable) (job : String) :
    t.lookup? job = ((t.ranked.find? fun x => hasPrefix x.1 job).map Prod.snd).or t.default := by
  rw [lookup?]
  split
  · rename_i p e found
    have found : (t.ranked.find? fun x => hasPrefix x.1 job) = some (p, e) := found
    rw [found]
    rfl
  · rename_i missing
    have missing : (t.ranked.find? fun x => hasPrefix x.1 job) = none := missing
    rw [missing]
    rfl

theorem hasPrefix_iff {p : String} : hasPrefix p job = true ↔ p.toList <+: job.toList := List.isPrefixOf_iff_prefix

theorem mem_ranked : x ∈ t.ranked ↔ x ∈ t.jobs := List.mem_mergeSort

theorem ranked_pairwise (t : EndpointTable) :
    t.ranked.Pairwise fun x y => Text.byteLength y.1 ≤ Text.byteLength x.1 := by
  have h : t.ranked.Pairwise fun x y => decide (Text.byteLength y.1 ≤ Text.byteLength x.1) = true :=
    List.pairwise_mergeSort (fun x y z hxy hyz => by simp only [decide_eq_true_eq] at *; omega)
      (fun x y => by simp only [Bool.or_eq_true, decide_eq_true_eq]; omega) t.jobs
  exact h.imp of_decide_eq_true

/-- The entry of a table whose prefix of a job's name is the longest: the prefix of any other that fits is shorter. -/
structure Longest (t : EndpointTable) (job : String) (x : String × Endpoint) : Prop where
  entry : x ∈ t.jobs
  fits : x.1.toList <+: job.toList
  shorter : ∀ y ∈ t.jobs, y.1.toList <+: job.toList → y ≠ x →
    y.1.length < x.1.length ∧ Text.byteLength y.1 < Text.byteLength x.1

/-- Whether no prefix of a table fits a job. -/
def Unrouted (t : EndpointTable) (job : String) : Prop := ∀ x ∈ t.jobs, ¬ x.1.toList <+: job.toList

theorem Longest.unique {y : String × Endpoint} (hx : t.Longest job x) (hy : t.Longest job y) : y = x := by
  by_contra hne
  have h1 := (hx.shorter y hy.entry hy.fits hne).1
  have h2 := (hy.shorter x hx.entry hx.fits (Ne.symm hne)).1
  omega

theorem Longest.not_unrouted (hx : t.Longest job x) : ¬ t.Unrouted job := fun h => h x hx.entry hx.fits

theorem longest_of_find (hkeys : (t.jobs.map Prod.fst).Nodup)
    (h : (t.ranked.find? fun x => hasPrefix x.1 job) = some x) : t.Longest job x := by
  obtain ⟨hfit, before, after, hsplit, hnone⟩ := List.find?_eq_some_iff_append.1 h
  have hmem : ∀ y, y ∈ t.jobs ↔ y ∈ before ++ x :: after := fun y => by rw [← hsplit, mem_ranked]
  have hfit := hasPrefix_iff.1 hfit
  refine ⟨(hmem x).2 (by simp), hfit, fun y hy hyfit hne => ?_⟩
  have hkey : y.1 ≠ x.1 := fun heq =>
    hne (List.inj_on_of_nodup_map hkeys hy ((hmem x).2 (by simp)) heq)
  have hle : Text.byteLength y.1 ≤ Text.byteLength x.1 := by
    -- what fits stands behind the first that fits
    rcases List.mem_append.1 ((hmem y).1 hy) with hy | hy
    · have := hnone y hy
      simp [hasPrefix_iff.2 hyfit] at this
    · have hsorted := hsplit ▸ t.ranked_pairwise
      exact List.rel_of_pairwise_cons (List.pairwise_append.1 hsorted).2.1 ((List.mem_cons.1 hy).resolve_left hne)
  exact Text.shorter_of_prefix hfit hyfit hle hkey

/-- Either no prefix fits, and the default counts, or there is a longest, and its endpoint does. -/
theorem routed (hkeys : (t.jobs.map Prod.fst).Nodup) (job : String) :
    (t.Unrouted job ∧ t.lookup? job = t.default) ∨ ∃ x, t.Longest job x ∧ t.lookup? job = some x.2 := by
  rw [lookup?_eq]
  cases hfind : t.ranked.find? fun x => hasPrefix x.1 job with
  | none =>
    refine .inl ⟨fun x hx hfit => ?_, rfl⟩
    exact List.find?_eq_none.1 hfind x (mem_ranked.2 hx) (hasPrefix_iff.2 hfit)
  | some x => exact .inr ⟨x, longest_of_find hkeys hfind, rfl⟩

theorem resolve_ok_iff {e : Endpoint} : t.resolve job = .ok e ↔ t.lookup? job = some e := by
  rw [resolve]
  cases t.lookup? job <;> simp

theorem resolve_error_iff {f : Failure} :
    t.resolve job = .error f ↔ f = .endpointNotConfigured job ∧ t.lookup? job = none := by
  rw [resolve]
  cases t.lookup? job <;> simp [eq_comm]

/-- Whatever a job is led to stands in the table. -/
theorem resolve_mem {e : Endpoint} (h : t.resolve job = .ok e) : t.default = some e ∨ ∃ p, (p, e) ∈ t.jobs := by
  rw [resolve_ok_iff, lookup?_eq] at h
  cases hfind : t.ranked.find? fun x => hasPrefix x.1 job with
  | none =>
    rw [hfind] at h
    exact .inl h
  | some x =>
    rw [hfind] at h
    cases h
    exact .inr ⟨x.1, mem_ranked.1 (List.mem_of_find?_eq_some hfind)⟩

theorem Longest.of_perm {t' : EndpointTable} (hjobs : t'.jobs.Perm t.jobs) (hx : t.Longest job x) :
    t'.Longest job x :=
  ⟨hjobs.mem_iff.2 hx.entry, hx.fits, fun y hy => hx.shorter y (hjobs.mem_iff.1 hy)⟩

theorem lookup?_perm {t' : EndpointTable} (hkeys : (t.jobs.map Prod.fst).Nodup) (hjobs : t'.jobs.Perm t.jobs)
    (hdefault : t'.default = t.default) (job : String) : t'.lookup? job = t.lookup? job := by
  have hkeys' : (t'.jobs.map Prod.fst).Nodup := (hjobs.map Prod.fst).nodup_iff.2 hkeys
  rcases routed hkeys job with ⟨hnone, hd⟩ | ⟨x, hx, hl⟩
  · rcases routed hkeys' job with ⟨-, hd'⟩ | ⟨y, hy, -⟩
    · rw [hd', hd, hdefault]
    · exact absurd hnone (hy.of_perm hjobs.symm).not_unrouted
  · rcases routed hkeys' job with ⟨hnone, -⟩ | ⟨y, hy, hl'⟩
    · exact absurd hnone (hx.of_perm hjobs).not_unrouted
    · rw [hl', hl, (hx.of_perm hjobs).unique hy]

/-- **A job goes to the endpoint of the one longest prefix that fits it, if any does, and otherwise to the default; it
is turned down just when there is neither.  The order of the entries does not count.** -/
theorem longest_prefix_wins (t : EndpointTable) (hkeys : (t.jobs.map Prod.fst).Nodup) (job : String) :
    (¬ t.Unrouted job → ∃! x, t.Longest job x) ∧
      (∀ e, t.resolve job = .ok e ↔ (∃ p, t.Longest job (p, e)) ∨ (t.Unrouted job ∧ t.default = some e)) ∧
      (∀ f, t.resolve job = .error f ↔
        f = .endpointNotConfigured job ∧ t.Unrouted job ∧ t.default = none) ∧
      ∀ t' : EndpointTable, t'.default = t.default → t'.jobs.Perm t.jobs → t'.resolve job = t.resolve job := by
  refine ⟨fun hrouted => ?_, fun e => ?_, fun f => ?_, fun t' hdefault hjobs => ?_⟩
  · rcases routed hkeys job with ⟨hnone, -⟩ | ⟨x, hx, -⟩
    · exact absurd hnone hrouted
    · exact ⟨x, hx, fun y hy => hx.unique hy⟩
  · rw [resolve_ok_iff]
    rcases routed hkeys job with ⟨hnone, hd⟩ | ⟨x, hx, hl⟩
    · rw [hd]
      refine ⟨fun h => .inr ⟨hnone, h⟩, ?_⟩
      rintro (⟨p, hp⟩ | ⟨-, h⟩)
      · exact absurd hnone hp.not_unrouted
      · exact h
    · rw [hl, Option.some.injEq]
      constructor
      · rintro rfl
        exact .inl ⟨x.1, hx⟩
      · rintro (⟨p, hp⟩ | ⟨hnone, -⟩)
        · exact congrArg Prod.snd (hp.unique hx)
        · exact absurd hnone hx.not_unrouted
  · rw [resolve_error_iff]
    refine and_congr_right fun _ => ?_
    rcases routed hkeys job with ⟨hnone, hd⟩ | ⟨x, hx, hl⟩
    · rw [hd]
      exact ⟨fun h => ⟨hnone, h⟩, fun h => h.2⟩
    · rw [hl]
      refine ⟨fun h => ?_, fun h => absurd h.1 hx.not_unrouted⟩
      cases h
  · rw [resolve, resolve, lookup?_perm hkeys hjobs hdefault]

/-- Of the prefixes `é`, `éa` and the empty one of a name the middle one wins; `ab` is as many bytes long as `é`. -/
theorem longest_of_nested :
    let short : Endpoint := ⟨"https://short", .none⟩
    let long : Endpoint := ⟨"https://long", .none⟩
    let t : EndpointTable := ⟨none, [("", short), ("ab", short), ("é", short), ("éa", long)]⟩
    (t.jobs.map Prod.fst).Nodup ∧ t.Longest "éab" ("éa", long) ∧ t.resolve "éab" = .ok long := by
  intro short long t
  have hkeys : (t.jobs.map Prod.fst).Nodup := by decide
  have hlong : t.Longest "éab" ("éa", long) := by
    refine ⟨by simp [t], by decide, fun y hy hfit hne => ?_⟩
    simp only [t, List.mem_cons, List.not_mem_nil, or_false] at hy
    rcases hy with rfl | rfl | rfl | rfl
    · decide
    · exact absurd hfit (by decide)
    · decide
    · exact absurd rfl hne
  exact ⟨hkeys, hlong, ((longest_prefix_wins t hkeys "éab").2.1 long).2 (.inl ⟨"éa", hlong⟩)⟩

end EndpointTable
end ApprovalGate
