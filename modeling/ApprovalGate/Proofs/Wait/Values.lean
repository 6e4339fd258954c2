import ApprovalGate.Proofs.Wait.Codec
/-!
# The values in a record

A record carries values that others chose: what is known of its wait, and the payloads of decisions on it.  How deep
the record nests when it is written is a matter of these alone (`depth_toJson`), and what is read as a record has them
in normal form and less deep than it is itself (`held_of_ofJson?`).
-/
namespace ApprovalGate

namespace Json

/-- A value as it is held in memory: in normal form and with integers of 64 bits only. -/
structure Held (v : Json) : Prop where
  normal : v.normal = v
  fits : v.Every Fits

theorem held_normal {v : Json} (h : v.Every Fits) : v.normal.Held := ⟨v.normal_normal, h.normal⟩

theorem lookup_mem {name : String} {parts : List (String × Json)} {v : Json} (h : lookup name parts = some v) :
    ∃ k, (k, v) ∈ parts := by
  obtain ⟨⟨k, w⟩, hf, rfl⟩ := Option.map_eq_some_iff.1 h
  exact ⟨k, List.mem_reverse.1 (List.mem_of_find?_eq_some hf)⟩

variable {names : List String} {parts : List (String × Json)} {v : Json} {d : Nat}

theorem members?_within (h : v.members? names = some parts) (hv : v.Within (d + 1)) : ∀ m ∈ parts, m.2.Within d := by
  unfold members? at h
  split at h
  · split at h
    · cases h
      exact within_obj.1 hv
    · cases h
  · cases h

theorem parts?_within {least : Nat} (h : v.parts? names least = some parts) (hv : v.Within (d + 1)) :
    ∀ m ∈ parts, m.2.Within d := by
  unfold parts? at h
  split at h
  · split at h
    · cases h
      exact fun m hm => within_arr.1 hv _ (List.of_mem_zip hm).2
    · cases h
  · exact members?_within h hv

theorem required?_some {α : Type} {read : Json → Option α} {name : String} {x : α}
    (h : required? read name parts = some x) : ∃ k v, (k, v) ∈ parts ∧ read v = some x := by
  obtain ⟨v, hv, hr⟩ := Option.bind_eq_some_iff.1 h
  obtain ⟨k, hk⟩ := lookup_mem hv
  exact ⟨k, v, hk, hr⟩

theorem optional?_some {α : Type} {read : Json → Option α} {name : String} {x : α}
    (h : optional? read name parts = some (some x)) : ∃ k v, (k, v) ∈ parts ∧ read v = some x := by
  unfold optional? at h
  split at h
  · cases h
  · cases h
  · rename_i v _ hv
    obtain ⟨y, hy, heq⟩ := Option.map_eq_some_iff.1 h
    cases heq
    obtain ⟨k, hk⟩ := lookup_mem hv
    exact ⟨k, v, hk, hy⟩

end Json

/-! ## Written -/

namespace Json

/-- A text or less: it nests nothing, and there is no number in it. -/
def IsPlain : Json → Prop
  | .null | .bool _ | .str _ => True
  | _ => False

theorem IsPlain.depth {v : Json} (h : v.IsPlain) : v.depth = 0 := by
  cases v <;> first | rfl | cases h

theorem IsPlain.held {v : Json} (h : v.IsPlain) : v.Held := by
  cases v <;> first | exact ⟨rfl, trivial⟩ | cases h

theorem IsPlain.exact {v : Json} (h : v.IsPlain) : v.Exact := by
  cases v <;> first | exact ⟨trivial, trivial⟩ | cases h

theorem isPlain_ofString? (s? : Option String) : (ofString? s?).IsPlain := by
  cases s? <;> trivial

end Json

theorem Instant.isPlain_optionToJson (t? : Option Instant) : (Instant.optionToJson t?).IsPlain := by
  cases t? <;> trivial

namespace Decision

theorem mem_fields {d : Decision} {m : String × Json} (h : m ∈ d.toJson.fields) : m.2 = d.payload ∨ m.2.IsPlain := by
  simp only [toJson, Json.fields, List.mem_cons, List.not_mem_nil, or_false] at h
  rcases h with rfl | rfl | rfl | rfl | rfl
  · exact .inr trivial
  · exact .inl rfl
  · exact .inr trivial
  · exact .inr (Json.isPlain_ofString? _)
  · exact .inr trivial

theorem payload_mem (d : Decision) : ("raw_payload", d.payload) ∈ d.toJson.fields :=
  List.mem_cons_of_mem _ List.mem_cons_self

theorem depth_toJson (d : Decision) : d.toJson.depth = d.payload.depth + 1 := by
  refine congrArg (· + 1) (Nat.le_antisymm (Json.depthMembers_le.2 fun m hm => ?_) ?_)
  · rcases mem_fields hm with h | h
    · exact Nat.le_of_eq (congrArg Json.depth h)
    · rw [h.depth]
      exact Nat.zero_le _
  · exact Json.depthMembers_le.1 (Nat.le_refl _) _ d.payload_mem

theorem exact_toJson {d : Decision} (h : d.payload.Exact) : d.toJson.Exact :=
  Json.exact_obj.2 fun m hm => by
    rcases mem_fields hm with hm | hm
    · rwa [hm]
    · exact hm.exact

end Decision

theorem Wait.mem_members {w : Wait} {m : String × Json} (h : m ∈ w.members) :
    (m.1 = "metadata" ∧ m.2 = w.metadata) ∨ m.2.IsPlain := by
  rcases List.mem_append.1 h with h | h
  · simp only [List.mem_cons, List.not_mem_nil, or_false] at h
    rcases h with rfl | rfl | rfl | rfl | rfl | rfl | rfl
    · exact .inr trivial
    · exact .inr trivial
    · exact .inr (Json.isPlain_ofString? _)
    · exact .inr trivial
    · exact .inr (Instant.isPlain_optionToJson _)
    · exact .inr trivial
    · exact .inl ⟨rfl, rfl⟩
  · cases ha : w.aliasToken with
    | none =>
      rw [ha] at h
      cases h
    | some a =>
      rw [ha] at h
      cases List.mem_singleton.1 h
      exact .inr trivial

namespace WaitRecord

theorem mem_fields {r : WaitRecord} {m : String × Json} (h : m ∈ r.toJson.fields) : m.2 = r.wait.metadata ∨
    (∃ d, (r.decision = some d ∨ r.lastUpdate = some d) ∧ m.2 = d.toJson) ∨ m.2.IsPlain := by
  have decision : ∀ d? : Option Decision, d? = r.decision ∨ d? = r.lastUpdate →
      (∃ d, (r.decision = some d ∨ r.lastUpdate = some d) ∧ Decision.optionToJson d? = d.toJson) ∨
        (Decision.optionToJson d?).IsPlain := by
    intro d? hd
    cases d? with
    | none => exact .inr trivial
    | some d => exact .inl ⟨d, hd.imp Eq.symm Eq.symm, rfl⟩
  rcases List.mem_append.1 h with h | h
  · exact (Wait.mem_members h).imp And.right .inr
  · simp only [List.mem_cons, List.not_mem_nil, or_false] at h
    rcases h with rfl | rfl | rfl | rfl
    · exact .inr (decision _ (.inl rfl))
    · exact .inr (.inr trivial)
    · exact .inr (decision _ (.inr rfl))
    · exact .inr (.inr (Instant.isPlain_optionToJson _))

theorem field_decision {r : WaitRecord} {d : Decision} (h : r.decision = some d ∨ r.lastUpdate = some d) :
    ∃ name, (name, d.toJson) ∈ r.toJson.fields := by
  rcases h with h | h
  · exact ⟨"decision", List.mem_append_right _ (by simp [Decision.optionToJson, h])⟩
  · exact ⟨"last_update", List.mem_append_right _ (by simp [Decision.optionToJson, h])⟩

/-- How deep a record nests when it is written. -/
theorem depth_toJson {r : WaitRecord} {n : Nat} :
    r.toJson.depth ≤ n + 2 ↔ r.Carries (fun v => v.depth ≤ n + 1) fun v => v.depth ≤ n := by
  have hd : r.toJson.depth ≤ n + 2 ↔ ∀ m ∈ r.toJson.fields, m.2.depth ≤ n + 1 := by
    have hobj : r.toJson.depth = Json.depthMembers r.toJson.fields + 1 := rfl
    rw [hobj, ← Json.depthMembers_le]
    exact Nat.succ_le_succ_iff
  rw [hd]
  constructor
  · intro h
    refine ⟨h _ r.field_metadata, fun d hd => ?_⟩
    obtain ⟨name, hm⟩ := field_decision hd
    have := h _ hm
    rw [Decision.depth_toJson] at this
    exact Nat.le_of_succ_le_succ this
  · rintro ⟨hmeta, hpay⟩ m hm
    rcases mem_fields hm with h | ⟨d, hd, h⟩ | h
    · rw [h]
      exact hmeta
    · rw [h, Decision.depth_toJson]
      exact Nat.succ_le_succ (hpay d hd)
    · rw [h.depth]
      exact Nat.zero_le _

theorem exact_toJson {r : WaitRecord} (h : r.Carries Json.Exact Json.Exact) : r.toJson.Exact :=
  Json.exact_obj.2 fun m hm => by
    rcases mem_fields hm with hm | ⟨d, hd, hm⟩ | hm
    · rw [hm]
      exact h.metadata
    · rw [hm]
      exact Decision.exact_toJson (h.payload d hd)
    · exact hm.exact

end WaitRecord

/-! ## Read -/

theorem Decision.held_of_ofJson? {v : Json} {d : Decision} {n : Nat} (h : Decision.ofJson? v = some d)
    (hv : v.Within (n + 1)) : d.payload.Held ∧ d.payload.depth ≤ n := by
  unfold Decision.ofJson? at h
  simp only [Option.bind_eq_bind, Option.bind_eq_some_iff] at h
  obtain ⟨parts, hparts, token, -, payload, hpayload, verdict, -, comments, -, receivedAt, -, heq⟩ := h
  cases heq
  obtain ⟨k, w, hm, hw⟩ := Json.required?_some hpayload
  cases hw
  obtain ⟨hd, hf⟩ := Json.parts?_within hparts hv _ hm
  exact ⟨Json.held_normal hf, Nat.le_trans (Json.depth_normal _) hd⟩

namespace WaitRecord

/-- **What is read as a record carries values as they are held**, and they are less deep than what was read. -/
theorem held_of_ofJson? {v : Json} {r : WaitRecord} {n : Nat} (h : ofJson? v = some r) (hv : v.Within (n + 2)) :
    r.Carries Json.Held Json.Held ∧ r.toJson.depth ≤ n + 2 := by
  unfold ofJson? at h
  simp only [Option.bind_eq_bind, Option.bind_eq_some_iff] at h
  obtain ⟨parts, hparts, wait, hwait, decision, hdecision, delivered, -, lastUpdate, hlast, finishedAt, -, heq⟩ := h
  have hin := Json.members?_within hparts hv
  have hmeta : wait.metadata.Held ∧ wait.metadata.depth ≤ n + 1 := by
    unfold Wait.ofParts? at hwait
    simp only [Option.bind_eq_bind, Option.bind_eq_some_iff] at hwait
    obtain ⟨token, -, execution, -, job, -, createdAt, -, expiresAt, -, status, -, metadata, hmetadata, aliasToken, -,
      heq⟩ := hwait
    cases heq
    obtain ⟨k, w, hm, hw⟩ := Json.required?_some hmetadata
    cases hw
    obtain ⟨hd, hf⟩ := hin _ hm
    exact ⟨Json.held_normal hf, Nat.le_trans (Json.depth_normal _) hd⟩
  have hpay : ∀ d, decision = some d ∨ lastUpdate = some d → d.payload.Held ∧ d.payload.depth ≤ n := by
    rintro d (rfl | rfl)
    · obtain ⟨k, w, hm, hw⟩ := Json.optional?_some hdecision
      exact Decision.held_of_ofJson? hw (hin _ hm)
    · obtain ⟨k, w, hm, hw⟩ := Json.optional?_some hlast
      exact Decision.held_of_ofJson? hw (hin _ hm)
  cases heq
  exact ⟨⟨hmeta.1, fun d hd => (hpay d hd).1⟩, depth_toJson.2 ⟨hmeta.2, fun d hd => (hpay d hd).2⟩⟩

end WaitRecord

end ApprovalGate
