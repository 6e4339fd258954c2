import Mathlib.Data.String.Basic
import ApprovalGate.Callback.Body
import ApprovalGate.Proofs.Submission.Halves
import ApprovalGate.Proofs.Text
import ApprovalGate.Proofs.Wait.Values
/-!
# The values in what comes in

The payload of a decision that was read from a body is held as values are, whether the body is JSON or a form
(`held_parseDecision`), and so is what the issuer notes of a wait (`held_metadata`).
-/
namespace ApprovalGate

section Except

variable {ε ε' α : Type}

theorem ok_of_mapError {f : ε → ε'} {x : Except ε α} {a : α} (h : x.mapError f = .ok a) : x = .ok a := by
  cases x with
  | error e => cases h
  | ok b =>
    cases h
    rfl

end Except

namespace Json

/-- An object of texts is held as it is when they are in order. -/
theorem held_obj {members : List (String × Json)} (ha : Ordered.Ascending members)
    (hp : ∀ m ∈ members, m.2.IsPlain) : (Json.obj members).Held := by
  have same : normalMembers members = members := by
    rw [normalMembers_eq, List.map_congr_left fun m hm => congrArg (Prod.mk m.1) (hp m hm).held.normal, List.map_id']
  exact ⟨by rw [normal, same, Ordered.ofList_ascending ha], everyMember_iff.2 fun m hm => (hp m hm).held.fits⟩

end Json

theorem Form.held_read {body : String} {fields : List (String × Json)} (h : read body = .ok fields) :
    (Json.obj fields).Held := by
  unfold read at h
  simp only at h
  obtain ⟨pairs, -, h⟩ := bind_ok h
  change (if pairs.isEmpty then Except.error Fault.noFields else Except.ok (Ordered.ofList _)) = _ at h
  split at h
  · cases h
  · cases h
    refine Json.held_obj (Ordered.ascending_ofList _) fun m hm => ?_
    obtain ⟨p, -, rfl⟩ := List.mem_map.1 (Ordered.mem_ofList hm)
    trivial

namespace Callback

variable {fields : Fields}

theorem held_readJson {body : String} (h : readJson body = .ok fields) : (Json.obj fields).Held := by
  unfold readJson at h
  split at h
  · rename_i hv
    cases h
    obtain ⟨w, hw, heq⟩ := Option.map_eq_some_iff.1 hv
    exact heq ▸ Json.held_normal (Json.read?_within hw).2
  · cases h
  · cases h

theorem held_readFields {body : String} {contentType : Option String} (h : readFields body contentType = .ok fields) :
    (Json.obj fields).Held := by
  unfold readFields at h
  simp only at h
  split at h
  · exact Form.held_read (ok_of_mapError h)
  · split at h
    · exact held_readJson h
    · split at h
      · cases h
        exact held_readJson ‹_›
      · split at h
        · cases h
          exact Form.held_read (ok_of_mapError ‹_›)
        · cases h

/-- What is read from fields is a decision on the token, taken at the instant of reading, that carries the fields. -/
theorem ofFields_ok {t : Token} {now : Instant} {d : Decision} (h : ofFields t fields now = .ok d) :
    d.token = t ∧ d.receivedAt = now ∧ d.payload = .obj fields := by
  unfold ofFields at h
  split at h
  · cases h
  · split at h
    · cases h
    · cases h
      exact ⟨rfl, rfl, rfl⟩

/-- **A decision that is read from a body** is one on its token, taken at the instant of reading, and carries the fields
that were read. -/
theorem parseDecision_ok {t : Token} {body : ByteArray} {contentType : Option String} {now : Instant} {d : Decision}
    (h : parseDecision t body contentType now = .ok d) :
    d.token = t ∧ d.receivedAt = now ∧
      ∃ text fields, readFields text contentType = .ok fields ∧ d.payload = .obj fields := by
  have h := ok_of_mapError h
  unfold readDecision at h
  split at h
  · cases h
  · split at h
    · cases h
    · rename_i text _
      split at h
      · cases h
      · obtain ⟨fields, hf, h⟩ := bind_ok h
        obtain ⟨ht, hnow, hp⟩ := ofFields_ok h
        exact ⟨ht, hnow, text, fields, hf, hp⟩

/-- **The payload of a decision that is read from a body is held as values are.** -/
theorem held_parseDecision {t : Token} {body : ByteArray} {contentType : Option String} {now : Instant} {d : Decision}
    (h : parseDecision t body contentType now = .ok d) : d.payload.Held := by
  obtain ⟨-, -, text, fields, hf, hp⟩ := parseDecision_ok h
  rw [hp]
  exact held_readFields hf

/-- What is read from a text that is not blank and not too long is the decision in its fields. -/
theorem parseDecision_of_fields {text : String} {contentType : Option String} (hsize : text.toUTF8.size ≤ maxBody)
    (hblank : Text.blank text = false) (hf : readFields text contentType = .ok fields) (t : Token) (now : Instant) :
    parseDecision t text.toUTF8 contentType now =
      (ofFields t fields now).mapError fun fault => .malformedPayload t.text fault.message := by
  unfold parseDecision readDecision
  rw [if_neg (Nat.not_lt.2 hsize), Text.fromUTF8?_toUTF8]
  simp only [hblank, hf]
  rfl

/-- A text that is a JSON object is read as the decision in its members. -/
theorem parseDecision_json {t : Token} {cs : List Char} {now : Instant} {d : Decision}
    (hsize : String.utf8Len cs ≤ maxBody) (hblank : cs.all Text.isBlank = false)
    (hj : Json.parse? (String.ofList cs) = some (.obj fields)) (hd : ofFields t fields now = .ok d) :
    parseDecision t (String.ofList cs).toUTF8 none now = .ok d := by
  have hfits : (String.ofList cs).toUTF8.size ≤ maxBody := (String.utf8ByteSize_ofList cs).trans_le hsize
  have hblank : Text.blank (String.ofList cs) = false := by
    rw [Text.blank, String.toList_ofList]
    exact hblank
  have hfields : readFields (String.ofList cs) none = .ok fields := by
    simp only [readFields, readJson, hj, ite_self]
    exact if_neg (by decide +kernel)
  rw [parseDecision_of_fields hfits hblank hfields, hd]
  rfl

end Callback

/-- What the issuer notes of a wait is held as values are. -/
theorem Issuer.held_metadata (d : Draft) (reply : Reply) (e : ExecutionId) (now : Instant) :
    (waitFor d reply e now).metadata.Held := by
  rw [waitFor_metadata]
  refine Json.held_obj (List.pairwise_map.1 ?_) ?_
  · show ["build_number", "callback_url", "endpoint"].Pairwise (· < ·)
    decide
  · intro m hm
    simp only [List.mem_cons, List.not_mem_nil, or_false] at hm
    rcases hm with rfl | rfl | rfl <;> trivial

end ApprovalGate
