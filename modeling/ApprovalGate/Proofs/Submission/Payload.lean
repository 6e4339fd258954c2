import ApprovalGate.Proofs.Ordered
import ApprovalGate.Proofs.Submission.Exchange
import ApprovalGate.Proofs.Wait.Codec
/-!
# What a payload carries

The fields of a request are put over its attributes, so a name in the payload stands for the field of that name, if the
request has it, and for the attribute otherwise (`member?_toPayload`).  Nothing can therefore be passed off as one of
the fields that every request has, in whatever a submission sends (`Issuer.sent_carries`).  The kind of change is
checked where it is a field and only there: an attribute of that name is sent unchecked when the request leaves the
field out (`unspoofed_iff`, `attribute_poses_as_type`).
-/
namespace ApprovalGate

/-! ## Looking up what was put -/

namespace Json

variable {name n : String} {v : Json}

theorem lookup_put_of_ne (h : n ≠ name) :
    ∀ members, lookup name (Ordered.put n v members) = lookup name members
  | [] => by rw [Ordered.put, lookup_cons, if_neg h, Option.or_none]
  | (k, w) :: rest => by
    unfold Ordered.put
    split
    · rename_i hk
      rw [lookup_cons, lookup_cons, ← hk]
      simp only [if_neg h]
    · split
      · rw [lookup_cons, if_neg h, Option.or_none]
      · rw [lookup_cons, lookup_cons, lookup_put_of_ne h rest]

end Json

namespace Ordered

open Json (lookup)

theorem Ascending.named {es : List (String × Json)} (h : Ascending es) : Json.Named es := by
  apply h.imp
  intro a b hab heq
  rw [heq] at hab
  exact String.lt_irrefl _ hab

theorem Ascending.lookup_put {es : List (String × Json)} (h : Ascending es) (name n : String) (v : Json) :
    lookup name (Ordered.put n v es) = if n = name then some v else lookup name es := by
  split
  · rename_i heq
    subst heq
    exact h.put.named.lookup (mem_put_self es)
  · rename_i hne
    exact Json.lookup_put_of_ne hne es

/-- **What was put counts**, the last of it first, and otherwise what was there. -/
theorem Ascending.lookup_putAll (name : String) : ∀ (entries : List (String × Json)) {es : List (String × Json)},
    Ascending es → lookup name (Ordered.putAll entries es) = (lookup name entries).or (lookup name es)
  | [], _, _ => rfl
  | (n, v) :: entries, es, h => by
    show lookup name (Ordered.putAll entries (Ordered.put n v es)) = _
    rw [Ascending.lookup_putAll name entries h.put, h.lookup_put, Json.lookup_cons, Option.or_assoc]
    split <;> rfl

end Ordered

/-! ## The fields of a payload -/

namespace ChangeRequest

variable {r : ChangeRequest} {tool callback : String}

/-- A request that was read has its attributes in order. -/
theorem ordered_of_ofJson? {v : Json} (h : ofJson? v = some r) : Ordered.Ascending r.attributes := by
  unfold ofJson? at h
  obtain ⟨parts, -, h⟩ := Option.bind_eq_some_iff.1 h
  dsimp only at h
  split at h
  · simp only [Option.bind_eq_bind, Option.bind_some, Option.bind_eq_some_iff, Option.pure_def,
      Option.some.injEq] at h
    obtain ⟨_, -, _, -, _, -, _, -, _, -, rfl⟩ := h
    exact List.Pairwise.nil
  · rename_i w _
    cases w with
    | obj members =>
      simp only [Json.normal, Option.bind_eq_bind, Option.bind_some, Option.bind_eq_some_iff, Option.pure_def,
        Option.some.injEq] at h
      obtain ⟨_, -, _, -, _, -, _, -, _, -, rfl⟩ := h
      exact Ordered.ascending_ofList _
    | _ => cases h

theorem member?_toPayload (ordered : Ordered.Ascending r.attributes) (tool callback name : String) :
    (r.toPayload tool callback).member? name =
      (Json.lookup name (r.ownFields tool callback)).or (Json.lookup name r.attributes) :=
  Ordered.Ascending.lookup_putAll name _ ordered

/-- The names that every payload has from its request and its issuer. -/
def fixedNames : List String := ["tool_id", "job_id", "build_number", "short_description", "callback_url"]

/-- What a payload has to hold of its request and its issuer, whatever the attributes are. -/
structure Carries (r : ChangeRequest) (tool callback : String) (payload : Json) : Prop where
  /-- It is an object in which no name occurs twice. -/
  object : ∃ members, payload = .obj members ∧ Ordered.Ascending members
  tool : payload.member? "tool_id" = some (.str tool)
  job : payload.member? "job_id" = some (.str r.job)
  buildNumber : payload.member? "build_number" = some (.str r.buildNumber)
  shortDescription : payload.member? "short_description" = some (.str r.shortDescription)
  callbackUrl : payload.member? "callback_url" = some (.str callback)
  description : ∀ s, r.description = some s → payload.member? "description" = some (.str s)
  changeType : ∀ s, r.changeType = some s → payload.member? "change_type" = some (.str (normalizeType s))
  /-- Under any other name it has the attribute of that name, and nothing if there is none. -/
  rest : ∀ name, name ∉ fixedNames → (name = "description" → r.description = none) →
    (name = "change_type" → r.changeType = none) → payload.member? name = Json.lookup name r.attributes

theorem named_ownFields (r : ChangeRequest) (tool callback : String) : Json.Named (r.ownFields tool callback) := by
  unfold Json.Named ownFields
  cases r.description <;> cases r.changeType <;> simp

/-- The names of the fields that a request has, where the last two may be missing. -/
theorem mem_names_ownFields {name : String} : name ∈ (r.ownFields tool callback).map Prod.fst ↔
    name ∈ fixedNames ∨ name = "description" ∧ r.description ≠ none ∨
      name = "change_type" ∧ r.changeType ≠ none := by
  unfold ownFields fixedNames
  cases r.description <;> cases r.changeType <;> simp <;> grind

theorem carries (ordered : Ordered.Ascending r.attributes) (tool callback : String) :
    r.Carries tool callback (r.toPayload tool callback) := by
  -- a field that the request has counts before the attribute of that name
  have own {name : String} {v : Json} (h : (name, v) ∈ r.ownFields tool callback) :
      (r.toPayload tool callback).member? name = some v := by
    rw [member?_toPayload ordered, (named_ownFields r tool callback).lookup h, Option.some_or]
  exact {
    object := ⟨_, rfl, Ordered.Ascending.putAll _ ordered⟩
    tool := own (by simp [ownFields])
    job := own (by simp [ownFields])
    buildNumber := own (by simp [ownFields])
    shortDescription := own (by simp [ownFields])
    callbackUrl := own (by simp [ownFields])
    description := fun s hs => own (by simp [ownFields, hs])
    changeType := fun s hs => own (by simp [ownFields, hs])
    rest := by
      intro name hn hd ht
      have foreign : name ∉ (r.ownFields tool callback).map Prod.fst := by
        rw [mem_names_ownFields]
        rintro (h | ⟨h, hs⟩ | ⟨h, hs⟩)
        · exact hn h
        · exact hs (hd h)
        · exact hs (ht h)
      rw [member?_toPayload ordered, Json.lookup_none foreign, Option.none_or] }

/-! ## The kind of change -/

/-- One of the kinds of change that the other side knows, as it stands in a payload. -/
def IsType (v : Json) : Prop := ∃ s ∈ changeTypes, v = .str s

theorem checkType_ok {s : String} (h : checkType (some s) = .ok ()) : normalizeType s ∈ changeTypes := by
  unfold checkType at h
  dsimp only at h
  split at h
  · rename_i hs
    exact List.contains_iff_mem.1 hs
  · cases h

theorem validate_type {s : String} (valid : r.validate = .ok ()) (hs : r.changeType = some s) :
    normalizeType s ∈ changeTypes := by
  unfold validate at valid
  obtain ⟨_, -, h⟩ := bind_ok valid
  obtain ⟨_, -, h⟩ := bind_ok h
  obtain ⟨_, -, h⟩ := bind_ok h
  obtain ⟨_, -, h⟩ := bind_ok h
  exact checkType_ok (hs ▸ h)

/-- **A payload cannot be spoofed but in one way**: what it holds of a request in order and of the issuer is their own,
and under all other names it has the attributes and nothing else.  Its kind of change, if it has one, is one that the
other side knows exactly if the request names one itself or has no attribute that poses as another. -/
theorem unspoofed_iff (ordered : Ordered.Ascending r.attributes) (valid : r.validate = .ok ())
    (tool callback : String) :
    let payload := r.toPayload tool callback
    r.Carries tool callback payload ∧
      ((∀ v, payload.member? "change_type" = some v → IsType v) ↔
        (r.changeType = none → ∀ v, Json.lookup "change_type" r.attributes = some v → IsType v)) := by
  intro payload
  have carried : r.Carries tool callback payload := carries ordered tool callback
  refine ⟨carried, ?_⟩
  cases ht : r.changeType with
  | none =>
    -- the field is left out, so the attribute is all there is under its name
    have alone := carried.rest "change_type" (by simp [fixedNames]) (by simp) fun _ => ht
    rw [alone]
    exact ⟨fun h _ => h, fun h => h rfl⟩
  | some s =>
    refine ⟨fun _ h => ?_, fun _ v hv => ?_⟩
    · cases h
    · rw [carried.changeType s ht] at hv
      cases hv
      exact ⟨_, validate_type valid ht, rfl⟩

/-- Attributes that use the names of fields: only the one for a field that is left out is sent. -/
theorem description_from_attribute :
    let attributes : List (String × Json) := [("callback_url", .str "https://evil.example"), ("change_type", .int 0),
      ("description", .str "ours"), ("group", .str "ops"), ("job_id", .null)]
    let r : ChangeRequest := ⟨"J1", "42", "deploy", none, some " Normal ", attributes, none⟩
    let payload := r.toPayload "T1" "http://gate/cb"
    Ordered.Ascending attributes ∧ r.validate = .ok () ∧ r.Carries "T1" "http://gate/cb" payload ∧
      (∀ v, payload.member? "change_type" = some v → IsType v) ∧
      payload.member? "description" = some (.str "ours") := by
  intro attributes r payload
  have ordered : Ordered.Ascending attributes := by
    unfold Ordered.Ascending
    decide +kernel
  have valid : r.validate = .ok () := by decide +kernel
  have unspoofed := unspoofed_iff (r := r) ordered valid "T1" "http://gate/cb"
  refine ⟨ordered, valid, unspoofed.1, unspoofed.2.2 fun h => ?_, by decide +kernel⟩
  cases h

/-- **An attribute poses as the kind of change**: the request leaves the field out and is in order, and what is sent
for it, and accepted, names a kind of change that there is not. -/
theorem attribute_poses_as_type :
    let r : ChangeRequest := ⟨"J1", "42", "deploy", none, none, [("change_type", .str "bogus")], none⟩
    let i : Issuer := ⟨⟨some ⟨"https://cm.example/changes", .none⟩, []⟩, "http://gate", "T1", none⟩
    let a := i.submit .empty default r default .epoch fun _ => .ok ⟨201, .null⟩
    Ordered.Ascending r.attributes ∧ r.validate = .ok () ∧
      (r.toPayload "T1" "http://gate/cb").member? "change_type" = some (.str "bogus") ∧ ¬IsType (.str "bogus") ∧
      a.sent.map (fun m => m.payload.member? "change_type") = [some (.str "bogus")] ∧ a.result.isOk = true := by
  intro r i a
  have unknown : ¬IsType (.str "bogus") := by
    rintro ⟨s, hs, h⟩
    cases h
    revert hs
    decide
  exact ⟨List.pairwise_singleton _ _, by decide +kernel, by decide +kernel, unknown, by decide +kernel,
    by decide +kernel⟩

end ChangeRequest

/-! ## What is sent -/

theorem Issuer.draft_valid {i : Issuer} {r : ChangeRequest} {random : Uuid} {d : Draft} (h : i.draft r random = .ok d) :
    r.validate = .ok () := by
  unfold draft at h
  obtain ⟨_, valid, -⟩ := bind_ok h
  exact valid

/-- **Whatever is sent for a submission** is the payload of a request in order. -/
theorem Issuer.sent_carries (i : Issuer) (g : Registry) (e : ExecutionId) {r : ChangeRequest}
    (ordered : Ordered.Ascending r.attributes) (random : Uuid) (now : Instant)
    (transport : Simulation.Message → Outcome Reply) {m : Simulation.Message}
    (sent : m ∈ (i.submit g e r random now transport).sent) :
    r.validate = .ok () ∧ r.Carries i.tool (i.callbackUrl (Token.mint i.tool r.job random)) m.payload := by
  unfold submit at sent
  cases hd : i.draft r random with
  | error f =>
    rw [hd] at sent
    cases sent
  | ok d =>
    rw [hd] at sent
    obtain rfl := List.mem_singleton.1 sent
    obtain ⟨-, token, url, payload⟩ := draft_ok hd
    rw [Draft.message, payload, url, token]
    exact ⟨draft_valid hd, ChangeRequest.carries ordered _ _⟩

end ApprovalGate
