import ApprovalGate.Proofs.Json.RoundTrip
import ApprovalGate.Proofs.Time.Timestamp
import ApprovalGate.Wait.Codec
/-!
# Records are read from JSON as they were written

Identifiers, tokens, verdicts and instants are read back from their texts, and so decisions and records from their
objects, as long as the values they carry are in normal form (`WaitRecord.ofJson?_toJson`).
-/
namespace ApprovalGate

/-! ## Identifiers -/

namespace Uuid

theorem readSimple?_simple (ds : List (Fin 16)) : (ds.map Text.hexDigit).mapM Text.hexValue? = some ds := by
  induction ds with
  | nil => rfl
  | cons d ds ih => rw [List.map_cons, List.mapM_cons, Text.hexValue?_hexDigit, ih]; rfl

theorem readHyphenated?_groups {a b c d e : List Char} (ha : a.length = 8) (hb : b.length = 4) (hc : c.length = 4)
    (hd : d.length = 4) (he : e.length = 12) :
    readHyphenated? (a ++ '-' :: b ++ '-' :: c ++ '-' :: d ++ '-' :: e) = readSimple? (a ++ b ++ c ++ d ++ e) := by
  unfold readHyphenated?
  simp only [List.append_assoc, List.cons_append]
  rw [if_pos]
  · simp [List.drop_append, List.drop_eq_nil_of_le, ha, hb, hc, hd]
  · simp [ha, hb, hc, hd, he]

theorem groups_append (cs : List Char) :
    cs.take 8 ++ (cs.drop 8).take 4 ++ (cs.drop 12).take 4 ++ (cs.drop 16).take 4 ++ cs.drop 20 = cs := by
  have h12 : cs.take 12 = cs.take 8 ++ (cs.drop 8).take 4 := List.take_add (i := 8) (j := 4)
  have h16 : cs.take 16 = cs.take 12 ++ (cs.drop 12).take 4 := List.take_add (i := 12) (j := 4)
  have h20 : cs.take 20 = cs.take 16 ++ (cs.drop 16).take 4 := List.take_add (i := 16) (j := 4)
  rw [← h12, ← h16, ← h20, List.take_append_drop]

theorem read?_text (u : Uuid) : read? u.text = some u := by
  have hlen : u.simple.length = 32 := by rw [simple, List.length_map, u.length_digits]
  have hread : readHyphenated? u.hyphenated = some u := by
    unfold hyphenated
    simp only
    rw [readHyphenated?_groups, groups_append]
    · rw [readSimple?, simple, readSimple?_simple, Option.bind_some, ofDigits?, dif_pos u.length_digits]
    all_goals simp only [List.length_take, List.length_drop, hlen, Nat.reduceSub, Nat.reduceLeDiff, Nat.min_eq_left]
  have h36 : u.hyphenated.length = 36 := by
    simp only [hyphenated, List.length_append, List.length_cons, List.length_take, List.length_drop, hlen]
    decide
  rw [read?, text, String.toList_ofList]
  simp only [h36]
  exact hread

end Uuid

namespace Token

theorem parse?_text (t : Token) : parse? t.text = some t := by
  unfold parse? parse
  split
  · rfl
  · rename_i h
    rw [t.valid] at h
    cases h

theorem ofJson?_toJson (t : Token) : ofJson? t.toJson = some t := t.parse?_text

end Token

namespace Instant

theorem ofJson?_toJson (t : Instant) : ofJson? t.toJson = some t := by
  show (some t.write).bind read? = some t
  rw [Option.bind_some, read?_write]

end Instant

namespace ExecutionId

theorem ofJson?_toJson (e : ExecutionId) : ofJson? e.toJson = some e := by
  show ((some e.uuid.text).bind Uuid.read?).map ExecutionId.mk = some e
  rw [Option.bind_some, Uuid.read?_text, Option.map_some]

end ExecutionId

theorem Verdict.ofJson?_text (v : Verdict) : Verdict.ofJson? (.str v.text) = some v := by
  cases v <;> decide

theorem WaitStatus.readStatus?_text (s : WaitStatus) : WaitRecord.readStatus? (.str s.text) = some s := by
  cases s <;> decide

/-! ## Parts of an object -/

namespace Json

/-- The members of an object, and none of any other value. -/
def fields : Json → List (String × Json)
  | .obj members => members
  | _ => []

variable {α : Type} {read : Json → Option α} {name : String} {parts : List (String × Json)}

/-- Members with different names. -/
def Named (parts : List (String × Json)) : Prop := parts.Pairwise fun a b => a.1 ≠ b.1

theorem Named.eq (hn : Named parts) {v w : Json} (hv : (name, v) ∈ parts) (hw : (name, w) ∈ parts) : v = w := by
  induction parts with
  | nil => cases hv
  | cons m parts ih =>
    obtain ⟨hm, hn⟩ := List.pairwise_cons.1 hn
    rcases List.mem_cons.1 hv with hv | hv <;> rcases List.mem_cons.1 hw with hw | hw
    · cases hv.trans hw.symm
      rfl
    · exact (hm _ hw (congrArg Prod.fst hv).symm).elim
    · exact (hm _ hv (congrArg Prod.fst hw).symm).elim
    · exact ih hn hv hw

theorem find?_unique {p : α → Bool} {xs : List α} {x : α} (hx : x ∈ xs) (hp : p x = true)
    (hu : ∀ y ∈ xs, p y = true → y = x) : xs.find? p = some x := by
  cases hf : xs.find? p with
  | none => exact absurd hp (List.find?_eq_none.1 hf x hx)
  | some y => rw [hu y (List.mem_of_find?_eq_some hf) (List.find?_some hf)]

theorem Named.lookup (hn : Named parts) {v : Json} (hv : (name, v) ∈ parts) : lookup name parts = some v := by
  refine Option.map_eq_some_iff.2 ⟨(name, v), find?_unique (List.mem_reverse.2 hv) (beq_self_eq_true name) ?_, rfl⟩
  rintro ⟨k, w⟩ hm hk
  have hk : k = name := eq_of_beq hk
  subst hk
  rw [hn.eq hv (List.mem_reverse.1 hm)]

/-- Of members with one name, the last counts. -/
theorem lookup_cons (name n : String) (v : Json) (rest : List (String × Json)) :
    lookup name ((n, v) :: rest) = (lookup name rest).or (if n = name then some v else none) := by
  unfold lookup
  rw [List.reverse_cons, List.find?_append, Option.map_or]
  congr 1
  by_cases h : n = name <;> simp [h]

theorem lookup_none (h : name ∉ parts.map Prod.fst) : lookup name parts = none := by
  unfold lookup
  rw [Option.map_eq_none_iff, List.find?_eq_none]
  intro m hm heq
  exact h (List.mem_map.2 ⟨m, List.mem_reverse.1 hm, eq_of_beq heq⟩)

theorem Named.length_filter_le (hn : Named parts) {p : String × Json → Bool} (hp : ∀ m, p m = true → m.1 = name) :
    (parts.filter p).length ≤ 1 := by
  have hf : Named (parts.filter p) := List.Pairwise.filter _ hn
  have hk : ∀ m ∈ parts.filter p, m.1 = name := fun m hm => hp m (List.mem_filter.1 hm).2
  rcases hfound : parts.filter p with _ | ⟨a, _ | ⟨b, rest⟩⟩
  · exact Nat.zero_le _
  · exact Nat.le_refl _
  · rw [hfound] at hf hk
    refine absurd ?_ ((List.pairwise_cons.1 hf).1 b List.mem_cons_self)
    rw [hk a List.mem_cons_self, hk b (List.mem_cons_of_mem _ List.mem_cons_self)]

theorem Named.members? (hn : Named parts) (names : List String) : (Json.obj parts).members? names = some parts := by
  unfold Json.members?
  exact if_pos (List.all_eq_true.2 fun name _ => decide_eq_true (hn.length_filter_le fun m hm => eq_of_beq hm))

theorem required?_eq {v : Json} {x : α} (h : lookup name parts = some v) (hr : read v = some x) :
    required? read name parts = some x := by
  rw [required?, h, Option.bind_some, hr]

/-- A part that is null when there is none is read as it was written. -/
theorem optional?_eq {write : α → Json} {x? : Option α} (h : lookup name parts = some ((x?.map write).getD .null))
    (hr : ∀ x, x? = some x → write x ≠ .null ∧ read (write x) = some x) : optional? read name parts = some x? := by
  unfold optional?
  cases x? with
  | none =>
    rw [h]
    rfl
  | some x =>
    obtain ⟨hn, hx⟩ := hr x rfl
    rw [h, Option.map_some, Option.getD_some]
    split
    · rename_i heq
      cases heq
    · rename_i heq
      exact absurd (Option.some.inj heq) hn
    · rename_i heq
      rw [← Option.some.inj heq, hx, Option.map_some]

theorem ofString?_eq (s? : Option String) : ofString? s? = (s?.map Json.str).getD .null := by
  cases s? <;> rfl

end Json

theorem Instant.optionToJson_eq (t? : Option Instant) :
    Instant.optionToJson t? = (t?.map Instant.toJson).getD .null := by
  cases t? <;> rfl

theorem Decision.optionToJson_eq (d? : Option Decision) :
    Decision.optionToJson d? = (d?.map Decision.toJson).getD .null := by
  cases d? <;> rfl

theorem Instant.optional?_eq {name : String} {parts : List (String × Json)} {t? : Option Instant}
    (h : Json.lookup name parts = some (Instant.optionToJson t?)) :
    Json.optional? Instant.ofJson? name parts = some t? := by
  rw [Instant.optionToJson_eq] at h
  exact Json.optional?_eq h fun t _ => ⟨(by intro h; cases h), t.ofJson?_toJson⟩

theorem Json.optionalString?_eq {name : String} {parts : List (String × Json)} {s? : Option String}
    (h : Json.lookup name parts = some (Json.ofString? s?)) : Json.optional? Json.string? name parts = some s? := by
  rw [Json.ofString?_eq] at h
  exact Json.optional?_eq h fun s _ => ⟨(by intro h; cases h), rfl⟩

/-! ## Decisions and records -/

namespace Decision

theorem named_fields (d : Decision) : Json.Named d.toJson.fields := by
  unfold Json.Named toJson Json.fields
  simp

theorem ofJson?_toJson {d : Decision} (h : d.payload.normal = d.payload) : ofJson? d.toJson = some d := by
  have hn := d.named_fields
  have parts : d.toJson.parts? names 5 = some d.toJson.fields := hn.members? names
  have token : Json.required? Token.ofJson? "token" d.toJson.fields = some d.token :=
    Json.required?_eq (hn.lookup (by simp [toJson, Json.fields])) d.token.ofJson?_toJson
  have payload : Json.required? some "raw_payload" d.toJson.fields = some d.payload :=
    Json.required?_eq (hn.lookup (by simp [toJson, Json.fields])) rfl
  have verdict : Json.required? Verdict.ofJson? "result" d.toJson.fields = some d.verdict :=
    Json.required?_eq (hn.lookup (by simp [toJson, Json.fields])) d.verdict.ofJson?_text
  have comments : Json.optional? Json.string? "comments" d.toJson.fields = some d.comments :=
    Json.optionalString?_eq (hn.lookup (by simp [toJson, Json.fields]))
  have receivedAt : Json.required? Instant.ofJson? "received_at" d.toJson.fields = some d.receivedAt :=
    Json.required?_eq (hn.lookup (by simp [toJson, Json.fields])) d.receivedAt.ofJson?_toJson
  unfold ofJson?
  simp only [parts, token, payload, verdict, comments, receivedAt, Option.bind_eq_bind, Option.bind_some, h]
  rfl

theorem optional?_eq {name : String} {parts : List (String × Json)} {d? : Option Decision}
    (h : Json.lookup name parts = some (optionToJson d?)) (hn : ∀ d, d? = some d → d.payload.normal = d.payload) :
    Json.optional? ofJson? name parts = some d? := by
  rw [optionToJson_eq] at h
  exact Json.optional?_eq h fun d hd => ⟨(by intro h; cases h), ofJson?_toJson (hn d hd)⟩

end Decision

namespace WaitRecord

/-- A record that carries for others what has certain properties: `M` what is known of its wait, and `P` what came with
the decisions on it. -/
structure Carries (M P : Json → Prop) (r : WaitRecord) : Prop where
  metadata : M r.wait.metadata
  payload : ∀ d, r.decision = some d ∨ r.lastUpdate = some d → P d.payload

theorem Carries.mono {M M' P P' : Json → Prop} {r : WaitRecord} (h : r.Carries M P) (hM : ∀ v, M v → M' v)
    (hP : ∀ v, P v → P' v) : r.Carries M' P' :=
  ⟨hM _ h.metadata, fun d hd => hP _ (h.payload d hd)⟩

theorem named_fields (r : WaitRecord) : Json.Named r.toJson.fields := by
  unfold Json.Named toJson Json.fields Wait.members
  cases r.wait.aliasToken <;> simp

/-- The parts of a wait are read as they were written, wherever they stand, but for what is known of it. -/
theorem ofParts?_eq {w : Wait} {parts : List (String × Json)} {metadata : Json}
    (h : ∀ name v, (name, v) ∈ w.members → name ≠ "metadata" → Json.lookup name parts = some v)
    (hnone : w.aliasToken = none → Json.lookup "alias" parts = none)
    (hmetadata : Json.lookup "metadata" parts = some metadata) :
    Wait.ofParts? readStatus? parts = some { w with metadata := metadata.normal } := by
  have token : Json.required? Token.ofJson? "token" parts = some w.token :=
    Json.required?_eq (h _ _ (by simp [Wait.members]) (by decide)) w.token.ofJson?_toJson
  have execution : Json.required? ExecutionId.ofJson? "execution_id" parts = some w.execution :=
    Json.required?_eq (h _ _ (by simp [Wait.members]) (by decide)) w.execution.ofJson?_toJson
  have job : Json.optional? Json.string? "job_id" parts = some w.job :=
    Json.optionalString?_eq (h _ _ (by simp [Wait.members]) (by decide))
  have createdAt : Json.required? Instant.ofJson? "created_at" parts = some w.createdAt :=
    Json.required?_eq (h _ _ (by simp [Wait.members]) (by decide)) w.createdAt.ofJson?_toJson
  have expiresAt : Json.optional? Instant.ofJson? "expires_at" parts = some w.expiresAt :=
    Instant.optional?_eq (h _ _ (by simp [Wait.members]) (by decide))
  have status : Json.required? readStatus? "status" parts = some w.status :=
    Json.required?_eq (h _ _ (by simp [Wait.members]) (by decide)) w.status.readStatus?_text
  have metadata : Json.required? some "metadata" parts = some metadata := Json.required?_eq hmetadata rfl
  have aliasToken : Json.optional? Token.ofJson? "alias" parts = some w.aliasToken := by
    cases ha : w.aliasToken with
    | none =>
      unfold Json.optional?
      rw [hnone ha]
    | some a =>
      have h : Json.lookup "alias" parts = some (((some a).map Token.toJson).getD .null) :=
        h _ _ (by simp [Wait.members, ha]) (by decide)
      exact Json.optional?_eq h fun b _ => ⟨(by intro h; cases h), b.ofJson?_toJson⟩
  unfold Wait.ofParts?
  simp only [token, execution, job, createdAt, expiresAt, status, metadata, aliasToken, Option.bind_eq_bind,
    Option.bind_some]
  rfl

theorem mem_fields_of_members {r : WaitRecord} {m : String × Json} (h : m ∈ r.wait.members) : m ∈ r.toJson.fields :=
  List.mem_append_left _ h

theorem field_metadata (r : WaitRecord) : ("metadata", r.wait.metadata) ∈ r.toJson.fields :=
  mem_fields_of_members (by simp [Wait.members])

theorem lookup_alias_none {r : WaitRecord} (h : r.wait.aliasToken = none) :
    Json.lookup "alias" r.toJson.fields = none := by
  rw [Json.lookup_none]
  simp [toJson, Json.fields, Wait.members, h]

theorem wait_ofParts? {r : WaitRecord} (h : r.wait.metadata.normal = r.wait.metadata) :
    Wait.ofParts? readStatus? r.toJson.fields = some r.wait := by
  have hn := r.named_fields
  rw [ofParts?_eq (fun name v hm _ => hn.lookup (mem_fields_of_members hm)) lookup_alias_none
    (hn.lookup r.field_metadata), h]

/-- **A record is read as it was written**, when the values in it are in normal form. -/
theorem ofJson?_toJson {r : WaitRecord} (h : r.Carries (fun v => v.normal = v) fun v => v.normal = v) :
    ofJson? r.toJson = some r := by
  have hn := r.named_fields
  have parts : r.toJson.members? names = some r.toJson.fields := hn.members? names
  have wait := wait_ofParts? h.metadata
  have decision : Json.optional? Decision.ofJson? "decision" r.toJson.fields = some r.decision :=
    Decision.optional?_eq (hn.lookup (by simp [toJson, Json.fields])) fun d hd => h.payload d (.inl hd)
  have delivered : Json.defaulted? Json.bool? false "decision_delivered" r.toJson.fields = some r.delivered := by
    unfold Json.defaulted?
    rw [hn.lookup (v := .bool r.delivered) (by simp [toJson, Json.fields])]
    rfl
  have lastUpdate : Json.optional? Decision.ofJson? "last_update" r.toJson.fields = some r.lastUpdate :=
    Decision.optional?_eq (hn.lookup (by simp [toJson, Json.fields])) fun d hd => h.payload d (.inr hd)
  have finishedAt : Json.optional? Instant.ofJson? "finished_at" r.toJson.fields = some r.finishedAt :=
    Instant.optional?_eq (hn.lookup (by simp [toJson, Json.fields]))
  unfold ofJson?
  simp only [parts, wait, decision, delivered, lastUpdate, finishedAt, Option.bind_eq_bind, Option.bind_some]
  rfl

end WaitRecord

end ApprovalGate
