import Mathlib.Data.String.Basic
import ApprovalGate.Proofs.Client.Address
import ApprovalGate.Proofs.Wait.Values
/-!
# Clients are told what the gate says

A client that asks a gate over the network is told what the gate would say of itself: what came of a delivery, which
waits a cancellation ended, what an execution has come to, and why a request failed (`told_as_asked_directly`).
-/
namespace ApprovalGate

/-! ## Over the network -/

namespace Api

/-- A request as it arrives. -/
def Request.ofHttp (q : Http.Request) : Request where
  method := q.method.text
  target := String.ofList (Url.arrival q.url)
  contentType := q.body.map fun (kind, _) => kind.toUTF8.toList
  body := (q.body.map fun (_, text) => text.toUTF8).getD ByteArray.empty
  broken := none

/-- A response as it is sent. -/
def Response.toHttp (a : Response) : Http.Response := ⟨a.status, a.text.toUTF8⟩

end Api

/-- The network on which a gate answers. -/
def Gate.network (now : Instant) (uptime : Nat) : Http.Network (StateM Gate) := fun q g =>
  (some (Api.answer g (.ofHttp q) now uptime).1.toHttp, (Api.answer g (.ofHttp q) now uptime).2)

theorem Client.ask_run {σ α : Type} {network : Http.Network (StateM σ)} {c : Client} {call : Call α} {s s' : σ}
    {a : Http.Response} (h : network (c.request call) s = (some a, s')) :
    (ask network c call).run s = (call.read a, s') := by
  have answered : (network (c.request call)).run s = (some a, s') := h
  rw [ask, StateT.run_bind, answered]
  rfl

/-- What a client makes of the answer of a gate. -/
theorem Client.ask_network {α : Type} {c : Client} {call : Call α} {g g' : Gate} {now : Instant} {uptime : Nat}
    {a : Api.Response} (h : Api.answer g (.ofHttp (c.request call)) now uptime = (a, g')) :
    (ask (Gate.network now uptime) c call).run g = (call.read a.toHttp, g') :=
  ask_run (by rw [Gate.network, h])

namespace Url.Reaches

theorem carries {q : Http.Request} {route : Api.Route} (h : Reaches q.url route) :
    (Api.Request.ofHttp q).Carries q := by
  refine ⟨rfl, ?_⟩
  rw [Api.Request.path, Api.Request.ofHttp, String.toList_ofList]
  exact h.read

end Url.Reaches

/-! ## Texts of responses -/

namespace Json

/-- Whether a value is an object whose text is read as it was written. -/
structure Legible (v : Json) : Prop where
  object : ∃ members, v = .obj members
  exact : v.Exact
  shallow : v.depth ≤ maxDepth

theorem Legible.normal {v : Json} (h : v.Legible) : v.normal.Legible where
  object := by
    obtain ⟨members, rfl⟩ := h.object
    exact ⟨_, rfl⟩
  exact := ⟨h.exact.1.normal, h.exact.2.normal⟩
  shallow := Nat.le_trans v.depth_normal h.shallow

theorem legible_plain {members : List (String × Json)} (h : ∀ m ∈ members, m.2.IsPlain) : (obj members).Legible where
  object := ⟨members, rfl⟩
  exact := exact_obj.2 fun m hm => (h m hm).exact
  shallow := by
    have deep : depthMembers members ≤ 0 := depthMembers_le.2 fun m hm => Nat.le_of_eq (h m hm).depth
    rw [depth, maxDepth]
    omega

/-- The text of an object starts with its brace. -/
theorem compact_obj (members : List (String × Json)) : ∃ rest, (obj members).compact.toList = '\x7b' :: rest := by
  rw [compact, String.toList_ofList]
  rcases members with _ | ⟨⟨k, v⟩, rest⟩
  · exact ⟨_, rfl⟩
  · exact ⟨_, rfl⟩

end Json

namespace Api

variable {a : Response}

theorem Response.text_toHttp (h : a.body.Legible) : a.toHttp.text = a.body.compact := by
  obtain ⟨members, hm⟩ := h.object
  obtain ⟨rest, hr⟩ := Json.compact_obj members
  have decoded : Text.decodeLenient a.text.toUTF8 = a.body.compact := by
    rw [Text.decodeLenient, Text.fromUTF8?_toUTF8]
    rfl
  rw [Http.Response.text]
  simp only [toHttp, decoded, Text.stripPrefix?, hm, hr]
  rfl

theorem Response.read?_toHttp (h : a.body.Legible) : Json.read? a.toHttp.text = some a.body := by
  rw [text_toHttp h, (Json.isText_compact _).read? h.exact, if_pos h.shallow]

theorem Problem.legible_toJson {p : Problem} (h : p.status < 1000) : p.toJson.Legible where
  object := ⟨_, rfl⟩
  exact := by
    refine Json.exact_obj.2 fun m hm => ?_
    rw [List.mem_singleton.1 hm]
    refine Json.exact_obj.2 fun m hm => ?_
    simp only [List.mem_cons, List.not_mem_nil, or_false] at hm
    rcases hm with rfl | rfl | rfl
    · exact ⟨trivial, trivial⟩
    · exact ⟨trivial, trivial⟩
    · exact ⟨⟨by omega, by omega⟩, trivial⟩
  shallow := by
    show 2 ≤ Json.maxDepth
    decide

theorem Problem.normal_toJson (p : Problem) : p.toJson.normal = p.toJson := by
  let inner := [("code", Json.str p.code), ("message", .str p.message), ("status", .int p.status)]
  have ascending : Ordered.Ascending inner := List.pairwise_map.1 (by
    show ["code", "message", "status"].Pairwise (· < ·)
    decide)
  have same : (Json.obj inner).normal = .obj inner := congrArg Json.obj (Ordered.ofList_ascending ascending)
  show Json.obj (Ordered.ofList [("error", (Json.obj inner).normal)]) = _
  rw [same]
  exact congrArg Json.obj (Ordered.ofList_ascending (List.pairwise_singleton _ _))

/-- **The message of a problem is found in its response.** -/
theorem errorMessage_ofProblem {p : Problem} (h : p.status < 1000) :
    Client.errorMessage (Response.ofProblem p).toHttp.text = p.message := by
  have parsed : Json.parse? (Response.ofProblem p).toHttp.text = some p.toJson := by
    rw [Json.parse?, Response.read?_toHttp (Problem.legible_toJson h)]
    exact congrArg some p.normal_toJson
  rw [Client.errorMessage]
  simp only [parsed]
  rfl

end Api

/-! ## Reports -/

/-- What a client is told of a delivery. -/
def Receipt.report (r : Receipt) : DeliveryReport where
  status := r.text
  execution := match r with
    | accepted e _ => some e
    | _ => none
  verdict := match r with
    | accepted _ verdict => some verdict
    | _ => none
  reason := match r with
    | malformed reason => some reason
    | _ => none

/-- What a client is told of an execution. -/
def Execution.report (x : Execution) : ExecutionReport where
  execution := x.id
  state := x.state.text
  token := x.token
  job := x.job
  updatedAt := x.updatedAt.write

theorem Json.optionalToken?_eq {name : String} {parts : List (String × Json)} {t? : Option Token}
    (h : lookup name parts = some (ofString? (t?.map Token.text))) : optional? Token.ofJson? name parts = some t? := by
  rw [ofString?_eq, Option.map_map] at h
  exact optional?_eq h fun t _ => ⟨nofun, t.ofJson?_toJson⟩

namespace Receipt

theorem named_fields (r : Receipt) : Json.Named r.toJson.fields := by
  unfold Json.Named toJson Json.fields
  cases r <;> simp

theorem optional?_none {α : Type} {read : Json → Option α} {name : String} {r : Receipt}
    (h : name ∉ r.toJson.fields.map Prod.fst) : Json.optional? read name r.toJson.fields = some none := by
  rw [Json.optional?, Json.lookup_none h]

theorem optional?_some {α : Type} {read : Json → Option α} {name : String} {r : Receipt} {v : Json} {a : α}
    (h : (name, v) ∈ r.toJson.fields) (hn : v ≠ .null) (hr : read v = some a) :
    Json.optional? read name r.toJson.fields = some (some a) := by
  rw [Json.optional?, r.named_fields.lookup h]
  split
  · contradiction
  · rename_i heq
    exact absurd (Option.some.inj heq) hn
  · rename_i heq
    rw [← Option.some.inj heq, hr, Option.map_some]

/-- **A report of a delivery is read as it was written.** -/
theorem ofJson?_toJson (r : Receipt) : DeliveryReport.ofJson? r.toJson = some r.report := by
  have parts : r.toJson.parts? ["status", "execution_id", "result", "reason"] 1 = some r.toJson.fields :=
    r.named_fields.members? ["status", "execution_id", "result", "reason"]
  have status : Json.required? Json.string? "status" r.toJson.fields = some r.text :=
    Json.required?_eq (v := .str r.text) (r.named_fields.lookup List.mem_cons_self) rfl
  have execution : Json.optional? ExecutionId.ofJson? "execution_id" r.toJson.fields = some r.report.execution := by
    cases r with
    | accepted e verdict =>
      exact optional?_some (v := e.toJson) (by simp [toJson, Json.fields]) (fun h => by cases h) e.ofJson?_toJson
    | _ => exact optional?_none (by simp [toJson, Json.fields])
  have verdict : Json.optional? Verdict.ofJson? "result" r.toJson.fields = some r.report.verdict := by
    cases r with
    | accepted e verdict =>
      exact optional?_some (v := .str verdict.text) (by simp [toJson, Json.fields]) (fun h => by cases h)
        verdict.ofJson?_text
    | _ => exact optional?_none (by simp [toJson, Json.fields])
  have reason : Json.optional? Json.string? "reason" r.toJson.fields = some r.report.reason := by
    cases r with
    | malformed reason =>
      exact optional?_some (v := .str reason) (by simp [toJson, Json.fields]) (fun h => by cases h) rfl
    | _ => exact optional?_none (by simp [toJson, Json.fields])
  unfold DeliveryReport.ofJson?
  simp only [parts, status, execution, verdict, reason, Option.bind_eq_bind, Option.bind_some]
  rfl

end Receipt

theorem Execution.ofJson?_toJson (x : Execution) : ExecutionReport.ofJson? x.toJson = some x.report := by
  have hn : Json.Named x.toJson.fields := by
    unfold Json.Named toJson Json.fields
    simp
  have parts : x.toJson.parts? ["execution_id", "state", "token", "job_id", "updated_at"] 5 = some x.toJson.fields :=
    hn.members? ["execution_id", "state", "token", "job_id", "updated_at"]
  have execution : Json.required? ExecutionId.ofJson? "execution_id" x.toJson.fields = some x.id :=
    Json.required?_eq (hn.lookup (by simp [toJson, Json.fields])) x.id.ofJson?_toJson
  have state : Json.required? Json.string? "state" x.toJson.fields = some x.state.text :=
    Json.required?_eq (v := .str x.state.text) (hn.lookup (by simp [toJson, Json.fields])) rfl
  have token : Json.optional? Token.ofJson? "token" x.toJson.fields = some x.token :=
    Json.optionalToken?_eq (hn.lookup (by simp [toJson, Json.fields]))
  have job : Json.optional? Json.string? "job_id" x.toJson.fields = some x.job :=
    Json.optionalString?_eq (hn.lookup (by simp [toJson, Json.fields]))
  have updatedAt : Json.required? Json.string? "updated_at" x.toJson.fields = some x.updatedAt.write :=
    Json.required?_eq (v := .str x.updatedAt.write) (hn.lookup (by simp [toJson, Json.fields, Instant.toJson])) rfl
  unfold ExecutionReport.ofJson?
  simp only [parts, execution, state, token, job, updatedAt, Option.bind_eq_bind, Option.bind_some]
  rfl

theorem Token.mapM_ofJson? (tokens : List Token) : (tokens.map toJson).mapM ofJson? = some tokens := by
  induction tokens with
  | nil => rfl
  | cons t tokens ih =>
    rw [List.map_cons, List.mapM_cons, t.ofJson?_toJson, ih]
    rfl

theorem Api.normal_cancelJson (e : ExecutionId) (tokens : List Token) : (cancelJson e tokens).normal =
    .obj [("cancelled_tokens", .arr (tokens.map Token.toJson)), ("execution_id", e.toJson)] := by
  have texts : Json.normalItems (tokens.map Token.toJson) = tokens.map Token.toJson := by
    rw [Json.normalItems_eq, List.map_map]
    rfl
  show Json.obj (Ordered.ofList [("execution_id", e.toJson),
    ("cancelled_tokens", .arr (Json.normalItems (tokens.map Token.toJson)))]) = _
  rw [texts, Ordered.ofList_perm (List.Perm.swap _ _ []) (by simp), Ordered.ofList_ascending]
  refine List.pairwise_map.1 (?_ : ["cancelled_tokens", "execution_id"].Pairwise (· < ·))
  decide

theorem Api.ofJson?_cancelJson (e : ExecutionId) (tokens : List Token) :
    CancelReport.ofJson? (cancelJson e tokens).normal = some ⟨e, tokens⟩ := by
  rw [normal_cancelJson]
  let members := [("cancelled_tokens", Json.arr (tokens.map Token.toJson)), ("execution_id", e.toJson)]
  have hn : Json.Named members := by
    unfold Json.Named members
    simp
  have parts : (Json.obj members).parts? ["execution_id", "cancelled_tokens"] 2 = some members :=
    hn.members? ["execution_id", "cancelled_tokens"]
  have execution : Json.required? ExecutionId.ofJson? "execution_id" members = some e :=
    Json.required?_eq (hn.lookup (by simp [members])) e.ofJson?_toJson
  have cancelled : Json.required? (Json.listOf? Token.ofJson?) "cancelled_tokens" members = some tokens :=
    Json.required?_eq (v := .arr (tokens.map Token.toJson)) (hn.lookup (by simp [members]))
      (Token.mapM_ofJson? tokens)
  show CancelReport.ofJson? (.obj members) = _
  unfold CancelReport.ofJson?
  simp only [parts, execution, cancelled, Option.bind_eq_bind, Option.bind_some]
  rfl

theorem Receipt.legible_toJson (r : Receipt) : r.toJson.Legible := by
  refine Json.legible_plain fun m hm => ?_
  cases r
  all_goals
    simp only [List.mem_cons, List.not_mem_nil, or_false] at hm
    rcases hm with rfl | rfl | rfl <;> trivial

theorem Execution.legible_toJson (x : Execution) : x.toJson.Legible := by
  refine Json.legible_plain fun m hm => ?_
  simp only [List.mem_cons, List.not_mem_nil, or_false] at hm
  rcases hm with rfl | rfl | rfl | rfl | rfl
  · trivial
  · trivial
  · exact Json.isPlain_ofString? _
  · exact Json.isPlain_ofString? _
  · trivial

theorem Api.legible_cancelJson (e : ExecutionId) (tokens : List Token) : (cancelJson e tokens).Legible where
  object := ⟨_, rfl⟩
  exact := by
    refine Json.exact_obj.2 fun m hm => ?_
    simp only [List.mem_cons, List.not_mem_nil, or_false] at hm
    rcases hm with rfl | rfl
    · exact ⟨trivial, trivial⟩
    · refine Json.exact_arr.2 fun v hv => ?_
      obtain ⟨t, -, rfl⟩ := List.mem_map.1 hv
      exact ⟨trivial, trivial⟩
  shallow := by
    have texts : Json.depthItems (tokens.map Token.toJson) ≤ 0 := Json.depthItems_le.2 fun v hv => by
      obtain ⟨t, -, rfl⟩ := List.mem_map.1 hv
      exact Nat.le_refl _
    have deep : Json.depthMembers [("execution_id", e.toJson), ("cancelled_tokens", .arr (tokens.map Token.toJson))] ≤
        1 := Json.depthMembers_le.2 fun m hm => by
      simp only [List.mem_cons, List.not_mem_nil, or_false] at hm
      rcases hm with rfl | rfl
      · exact Nat.zero_le _
      · exact Nat.succ_le_succ texts
    rw [cancelJson, Json.depth, Json.maxDepth]
    omega

/-! ## Addresses that are no tokens -/

theorem Token.text_of_parse? {s : String} {t : Token} (h : parse? s = some t) : t.text = s := by
  unfold parse? parse at h
  split at h
  · cases h
    rfl
  · cases h

theorem Token.parse?_eq_none {s : String} {c : Char} (hc : c ∈ s.toList) (ha : allows c = false) :
    parse? s = none := by
  cases h : parse? s with
  | none => rfl
  | some t =>
    have := t.allows_of_mem (text_of_parse? h ▸ hc)
    rw [ha] at this
    cases this

theorem Text.Percent.percent_mem_encodeChars {cs : List Char} {c : Char} (hc : c ∈ cs) (hu : isUnreserved c = false) :
    '%' ∈ encodeChars cs := by
  refine List.mem_flatMap.2 ⟨c, hc, ?_⟩
  rw [hu, if_neg Bool.false_ne_true, escapeChar]
  obtain ⟨b, bs, hb⟩ : ∃ b bs, String.utf8EncodeChar c = b :: bs := by
    refine List.exists_cons_of_ne_nil fun hn => ?_
    have := String.length_utf8EncodeChar c
    rw [hn] at this
    exact absurd this.symm (Nat.ne_of_gt c.utf8Size_pos)
  rw [hb, List.flatMap_cons]
  exact List.mem_append_left _ List.mem_cons_self

/-- An address is a token if it is one as it stands in a path. -/
theorem Token.parse?_encode (s : String) : parse? (Text.Percent.encode s) = parse? s := by
  by_cases h : ∀ c ∈ s.toList, allows c = true
  · rw [Text.Percent.encode, Text.Percent.encodeChars_of_unreserved h, String.ofList_toList]
  · obtain ⟨c, hc, ha⟩ : ∃ c ∈ s.toList, allows c = false := by simpa using h
    have hp : '%' ∈ (Text.Percent.encode s).toList := by
      rw [Text.Percent.encode, String.toList_ofList]
      exact Text.Percent.percent_mem_encodeChars hc ha
    rw [parse?_eq_none hp (by decide), parse?_eq_none hc ha]

theorem Gate.receive_encode (g : Gate) (address : String) (body : ByteArray) (contentType : Option String)
    (now : Instant) :
    g.receive (Text.Percent.encode address) body contentType now = g.receive address body contentType now := by
  rw [receive, receive, Token.parse?_encode]

/-! ## Calls -/

namespace Client

theorem readValue_ok {α : Type} {ofJson? : Json → Option α} {v : Json} {x : α} (h : v.Legible)
    (hr : ofJson? v = some x) : readValue ofJson? (Api.Response.ok v).toHttp = .ok x := by
  have readable : Json.read? (Api.Response.ok v).toHttp.text = some v := Api.Response.read?_toHttp h
  rw [readValue, if_pos (show (Api.Response.ok v).toHttp.isSuccess = true from rfl), readable, Option.bind_some, hr]

theorem readOptional_ok {α : Type} {ofJson? : Json → Option α} {v : Json} {x : α} (h : v.Legible)
    (hr : ofJson? v = some x) : readOptional ofJson? (Api.Response.ok v).toHttp = .ok (some x) := by
  have found : (Api.Response.ok v).toHttp.status ≠ 404 := (by decide : 200 ≠ 404)
  rw [readOptional, if_neg found, readValue_ok h hr]
  rfl

theorem statusOf_bounds (f : Failure) : 400 ≤ Api.Problem.statusOf f ∧ Api.Problem.statusOf f < 1000 := by
  cases f <;> simp [Api.Problem.statusOf]

/-- **A failure is told as it is.** -/
theorem readValue_failure {α : Type} (ofJson? : Json → Option α) (f : Failure) :
    readValue ofJson? (Api.Response.ofProblem (.ofFailure f)).toHttp =
      .error (.refused (Api.Problem.statusOf f) f.message) := by
  obtain ⟨hl, hu⟩ := statusOf_bounds f
  have failed : (Api.Response.ofProblem (.ofFailure f)).toHttp.isSuccess ≠ true := by
    show (decide (200 ≤ Api.Problem.statusOf f) && decide (Api.Problem.statusOf f < 300)) ≠ true
    simp
    omega
  have told := Api.errorMessage_ofProblem (p := .ofFailure f) hu
  rw [readValue, if_neg failed, told]
  rfl

theorem readOptional_failure {α : Type} (ofJson? : Json → Option α) (f : Failure) :
    readOptional ofJson? (Api.Response.ofProblem (.ofFailure f)).toHttp =
      if Api.Problem.statusOf f = 404 then .ok none
      else .error (.refused (Api.Problem.statusOf f) f.message) := by
  rw [readOptional, readValue_failure]
  rfl

/-- The report of a delivery is read, whatever its status. -/
theorem readDelivery_receipt (r : Receipt) :
    readDelivery (Api.Response.ofJson r.status r.toJson).toHttp = .ok r.report := by
  have readable : Json.read? (Api.Response.ofJson r.status r.toJson).toHttp.text = some r.toJson :=
    Api.Response.read?_toHttp r.legible_toJson
  have status : (Api.Response.ofJson r.status r.toJson).toHttp.status = r.status := rfl
  rw [readDelivery, readValue, readable, Option.bind_some, r.ofJson?_toJson]
  split
  · rfl
  · rename_i hs
    rw [if_pos]
    rw [status] at hs
    cases r with
    | malformed => exact absurd (.inr rfl) hs
    | notFound => exact absurd (.inl rfl) hs
    | _ => rfl

end Client

/-! ## What is told -/

namespace Client

variable {base : String} {g : Gate} {now : Instant} {uptime : Nat}

theorem answer_deliver (hb : Url.Bare base) {x : String} (hx : Url.Names x) (body : Json) :
    Api.answer g (.ofHttp (request ⟨base⟩ (.deliver x body))) now uptime =
      Api.deliver g (Text.Percent.encode x) (.ofHttp (request ⟨base⟩ (.deliver x body))) now := by
  have reached : Url.Reaches (request ⟨base⟩ (.deliver x body)).url _ := reaches_callback hb hx rfl
  exact Api.answer_deliver (reached.leadsTo reached.carries) rfl

/-- What a client delivers is received as JSON. -/
theorem deliver_ofHttp (c : Client) (x : String) {body : Json} (hs : body.compact.toUTF8.size ≤ Callback.maxBody)
    (address : String) :
    Api.deliver g address (.ofHttp (c.request (.deliver x body))) now =
      let received := g.receive address body.compact.toUTF8 (some "application/json") now
      (.ofJson received.1.status received.1.toJson, received.2) := by
  have kind : (Api.Request.ofHttp (c.request (.deliver x body))).contentText? = some "application/json" := by
    show Api.Request.headerText? "application/json".toUTF8.toList = _
    decide +kernel
  have read : (Api.Request.ofHttp (c.request (.deliver x body))).readBody Callback.maxBody =
      .ok body.compact.toUTF8 := if_neg (Nat.not_lt.2 hs)
  rw [Api.deliver, read, kind]

/-- A delivery is never answered with a failure. -/
theorem deliver_ne_failure (c : Client) (x : String) (body : Json) (address : String) (f : Failure) :
    (Api.deliver g address (.ofHttp (c.request (.deliver x body))) now).1 ≠ .ofProblem (.ofFailure f) := by
  by_cases hs : body.compact.toUTF8.size ≤ Callback.maxBody
  · rw [deliver_ofHttp c x hs]
    simp only
    generalize (g.receive address body.compact.toUTF8 (some "application/json") now).1 = receipt
    intro h
    have := congrArg (fun a : Api.Response => (a.body.member? "status").isSome) h
    cases receipt <;> cases this
  · rw [Api.deliver_tooLong (Nat.lt_of_not_le hs)]
    intro h
    have := congrArg Api.Response.status h
    cases f <;> cases this

theorem ask_deliver (hb : Url.Bare base) {x : String} (hx : Url.Names x) {body : Json}
    (hs : body.compact.toUTF8.size ≤ Callback.maxBody) :
    (ask (Gate.network now uptime) ⟨base⟩ (.deliver x body)).run g =
      let received := g.receive x body.compact.toUTF8 (some "application/json") now
      (.ok received.1.report, received.2) := by
  have answered : Api.answer g (.ofHttp (request ⟨base⟩ (.deliver x body))) now uptime = _ :=
    (answer_deliver hb hx body).trans (deliver_ofHttp ⟨base⟩ x hs _)
  rw [Gate.receive_encode] at answered
  rw [ask_network answered, show (Call.deliver x body).read = readDelivery from rfl, readDelivery_receipt]

theorem executionId_text (e : ExecutionId) : Api.executionId e.text = .ok e := by
  rw [Api.executionId, e.parse?_text]

theorem ask_cancel (hb : Url.Bare base) (e : ExecutionId) :
    (ask (Gate.network now uptime) ⟨base⟩ (.cancel e)).run g =
      let cancelled := g.cancelExecution e "cancelled via API" now
      (match cancelled.1 with
        | .ok tokens => .ok ⟨e, tokens⟩
        | .error f => .error (.refused (Api.Problem.statusOf f) f.message), cancelled.2) := by
  have reached : Url.Reaches (request ⟨base⟩ (.cancel e)).url _ := reaches_execution hb rfl
  have answered : Api.answer g (.ofHttp (request ⟨base⟩ (.cancel e))) now uptime = Api.cancel g e.text now :=
    Api.answer_cancel (reached.leadsTo reached.carries) rfl
  have read : (Call.cancel e).read = readValue CancelReport.ofJson? := rfl
  rw [Api.cancel, executionId_text] at answered
  cases hc : g.cancelExecution e "cancelled via API" now with
  | mk result g' =>
    simp only [hc] at answered
    cases result with
    | error f => rw [ask_network answered, read, readValue_failure]
    | ok tokens =>
      rw [ask_network answered, read, Api.Response.okValue,
        readValue_ok (Api.legible_cancelJson e tokens).normal (Api.ofJson?_cancelJson e tokens)]

theorem ask_execution (hb : Url.Bare base) (e : ExecutionId) :
    (ask (Gate.network now uptime) ⟨base⟩ (.execution e)).run g =
      (.ok ((g.execution? e).map Execution.report), g) := by
  have reached : Url.Reaches (request ⟨base⟩ (.execution e)).url _ := reaches_execution hb rfl
  have answered : Api.answer g (.ofHttp (request ⟨base⟩ (.execution e))) now uptime = (Api.execution g e.text, g) :=
    Api.answer_execution (reached.leadsTo reached.carries) rfl
  have read : (Call.execution e).read = readOptional ExecutionReport.ofJson? := rfl
  rw [Api.execution, executionId_text] at answered
  cases hx : g.execution? e with
  | none =>
    simp only [hx] at answered
    rw [ask_network answered, read, readOptional_failure]
    rfl
  | some x =>
    simp only [hx] at answered
    rw [ask_network answered, read, readOptional_ok x.legible_toJson x.ofJson?_toJson]
    rfl

theorem ask_fst {α : Type} (c : Client) (call : Call α) :
    ((ask (Gate.network now uptime) c call).run g).1 =
      call.read (Api.answer g (.ofHttp (c.request call)) now uptime).1.toHttp := by
  cases h : Api.answer g (.ofHttp (c.request call)) now uptime with
  | mk a g' => rw [ask_network h]

end Client

/-- **A client is told what the gate would say of itself.**  Over the network on which a gate answers, a delivery is
told as it was received, a cancellation with the waits that it ended, and an execution as the gate has it.  A failure
with which a request is answered is told with its status and its message, but for what is not there where it was only
looked for; and no delivery is answered so. -/
theorem told_as_asked_directly {base : String} (hb : Url.Bare base) (g : Gate) (now : Instant) (uptime : Nat) :
    let client : Client := ⟨base⟩
    let network := Gate.network now uptime
    let told (f : Failure) : Http.Fault := .refused (Api.Problem.statusOf f) f.message
    (∀ x : String, x ≠ "" → x ≠ "." → x ≠ ".." → ∀ body : Json, body.compact.toUTF8.size ≤ 65536 →
        let received := g.receive x body.compact.toUTF8 (some "application/json") now
        (client.ask network (.deliver x body)).run g = (.ok received.1.report, received.2)) ∧
      (∀ e : ExecutionId,
        let cancelled := g.cancelExecution e "cancelled via API" now
        (client.ask network (.cancel e)).run g =
          (match cancelled.1 with
            | .ok tokens => .ok ⟨e, tokens⟩
            | .error f => .error (told f), cancelled.2)) ∧
      (∀ e : ExecutionId, (client.ask network (.execution e)).run g =
        (.ok ((g.execution? e).map Execution.report), g)) ∧
      (∀ (α : Type) (ofJson? : Json → Option α) (call : Client.Call α) (f : Failure),
        call.read = Client.readValue ofJson? →
        (Api.answer g (.ofHttp (client.request call)) now uptime).1 = .ofProblem (.ofFailure f) →
        ((client.ask network call).run g).1 = .error (told f)) ∧
      (∀ (α : Type) (ofJson? : Json → Option α) (call : Client.Call (Option α)) (f : Failure),
        call.read = Client.readOptional ofJson? →
        (Api.answer g (.ofHttp (client.request call)) now uptime).1 = .ofProblem (.ofFailure f) →
        ((client.ask network call).run g).1 =
          if Api.Problem.statusOf f = 404 then .ok none else .error (told f)) ∧
      (∀ x : String, x ≠ "" → x ≠ "." → x ≠ ".." → ∀ (body : Json) (f : Failure),
        (Api.answer g (.ofHttp (client.request (.deliver x body))) now uptime).1 ≠ .ofProblem (.ofFailure f)) := by
  intro client network told
  refine ⟨fun x hne hd hdd body hs => Client.ask_deliver hb ⟨hne, hd, hdd⟩ hs, fun e => Client.ask_cancel hb e,
    fun e => Client.ask_execution hb e, fun α ofJson? call f hr ha => ?_, fun α ofJson? call f hr ha => ?_,
    fun x hne hd hdd body f => ?_⟩
  · rw [Client.ask_fst, ha, hr, Client.readValue_failure]
  · rw [Client.ask_fst, ha, hr, Client.readOptional_failure]
  · rw [Client.answer_deliver hb ⟨hne, hd, hdd⟩]
    exact Client.deliver_ne_failure _ x body _ f

/-- A wait is approved over the network, an execution that nobody knows is not cancelled, and an address that is no
token is refused. -/
theorem approval_told_over_network :
    let t : Token := default
    let g : Gate := .start (Registry.empty.register (.start t default .epoch)).2 none
    let client : Client := ⟨"http://localhost:8080"⟩
    let network := Gate.network .epoch 0
    ((client.ask network (.deliver t.text (.obj [("result", .str "approved")]))).run g).1 =
        .ok ⟨"accepted", some default, some .approved, none⟩ ∧
      ((client.ask network (.cancel ⟨.numbered 7⟩)).run g).1 =
        .error (.refused 404 "E402: Execution exec_00000000-0000-0000-0000-000000000007 not found") ∧
      ((client.ask network (.record "a b")).run g).1 =
        .error (.refused 400 "E102: Invalid token 'a%20b': character '%' is not allowed") := by
  intro t g client network
  have bare : Url.Bare "http://localhost:8080" :=
    ⟨"http://".toList, by decide, "localhost:8080".toList, 0, by decide, Url.inHost_of_all (by decide +kernel),
      by decide⟩
  obtain ⟨delivered, cancelled, -, -, refused, -⟩ := told_as_asked_directly bare g .epoch 0
  refine ⟨?_, ?_, ?_⟩
  · rw [delivered t.text (by decide) (by decide) (by decide) _ (by decide +kernel)]
    decide +kernel
  · rw [cancelled]
    decide +kernel
  · rw [refused _ _ _ (.invalidToken "a%20b" "character '%' is not allowed") rfl (by decide +kernel)]
    decide +kernel

end ApprovalGate
