import ApprovalGate.Api.Answer
import ApprovalGate.Proofs.Api.Route
import ApprovalGate.Proofs.Callback.Form
import ApprovalGate.Proofs.Json.Layout
/-!
# What requests change

Whatever is requested, the answer is JSON with one of six statuses.  A request changes a gate only if it delivers a
callback whose body is not too long, or cancels an execution by an identifier that can be read; and a callback is
turned down for its length exactly if its body is too long (`changed_by_delivery_or_cancellation`).
-/
namespace ApprovalGate

/-! ## Why a body is turned down -/

theorem Token.allows_of_mem (t : Token) {c : Char} (hc : c ∈ t.text.toList) : Token.allows c = true := by
  have h := t.valid
  rw [Token.fault?] at h
  split at h
  · cases h
  · split at h
    · cases h
    · have := List.find?_eq_none.1 (Option.map_eq_none_iff.1 h) c hc
      simpa using this

/-- What a message says of a malformed payload tells the cause, since no token has a quote in it. -/
theorem Failure.malformedPayload_message {t u : Token} {a b : String}
    (h : (malformedPayload t.text a).message = (malformedPayload u.text b).message) : a = b := by
  have quote : Token.allows '\'' = false := rfl
  have quoteless (t : Token) : '\'' ∉ t.text.toList := fun hc => by
    have := t.allows_of_mem hc
    rw [quote] at this
    cases this
  have parts (t : Token) (a : String) : (malformedPayload t.text a).message.toList =
      "E301: Malformed callback payload for token '".toList ++
        (t.text.toList ++ '\'' :: (": ".toList ++ a.toList)) := by
    change ("E301" ++ ": " ++ ("Malformed callback payload for token '" ++ t.text ++ "': " ++ a)).toList = _
    simp only [String.toList_append, List.append_assoc]
    rfl
  have h := congrArg String.toList h
  rw [parts, parts] at h
  have h := congrArg (Text.cut? '\'') (List.append_cancel_left h)
  rw [Text.cut?_append (quoteless t), Text.cut?_append (quoteless u), Option.some_inj, Prod.mk.injEq] at h
  exact String.toList_injective (List.append_cancel_left h.2)

namespace Callback

/-- No other fault is told as a body's length is. -/
theorem Fault.eq_tooLong {fault : Fault} (h : fault.message = Fault.tooLong.message) : fault = .tooLong := by
  have beginning {s rest t : String} (hs : s ++ rest = t) : s.toList <+: t.toList := by
    rw [← hs, String.toList_append]
    exact List.prefix_append _ _
  cases fault with
  | tooLong => rfl
  | notText => exact absurd (congrArg String.toList h) (by decide)
  | empty => exact absurd (congrArg String.toList h) (by decide)
  | notObject kind => exact absurd (beginning (s := "expected a JSON object, got ") h) (by decide)
  | badJson => exact absurd (congrArg String.toList h) (by decide)
  | badForm fault =>
    cases fault with
    | noEquals pair =>
      have h : "form pair '" ++ pair ++ "' has no '='" = Fault.tooLong.message := h
      rw [String.append_assoc] at h
      exact absurd (beginning h) (by decide)
    | badEncoding => exact absurd (congrArg String.toList h) (by decide)
    | noFields => exact absurd (congrArg String.toList h) (by decide)
  | noVerdict => exact absurd (congrArg String.toList h) (by decide)
  | badVerdict field text =>
    have h : "field '" ++ field ++ "': " ++ Verdict.unknownMessage text = Fault.tooLong.message := h
    rw [String.append_assoc, String.append_assoc] at h
    exact absurd (beginning h) (by decide)

variable {t : Token} {body : ByteArray} {contentType : Option String} {now : Instant}

/-- What fails once a body is a text fails for what it says. -/
theorem readJson_ne_tooLong {text : String} : readJson text ≠ .error .tooLong := by
  unfold readJson
  split <;> nofun

theorem readForm_ne_tooLong {text : String} : readForm text ≠ .error .tooLong := by
  unfold readForm
  cases Form.read text <;> nofun

theorem readFields_ne_tooLong {text : String} : readFields text contentType ≠ .error .tooLong := by
  unfold readFields
  simp only
  split
  · exact readForm_ne_tooLong
  · split
    · exact readJson_ne_tooLong
    · split
      · nofun
      · rename_i fault hj
        split
        · nofun
        · exact fun h => readJson_ne_tooLong (hj.trans h)

theorem ofFields_ne_tooLong {fields : Fields} : ofFields t fields now ≠ .error .tooLong := by
  unfold ofFields
  split
  · nofun
  · split <;> nofun

/-- A body that is not too long is not turned down for its length. -/
theorem readDecision_ne_tooLong (h : body.size ≤ maxBody) : readDecision t body contentType now ≠ .error .tooLong := by
  unfold readDecision
  rw [if_neg (Nat.not_lt.2 h)]
  split
  · nofun
  · rename_i text _
    split
    · nofun
    · cases hf : readFields text contentType with
      | error fault =>
        intro he
        cases (Except.error.inj he : fault = .tooLong)
        exact readFields_ne_tooLong hf
      | ok fields =>
        show ofFields t fields now ≠ _
        exact ofFields_ne_tooLong

theorem parseDecision_ne_tooLong {u : Token} (h : body.size ≤ maxBody) {f : Failure}
    (hf : parseDecision t body contentType now = .error f) :
    f.message ≠ (Failure.malformedPayload u.text Fault.tooLong.message).message := by
  unfold parseDecision at hf
  cases hd : readDecision t body contentType now with
  | ok d =>
    rw [hd] at hf
    cases hf
  | error fault =>
    rw [hd] at hf
    cases hf
    intro he
    have := Fault.eq_tooLong (Failure.malformedPayload_message he)
    exact readDecision_ne_tooLong h (this ▸ hd)

end Callback

namespace Gate

variable {g : Gate} {body : ByteArray} {contentType : Option String} {now : Instant}

theorem record_malformed {t : Token} {reason : String}
    (h : (g.record t body contentType now).1 = .malformed reason) :
    ∃ f, Callback.parseDecision t body contentType now = .error f ∧ reason = f.message := by
  unfold record at h
  split at h
  · cases h
  · split at h
    · cases h
      exact ⟨_, ‹_›, rfl⟩
    · split at h <;> cases h

/-- A delivery is malformed only if its body cannot be read. -/
theorem receive_malformed {address reason : String}
    (h : (g.receive address body contentType now).1 = .malformed reason) :
    ∃ t f, Callback.parseDecision t body contentType now = .error f ∧ reason = f.message := by
  unfold receive at h
  split at h
  · cases h
  · rename_i t _
    refine ⟨g.registry.canonical t, record_malformed (g := g) ?_⟩
    revert h
    simp only
    split <;> exact fun h => (congrArg Prod.fst ‹_›).trans h

/-- No execution is cancelled only if it is not known. -/
theorem cancelExecution_error {e : ExecutionId} {reason : String} {f : Failure}
    (h : (g.cancelExecution e reason now).1 = .error f) : f = .executionNotFound e := by
  unfold cancelExecution at h
  simp only at h
  split at h
  · cases h
  · split at h
    · cases h
      rfl
    · cases h

end Gate

namespace Api

/-! ## What is answered -/

namespace Request

/-- Whether a request delivers a callback to an address. -/
def DeliversTo (r : Request) (address : String) : Prop :=
  r.method = "POST" ∧ IsSegment address ∧ r.path = "/api/v1/callbacks/".toList ++ address.toList

/-- Whether a request cancels an execution, by an identifier that can be read. -/
def Cancels (r : Request) (e : ExecutionId) : Prop :=
  r.method = "DELETE" ∧ ∃ name, IsSegment name ∧ ExecutionId.parse? name = some e ∧
    r.path = "/api/v1/executions/".toList ++ name.toList

end Request

/-- The statuses with which requests are answered. -/
def statuses : List Nat := [200, 202, 400, 404, 405, 413]

/-- Whether a response turns a body down for its length: by its status, or in the report of a delivery. -/
def Response.RefusesLength (a : Response) : Prop :=
  a.status = 413 ∨ ∃ t : Token,
    a.body = (Receipt.malformed (Failure.malformedPayload t.text Callback.Fault.tooLong.message).message).toJson

variable {g : Gate} {r : Request} {now : Instant} {uptime : Nat}

theorem Route.LeadsTo.answer_eq {route : Route} (h : LeadsTo r.path route) :
    answer g r now uptime = answerOn g route r now uptime := by
  rw [answer, ofPath?_eq_some.2 h]

theorem Request.DeliversTo.answer_eq {address : String} (h : r.DeliversTo address) :
    answer g r now uptime = deliver g address r now := by
  obtain ⟨hm, hs, hp⟩ := h
  have hl : Route.LeadsTo r.path (.callback address) := hp ▸ .callback hs
  rw [hl.answer_eq, answerOn, if_neg (by simp [Route.methods, hm])]
  exact if_pos hm

theorem ok_status (body : Json) : (Response.ok body).status ∈ statuses := (by decide : 200 ∈ statuses)

theorem failure_status {f : Failure} (h : Problem.statusOf f = 400 ∨ Problem.statusOf f = 404) :
    (Response.ofProblem (.ofFailure f)).status ∈ statuses := by
  show Problem.statusOf f ∈ statuses
  rcases h with h | h <;> rw [h] <;> decide

theorem badRequest_status (code message : String) : (Problem.badRequest code message).status ∈ statuses :=
  (by decide : 400 ∈ statuses)

theorem readBody_status {limit : Nat} {problem : Problem} (h : r.readBody limit = .error problem) :
    problem.status ∈ statuses := by
  unfold Request.readBody at h
  split at h
  · cases h
    exact (by decide : 413 ∈ statuses)
  · split at h
    · cases h
      exact badRequest_status _ _
    · cases h

theorem receipt_status (receipt : Receipt) : receipt.status ∈ statuses := by
  cases receipt with
  | accepted | duplicate => exact (by decide : 200 ∈ statuses)
  | interim => exact (by decide : 202 ∈ statuses)
  | notFound => exact (by decide : 404 ∈ statuses)
  | malformed => exact (by decide : 400 ∈ statuses)

theorem deliver_status (g : Gate) (address : String) (r : Request) (now : Instant) :
    (deliver g address r now).1.status ∈ statuses := by
  unfold deliver
  split
  · exact readBody_status ‹_›
  · exact receipt_status _

theorem inspect_status (g : Gate) (address : String) : (inspect g address).status ∈ statuses := by
  unfold inspect
  split
  · rename_i failure hf
    unfold Token.parse at hf
    split at hf
    · cases hf
    · cases hf
      exact failure_status (.inl rfl)
  · split
    · exact ok_status _
    · exact failure_status (.inr rfl)

theorem executionId_status {name : String} {problem : Problem} (h : executionId name = .error problem) :
    problem.status ∈ statuses := by
  unfold executionId at h
  split at h
  · cases h
  · cases h
    exact badRequest_status _ _

theorem execution_status (g : Gate) (name : String) : (execution g name).status ∈ statuses := by
  unfold execution
  split
  · exact executionId_status ‹_›
  · split
    · exact ok_status _
    · exact failure_status (.inr rfl)

theorem cancel_status (g : Gate) (name : String) (now : Instant) : (cancel g name now).1.status ∈ statuses := by
  unfold cancel
  split
  · exact executionId_status ‹_›
  · split
    · rename_i hc
      rw [Gate.cancelExecution_error (congrArg Prod.fst hc)]
      exact failure_status (.inr rfl)
    · exact ok_status _

theorem answerOn_status (g : Gate) (route : Route) (r : Request) (now : Instant) (uptime : Nat) :
    (answerOn g route r now uptime).1.status ∈ statuses := by
  unfold answerOn
  split
  · exact (by decide : 405 ∈ statuses)
  · cases route with
    | health | status | waits | jobDecision job => exact ok_status _
    | callback address =>
      simp only
      split
      · exact deliver_status g address r now
      · exact inspect_status g address
    | execution name =>
      simp only
      split
      · exact cancel_status g name now
      · exact execution_status g name

theorem answer_status (g : Gate) (r : Request) (now : Instant) (uptime : Nat) :
    (answer g r now uptime).1.status ∈ statuses := by
  unfold answer
  split
  · exact (by decide : 404 ∈ statuses)
  · exact answerOn_status g _ r now uptime

theorem deliver_tooLong {address : String} (h : Callback.maxBody < r.body.size) :
    deliver g address r now = (.ofProblem (.payloadTooLarge Callback.maxBody), g) := by
  rw [deliver, Request.readBody, if_pos h]

/-- No other report has the reason of one on a malformed delivery. -/
theorem eq_malformed_of_toJson {receipt : Receipt} {reason : String}
    (h : receipt.toJson = (Receipt.malformed reason).toJson) : receipt = .malformed reason := by
  have told := congrArg (fun v => v.member? "reason") h
  cases receipt with
  | malformed other =>
    cases (told : some (Json.str other) = some (.str reason))
    rfl
  | _ => cases told

theorem receipt_refusesLength {receipt : Receipt} (h : (Response.ofJson receipt.status receipt.toJson).RefusesLength) :
    ∃ t : Token,
      receipt = .malformed (Failure.malformedPayload t.text Callback.Fault.tooLong.message).message := by
  rcases h with hs | ⟨t, ht⟩
  · cases receipt <;> cases hs
  · exact ⟨t, eq_malformed_of_toJson ht⟩

/-- A body that is not too long is not turned down for its length. -/
theorem deliver_not_refusesLength {address : String} (h : r.body.size ≤ Callback.maxBody) :
    ¬ (deliver g address r now).1.RefusesLength := by
  rw [deliver, Request.readBody, if_neg (Nat.not_lt.2 h)]
  cases r.broken with
  | some cause =>
    rintro (hs | ⟨t, ht⟩)
    · cases hs
    · cases congrArg (fun v => v.member? "status") ht
  | none =>
    intro hl
    obtain ⟨t, ht⟩ := receipt_refusesLength hl
    obtain ⟨u, f, hf, hm⟩ := Gate.receive_malformed ht
    exact Callback.parseDecision_ne_tooLong h hf hm.symm

/-- What is asked of a path that leads to a callback is a delivery if it is posted. -/
theorem deliversTo_of_leadsTo {address : String} (hl : Route.LeadsTo r.path (.callback address))
    (hm : r.method = "POST") : r.DeliversTo address := by
  generalize hp : r.path = path at hl
  cases hl with
  | callback hs => exact ⟨hm, hs, hp⟩

theorem cancels_of_leadsTo {name : String} {e : ExecutionId} (hl : Route.LeadsTo r.path (.execution name))
    (hm : r.method = "DELETE") (he : executionId name = .ok e) : r.Cancels e := by
  generalize hp : r.path = path at hl
  cases hl with
  | execution hs =>
    refine ⟨hm, name, hs, ?_, hp⟩
    unfold executionId at he
    split at he
    · cases he
      assumption
    · cases he

/-- A request that neither delivers a callback nor cancels an execution changes nothing. -/
theorem answerOn_unchanged {route : Route} (hl : Route.LeadsTo r.path route)
    (hd : ∀ address, r.DeliversTo address → Callback.maxBody < r.body.size) (hc : ∀ e, ¬ r.Cancels e) :
    (answerOn g route r now uptime).2 = g := by
  unfold answerOn
  split
  · rfl
  · cases route with
    | health | status | waits | jobDecision job => rfl
    | callback address =>
      simp only
      split
      · rw [deliver_tooLong (hd address (deliversTo_of_leadsTo hl ‹_›))]
      · rfl
    | execution name =>
      simp only
      split
      · rename_i hm
        cases he : executionId name with
        | error problem => rw [cancel, he]
        | ok e => exact absurd (cancels_of_leadsTo hl hm he) (hc e)
      · rfl

theorem answer_unchanged (hd : ∀ address, r.DeliversTo address → Callback.maxBody < r.body.size)
    (hc : ∀ e, ¬ r.Cancels e) : (answer g r now uptime).2 = g := by
  unfold answer
  split
  · rfl
  · exact answerOn_unchanged (Route.ofPath?_eq_some.1 ‹_›) hd hc

/-- **Only deliveries and cancellations change anything.**  Whatever is requested of a gate, the answer has a JSON body
and one of six statuses.  The gate stays as it is unless the request delivers a callback whose body is not too long or
cancels an execution by an identifier that can be read.  A callback whose body is too long is answered 413, whatever
it is addressed to, and no other callback is turned down for its length. -/
theorem changed_by_delivery_or_cancellation (g : Gate) (r : Request) (now : Instant) (uptime : Nat) :
    ((answer g r now uptime).1.status ∈ statuses ∧
        (answer g r now uptime).1.body.IsText (answer g r now uptime).1.text) ∧
      ((∀ address, r.DeliversTo address → 65536 < r.body.size) → (∀ e, ¬ r.Cancels e) →
        (answer g r now uptime).2 = g) ∧
      (∀ address, r.DeliversTo address →
        (65536 < r.body.size → answer g r now uptime = (.ofProblem (.payloadTooLarge 65536), g) ∧
          (answer g r now uptime).1.status = 413) ∧
        (r.body.size ≤ 65536 → ¬ (answer g r now uptime).1.RefusesLength)) := by
  refine ⟨⟨answer_status g r now uptime, Json.isText_compact _⟩, answer_unchanged, fun address hd => ⟨fun hb => ?_,
    fun hb => ?_⟩⟩
  · rw [hd.answer_eq, deliver_tooLong hb]
    exact ⟨rfl, rfl⟩
  · rw [hd.answer_eq]
    exact deliver_not_refusesLength hb

/-- A decision is told to whoever asks for it and stays to be delivered; a callback is too long by one byte, at an
address that is no token. -/
theorem job_decision_told_unchanged :
    let t : Token := default
    let yes : Decision := ⟨t, .null, .approved, none, .epoch⟩
    let waiting := (Registry.empty.register { Wait.start t default .epoch with job := some "deploy" }).2
    let g : Gate := .start (waiting.resolve t yes).2 none
    let look : Request := ⟨"GET", "/api/v1/jobs/deploy/decision?fresh=1", none, ByteArray.empty, none⟩
    let callback (length : Nat) : Request :=
      ⟨"POST", "/api/v1/callbacks/a%20b", none, ByteArray.mk (Array.replicate length 32), none⟩
    (answer g look .epoch 0).1 = .okValue (.obj [("job_id", .str "deploy"), ("tracked", .bool true),
      ("token", .str t.text), ("decision", yes.toJson)]) ∧ (answer g look .epoch 0).2 = g ∧
      (answer g (callback 65537) .epoch 0).1.status = 413 ∧ ¬ (answer g (callback 65536) .epoch 0).1.RefusesLength := by
  intro t yes waiting g look callback
  have path : Request.pathOf "/api/v1/callbacks/a%20b".toList = "/api/v1/callbacks/".toList ++ "a%20b".toList := by
    decide
  have delivers (length : Nat) : (callback length).DeliversTo "a%20b" := ⟨rfl, by decide, path⟩
  have size (length : Nat) : (callback length).body.size = length := Array.size_replicate
  have told : (answer g look .epoch 0).1 = .okValue (.obj [("job_id", .str "deploy"), ("tracked", .bool true),
      ("token", .str t.text), ("decision", yes.toJson)]) := by
    have route : Route.ofPath? look.path = some (.jobDecision "deploy") := by decide +kernel
    rw [answer, route]
    rfl
  obtain ⟨-, unchanged, -⟩ := changed_by_delivery_or_cancellation g look .epoch 0
  obtain ⟨-, -, long⟩ := changed_by_delivery_or_cancellation g (callback 65537) .epoch 0
  obtain ⟨-, -, short⟩ := changed_by_delivery_or_cancellation g (callback 65536) .epoch 0
  refine ⟨told, unchanged (fun _ h => absurd h.1 (by decide)) fun _ h => absurd h.1 (by decide), ?_, ?_⟩
  · exact ((long _ (delivers _)).1 (by rw [size]; decide)).2
  · exact (short _ (delivers _)).2 (Nat.le_of_eq (size _))

end Api
end ApprovalGate
