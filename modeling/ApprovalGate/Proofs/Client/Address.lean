import ApprovalGate.Client.Basic
import ApprovalGate.Proofs.Api.Answer
import ApprovalGate.Proofs.Text
import ApprovalGate.Proofs.Wait.Codec
import ApprovalGate.Submission.Sending
/-!
# Addresses lead back

A URL is normalised before it is sent: where a segment of its path is one dot or two, escaped or not, that step is
taken.  Any other segment arrives as it was written (`Url.normal_join`), so what the issuer advertises and what the
client requests leads back to the token, the job or the execution that it was written for
(`addresses_lead_back`).
-/
namespace ApprovalGate

/-! ## Encoded texts -/

namespace Text.Percent

variable {cs : List Char}

theorem decodeChars?_encodeChars (cs : List Char) : decodeChars? (encodeChars cs) = some (String.ofList cs) := by
  have bytes : decodeBytes (encodeChars cs) = cs.flatMap String.utf8EncodeChar := by
    induction cs with
    | nil => rfl
    | cons c cs ih =>
      rw [encodeChars, List.flatMap_cons, List.flatMap_cons]
      by_cases hc : isUnreserved c = true
      · have hp : c ≠ '%' := by
          rintro rfl
          cases hc
        rw [if_pos hc, List.singleton_append, decodeBytes_cons hp]
        exact congrArg _ ih
      · rw [if_neg hc, escapeChar, (escapes_escapeByte _).decodeBytes]
        exact congrArg _ ih
  rw [decodeChars?, bytes]
  exact fromUTF8?_toUTF8 (String.ofList cs)

theorem encodeChars_of_unreserved (h : ∀ c ∈ cs, isUnreserved c = true) : encodeChars cs = cs := by
  induction cs with
  | nil => rfl
  | cons c cs ih =>
    obtain ⟨hc, hcs⟩ := List.forall_mem_cons.1 h
    rw [encodeChars, List.flatMap_cons, if_pos hc, List.singleton_append]
    exact congrArg _ (ih hcs)

theorem encodeChars_ne_nil (h : cs ≠ []) : encodeChars cs ≠ [] := by
  intro he
  have same := decodeChars?_encodeChars cs
  rw [he] at same
  have same := congrArg String.toList (Option.some.inj (same.symm.trans (decodeChars?_encodeChars [])))
  rw [String.toList_ofList, String.toList_ofList] at same
  exact h same

theorem isUnreserved_hexDigitUpper (n : Fin 16) : isUnreserved (hexDigitUpper n) = true := by
  revert n
  decide

/-- What an encoded text is made of. -/
theorem mem_encodeChars {c : Char} (h : c ∈ encodeChars cs) : isUnreserved c = true ∨ c = '%' := by
  obtain ⟨d, -, hc⟩ := List.mem_flatMap.1 h
  split at hc
  · rw [List.mem_singleton.1 hc]
    exact .inl ‹_›
  · obtain ⟨b, -, hb⟩ := List.mem_flatMap.1 hc
    simp only [escapeByte, List.mem_cons, List.not_mem_nil, or_false] at hb
    rcases hb with rfl | rfl | rfl
    · exact .inr rfl
    · exact .inl (isUnreserved_hexDigitUpper _)
    · exact .inl (isUnreserved_hexDigitUpper _)

end Text.Percent

/-! ## Normal paths -/

namespace Url

/-- Whether a segment of a path says to stay. -/
def isStay (segment : List Char) : Bool := Text.Percent.decodeChars? segment == some "."

/-- Whether a segment of a path says to go back. -/
def isBack (segment : List Char) : Bool := Text.Percent.decodeChars? segment == some ".."

/-- Takes the steps that segments say, after the segments in `taken`, the last of them first.  A step at the end leaves
an empty segment. -/
def walk (taken : List (List Char)) : List (List Char) → List (List Char)
  | [] => taken.reverse
  | s :: rest =>
    let ending (taken : List (List Char)) := if rest.isEmpty then [] :: taken else taken
    if isBack s then walk (ending taken.tail) rest
    else if isStay s then walk (ending taken) rest
    else walk (s :: taken) rest

def join (segments : List (List Char)) : List Char := segments.flatMap fun s => '/' :: s

/-- The path in which all steps are taken. -/
def normal : List Char → List Char
  | '/' :: path => join (walk [] (Text.splitOn '/' path))
  | path => path

/-- The path with which a request to a URL arrives. -/
def arrival (url : String) : List Char := normal (Api.Request.pathOf url.toList)

/-- Whether a segment of a path stays as it is: it is an encoded text, and says no step. -/
structure Settled (s : List Char) : Prop where
  encoded : ∀ c ∈ s, Text.Percent.isUnreserved c = true ∨ c = '%'
  ahead : isBack s = false
  away : isStay s = false

theorem Settled.inside {s : List Char} (h : Settled s) : ∀ c ∈ s, c ≠ '/' ∧ Api.Request.endsPath c = false := by
  intro c hc
  refine ⟨?_, ?_⟩
  · rintro rfl
    rcases h.encoded _ hc with h | h <;> cases h
  · rw [Api.Request.endsPath, Bool.or_eq_false_iff, beq_eq_false_iff_ne, beq_eq_false_iff_ne]
    constructor
    all_goals
      rintro rfl
      rcases h.encoded _ hc with h | h <;> cases h

theorem settled_encodeChars {s : String} (h : s ≠ "." ∧ s ≠ "..") : Settled (Text.Percent.encodeChars s.toList) where
  encoded _ hm := Text.Percent.mem_encodeChars hm
  ahead := by
    rw [isBack, Text.Percent.decodeChars?_encodeChars, String.ofList_toList]
    simpa using h.2
  away := by
    rw [isStay, Text.Percent.decodeChars?_encodeChars, String.ofList_toList]
    simpa using h.1

theorem splitOn_join : ∀ {s : List Char} {segments : List (List Char)}, (∀ x ∈ s :: segments, '/' ∉ x) →
    Text.splitOn '/' (s ++ join segments) = s :: segments
  | s, [], h => by
    rw [join, List.flatMap_nil, List.append_nil]
    exact Text.splitOn_of_not_mem (h s List.mem_cons_self)
  | s, x :: segments, h => by
    rw [join, List.flatMap_cons, List.cons_append, Text.splitOn_append (h s List.mem_cons_self)]
    exact congrArg _ (splitOn_join fun y hy => h y (List.mem_cons_of_mem _ hy))

variable {segments : List (List Char)}

theorem walk_settled (h : ∀ s ∈ segments, Settled s) (taken : List (List Char)) :
    walk taken segments = taken.reverse ++ segments := by
  induction segments generalizing taken with
  | nil => rw [walk, List.append_nil]
  | cons s segments ih =>
    obtain ⟨hs, h⟩ := List.forall_mem_cons.1 h
    simp only [walk, hs.ahead, hs.away, Bool.false_eq_true, if_false]
    rw [ih h, List.reverse_cons, List.append_assoc, List.singleton_append]

/-- **A path of settled segments is normal.** -/
theorem normal_join (h : ∀ s ∈ segments, Settled s) : normal (join segments) = join segments := by
  cases segments with
  | nil => rfl
  | cons s segments =>
    show join (walk [] (Text.splitOn '/' (s ++ join segments))) = _
    rw [splitOn_join fun x hx hm => ((h x hx).inside _ hm).1 rfl, walk_settled h]
    rfl

/-! ## Bare bases -/

/-- Whether a character can stand in the host of a URL. -/
def InHost (c : Char) : Prop := c ≠ '/' ∧ c ≠ '\\' ∧ Api.Request.endsPath c = false

instance (c : Char) : Decidable (InHost c) := inferInstanceAs (Decidable (_ ∧ _))

theorem inHost_of_all {host : List Char} (h : (host.all fun c => decide (InHost c)) = true) : ∀ c ∈ host, InHost c :=
  fun c hc => of_decide_eq_true (List.all_eq_true.1 h c hc)

/-- Whether a base URL has a host and no path, but for slashes. -/
def Bare (base : String) : Prop :=
  ∃ scheme ∈ ["http://".toList, "https://".toList], ∃ host slashes, host ≠ [] ∧ (∀ c ∈ host, InHost c) ∧
    base.toList = scheme ++ (host ++ List.replicate slashes '/')

theorem Bare.trimmed {base : String} (h : Bare base) :
    ∃ scheme ∈ ["http://".toList, "https://".toList], ∃ host, (∀ c ∈ host, InHost c) ∧
      (Text.trimEndOf '/' base).toList = scheme ++ host := by
  obtain ⟨scheme, hs, host, slashes, hne, hin, hb⟩ := h
  refine ⟨scheme, hs, host, hin, ?_⟩
  refine Text.trimEndOf_replicate (hb.trans (List.append_assoc _ _ _).symm) fun hl => ?_
  rw [List.getLast?_append, List.getLast?_eq_some_getLast hne, Option.some_or, Option.some.injEq] at hl
  exact (hin _ (List.getLast_mem hne)).1 hl

theorem takeWhile_join (h : ∀ s ∈ segments, Settled s) :
    (join segments).takeWhile (fun c => !Api.Request.endsPath c) = join segments := by
  have inside : ∀ c ∈ join segments, Api.Request.endsPath c = false := by
    intro c hc
    obtain ⟨s, hs, hc⟩ := List.mem_flatMap.1 hc
    rcases List.mem_cons.1 hc with rfl | hc
    · rfl
    · exact ((h s hs).inside c hc).2
  have kept : (join segments ++ []).takeWhile (fun c => !Api.Request.endsPath c) = join segments ++ [] :=
    List.takeWhile_append_of_pos fun c hc => by rw [inside c hc]; rfl
  rwa [List.append_nil] at kept

theorem pathOf_join (hne : segments ≠ []) (h : ∀ s ∈ segments, Settled s) :
    Api.Request.pathOf (join segments) = join segments := by
  obtain ⟨s, segments, rfl⟩ := List.exists_cons_of_ne_nil hne
  exact takeWhile_join h

theorem pathOf_append {scheme host : List Char} (hs : scheme ∈ ["http://".toList, "https://".toList])
    (hh : ∀ c ∈ host, InHost c) (hne : segments ≠ []) (h : ∀ s ∈ segments, Settled s) :
    Api.Request.pathOf (scheme ++ host ++ join segments) = join segments := by
  have opened {rest path : List Char} (hp : ((host ++ rest).dropWhile fun c =>
      c != '/' && !Api.Request.endsPath c).takeWhile (fun c => !Api.Request.endsPath c) = '/' :: path) :
      Api.Request.pathOf (scheme ++ (host ++ rest)) = '/' :: path := by
    simp only [List.mem_cons, List.not_mem_nil, or_false] at hs
    rcases hs with rfl | rfl <;> simp [Api.Request.pathOf, Api.Request.afterScheme?, hp]
  have whole := takeWhile_join h
  obtain ⟨s, segments, rfl⟩ := List.exists_cons_of_ne_nil hne
  have after : (host ++ join (s :: segments)).dropWhile (fun c => c != '/' && !Api.Request.endsPath c) =
      join (s :: segments) := by
    rw [List.dropWhile_append_of_pos fun c hc => by simp [(hh c hc).1, (hh c hc).2.2]]
    exact List.dropWhile_cons_of_neg (by decide)
  rw [List.append_assoc]
  exact opened (by rw [after, whole]; rfl)

/-- **What is written behind a bare base URL arrives as it was written.** -/
theorem arrival_append {base : String} (hb : Bare base) (hne : segments ≠ []) (h : ∀ s ∈ segments, Settled s)
    {url : String} (hu : url.toList = (Text.trimEndOf '/' base).toList ++ join segments) :
    arrival url = join segments ∧ Api.Request.pathOf (join segments) = join segments := by
  obtain ⟨scheme, hscheme, host, hh, ht⟩ := hb.trimmed
  rw [arrival, hu, ht, pathOf_append hscheme hh hne h, normal_join h]
  exact ⟨rfl, pathOf_join hne h⟩

end Url

/-! ## Identifiers in paths -/

open Text.Percent (encode encodeChars isUnreserved)

namespace Uuid

theorem mem_hyphenated {u : Uuid} {c : Char} (h : c ∈ u.hyphenated) : c = '-' ∨ ∃ n, c = Text.hexDigit n := by
  have digit : c ∈ u.simple → ∃ n, c = Text.hexDigit n := fun h => by
    obtain ⟨n, -, rfl⟩ := List.mem_map.1 h
    exact ⟨n, rfl⟩
  simp only [hyphenated, List.mem_append, List.mem_cons] at h
  rcases h with (((h | h | h) | h | h) | h | h) | h | h
  · exact .inr (digit (List.mem_of_mem_take h))
  · exact .inl h
  · exact .inr (digit (List.mem_of_mem_drop (List.mem_of_mem_take h)))
  · exact .inl h
  · exact .inr (digit (List.mem_of_mem_drop (List.mem_of_mem_take h)))
  · exact .inl h
  · exact .inr (digit (List.mem_of_mem_drop (List.mem_of_mem_take h)))
  · exact .inl h
  · exact .inr (digit (List.mem_of_mem_drop h))

end Uuid

namespace ExecutionId

theorem isUnreserved_of_mem {e : ExecutionId} {c : Char} (h : c ∈ e.text.toList) : isUnreserved c = true := by
  rw [text, String.toList_ofList] at h
  rcases List.mem_append.1 h with h | h
  · exact List.all_eq_true.1 (by decide : mark.all isUnreserved = true) c h
  · rcases Uuid.mem_hyphenated h with rfl | ⟨n, rfl⟩
    · rfl
    · exact Token.allows_hexDigit n

theorem parse?_text (e : ExecutionId) : parse? e.text = some e := by
  have marked : mark.isPrefixOf (mark ++ e.uuid.hyphenated) = true :=
    List.isPrefixOf_iff_prefix.2 (List.prefix_append _ _)
  rw [parse?, text, String.toList_ofList]
  simp only [marked, if_true]
  show (Uuid.read? e.uuid.text).map mk = some e
  rw [Uuid.read?_text, Option.map_some]

/-- An identifier in a path says no step, and is written as it is. -/
theorem encode_text (e : ExecutionId) : encode e.text = e.text ∧ e.text ≠ "" ∧ e.text ≠ "." ∧ e.text ≠ ".." := by
  refine ⟨?_, ?_⟩
  · rw [encode, Text.Percent.encodeChars_of_unreserved fun c hc => isUnreserved_of_mem hc, String.ofList_toList]
  · have first : e.text.toList.head? = some 'e' := by
      rw [text, String.toList_ofList]
      rfl
    refine ⟨?_, ?_, ?_⟩
    all_goals
      intro h
      rw [h] at first
      cases first

end ExecutionId

theorem Token.encode_text (t : Token) : encode t.text = t.text ∧ t.text ≠ "" := by
  refine ⟨?_, ?_⟩
  · rw [encode, Text.Percent.encodeChars_of_unreserved fun c hc => t.allows_of_mem hc, String.ofList_toList]
  · intro h
    have := t.valid
    rw [h] at this
    cases this

/-! ## What is written behind a base -/

namespace Api

theorem isSegment_encode {s : String} (h : s ≠ "") : IsSegment (encode s) := by
  have written : (encode s).toList = encodeChars s.toList := String.toList_ofList
  refine ⟨fun he => ?_, fun hm => ?_⟩
  · rw [he] at written
    exact Text.Percent.encodeChars_ne_nil (fun hn => h (String.toList_eq_nil_iff.1 hn)) written.symm
  · rw [written] at hm
    rcases Text.Percent.mem_encodeChars hm with h | h <;> cases h

end Api

namespace Url

/-- Whether a text can be a segment of a path. -/
def Names (s : String) : Prop := s ≠ "" ∧ s ≠ "." ∧ s ≠ ".."

variable {base url s : String}

/-- The words in the paths of the API. -/
def words : List String := ["api", "v1", "callbacks", "jobs", "decision", "executions"]

theorem settled_word {w : String} (h : w ∈ words) : Settled w.toList := by
  have plain : words.all (fun w => w.toList.all isUnreserved) = true := by decide +kernel
  have hu : ∀ c ∈ w.toList, isUnreserved c = true := List.all_eq_true.1 (List.all_eq_true.1 plain w h)
  have hd : w ≠ "." ∧ w ≠ ".." :=
    ⟨fun he => absurd (he ▸ h) (by decide : "." ∉ words), fun he => absurd (he ▸ h) (by decide : ".." ∉ words)⟩
  rw [← Text.Percent.encodeChars_of_unreserved hu]
  exact settled_encodeChars hd

/-- A text between some words, written behind a bare base, arrives as it was written. -/
theorem arrival_encode (hb : Bare base) (hs : Names s) (before after : List String)
    (h : ∀ w ∈ before ++ after, w ∈ words) {path : List Char}
    (hu : url.toList = (Text.trimEndOf '/' base).toList ++ path)
    (hp : path = join (before.map String.toList ++ (encode s).toList :: after.map String.toList)) :
    arrival url = path ∧ Api.Request.pathOf path = path := by
  rw [hp] at hu ⊢
  refine arrival_append hb (List.append_ne_nil_of_right_ne_nil _ (List.cons_ne_nil _ _)) (fun x hx => ?_) hu
  rcases List.mem_append.1 hx with hx | hx
  · obtain ⟨w, hw, rfl⟩ := List.mem_map.1 hx
    exact settled_word (h w (List.mem_append_left _ hw))
  · rcases List.mem_cons.1 hx with rfl | hx
    · rw [encode, String.toList_ofList]
      exact settled_encodeChars hs.2
    · obtain ⟨w, hw, rfl⟩ := List.mem_map.1 hx
      exact settled_word (h w (List.mem_append_right _ hw))

/-- Whether what is sent to a URL arrives where a route is, and its path is read there as it is. -/
structure Reaches (url : String) (route : Api.Route) : Prop where
  leads : Api.Route.LeadsTo (arrival url) route
  read : Api.Request.pathOf (arrival url) = arrival url

theorem reaches_of_arrival {path : List Char} {route : Api.Route}
    (h : arrival url = path ∧ Api.Request.pathOf path = path) (hl : Api.Route.LeadsTo path route) :
    Reaches url route := by
  obtain ⟨rfl, hp⟩ := h
  exact ⟨hl, hp⟩

theorem reaches_callback (hb : Bare base) (hs : Names s)
    (hu : url.toList = (Text.trimEndOf '/' base).toList ++ ("/api/v1/callbacks/".toList ++ (encode s).toList)) :
    Reaches url (.callback (encode s)) :=
  reaches_of_arrival (arrival_encode hb hs ["api", "v1", "callbacks"] [] (by decide) hu (by simp [join]))
    (.callback (Api.isSegment_encode hs.1))

theorem reaches_execution (hb : Bare base) (e : ExecutionId)
    (hu : url.toList = (Text.trimEndOf '/' base).toList ++ ("/api/v1/executions/".toList ++ e.text.toList)) :
    Reaches url (.execution e.text) := by
  obtain ⟨he, hs⟩ := e.encode_text
  exact reaches_of_arrival
    (arrival_encode hb hs ["api", "v1", "executions"] [] (by decide) hu (by simp [join, he]))
    (.execution (he ▸ Api.isSegment_encode hs.1))

theorem reaches_jobDecision (hb : Bare base) (hs : Names s)
    (hu : url.toList = (Text.trimEndOf '/' base).toList ++
      ("/api/v1/jobs/".toList ++ ((encode s).toList ++ "/decision".toList))) : Reaches url (.jobDecision s) := by
  refine reaches_of_arrival
    (arrival_encode hb hs ["api", "v1", "jobs"] ["decision"] (by decide) hu (by simp [join]))
    (.jobDecision (fun hn => (Api.isSegment_encode hs.1).1 (String.toList_eq_nil_iff.1 hn)) ?_)
  rw [encode, String.toList_ofList, Text.Percent.decodeChars?_encodeChars, String.ofList_toList]

end Url

/-- Whether a request is what another service sent, whatever its body. -/
def Api.Request.Carries (r : Api.Request) (q : Http.Request) : Prop :=
  r.method = q.method.text ∧ r.path = Url.arrival q.url

theorem Url.Reaches.leadsTo {q : Http.Request} {route : Api.Route} (h : Reaches q.url route) {r : Api.Request}
    (hr : r.Carries q) : Api.Route.LeadsTo r.path route := by
  rw [hr.2]
  exact h.leads

namespace Client

variable {base : String} {α : Type} {call : Call α}

theorem request_url (base : String) (call : Call α) :
    (request ⟨base⟩ call).url = Text.trimEndOf '/' base ++ ("/api/v1/" ++ call.path) := rfl

/-- What a client asks of an address reaches the callback there. -/
theorem reaches_callback (hb : Url.Bare base) {s : String} (hs : Url.Names s)
    (hp : call.path = Call.callbackPath s) : Url.Reaches (request ⟨base⟩ call).url (.callback (encode s)) :=
  Url.reaches_callback hb hs (by simp [request_url, hp, Call.callbackPath])

theorem reaches_execution (hb : Url.Bare base) {e : ExecutionId} (hp : call.path = Call.executionPath e) :
    Url.Reaches (request ⟨base⟩ call).url (.execution e.text) :=
  Url.reaches_execution hb e (by simp [request_url, hp, Call.executionPath])

theorem reaches_jobDecision (hb : Url.Bare base) {job : JobId} (hj : Url.Names job) :
    Url.Reaches (request ⟨base⟩ (.jobDecision job)).url (.jobDecision job) :=
  Url.reaches_jobDecision hb hj (by simp [request_url, Call.jobDecision])

end Client

theorem Issuer.reaches_callbackUrl {i : Issuer} (hb : Url.Bare i.baseUrl) {t : Token} (ht : Url.Names t.text) :
    Url.Reaches (i.callbackUrl t) (.callback t.text) := by
  obtain ⟨he, -⟩ := t.encode_text
  have written : (i.callbackUrl t).toList = (Text.trimEndOf '/' i.baseUrl).toList ++
      ("/api/v1/callbacks/".toList ++ (encode t.text).toList) := by simp [callbackUrl, callbackPath, he]
  have reached := Url.reaches_callback hb ht written
  rwa [he] at reached

/-! ## Where requests go -/

namespace Api

variable {g : Gate} {r : Request} {now : Instant} {uptime : Nat}

theorem answer_record {address : String} (hl : Route.LeadsTo r.path (.callback address)) (hm : r.method = "GET") :
    answer g r now uptime = (inspect g address, g) := by
  rw [hl.answer_eq, answerOn, if_neg (by simp [Route.methods, hm])]
  exact if_neg (by simp [hm])

theorem answer_deliver {address : String} (hl : Route.LeadsTo r.path (.callback address)) (hm : r.method = "POST") :
    answer g r now uptime = deliver g address r now := (deliversTo_of_leadsTo hl hm).answer_eq

theorem answer_jobDecision {job : JobId} (hl : Route.LeadsTo r.path (.jobDecision job)) (hm : r.method = "GET") :
    answer g r now uptime = (.okValue (.obj (("job_id", .str job) :: g.registry.jobJson job)), g) := by
  rw [hl.answer_eq, answerOn, if_neg (by simp [Route.methods, hm])]

theorem answer_execution {name : String} (hl : Route.LeadsTo r.path (.execution name)) (hm : r.method = "GET") :
    answer g r now uptime = (execution g name, g) := by
  rw [hl.answer_eq, answerOn, if_neg (by simp [Route.methods, hm])]
  exact if_neg (by simp [hm])

theorem answer_cancel {name : String} (hl : Route.LeadsTo r.path (.execution name)) (hm : r.method = "DELETE") :
    answer g r now uptime = cancel g name now := by
  rw [hl.answer_eq, answerOn, if_neg (by simp [Route.methods, hm])]
  exact if_pos hm

end Api

/-- **Every address that is written leads back to what it was written for**, behind a base URL that is bare: the
address that the issuer advertises for a token, and what a client requests of a token, a job or an execution.  Only the
texts that say a step to take have no address. -/
theorem addresses_lead_back {base : String} (hb : Url.Bare base) (g : Gate) (r : Api.Request) (now : Instant)
    (uptime : Nat) :
    let client : Client := ⟨base⟩
    let answered := Api.answer g r now uptime
    (∀ t : Token, t.text ≠ "." → t.text ≠ ".." → Token.parse? t.text = some t ∧
        (∀ i : Issuer, i.baseUrl = base → r.path = Url.arrival (i.callbackUrl t) →
          (r.method = "GET" → answered = (Api.inspect g t.text, g)) ∧
          (r.method = "POST" → answered = Api.deliver g t.text r now)) ∧
        (r.Carries (client.request (.record t.text)) → answered = (Api.inspect g t.text, g)) ∧
        (∀ body, r.Carries (client.request (.deliver t.text body)) → answered = Api.deliver g t.text r now)) ∧
      (∀ job : JobId, job ≠ "" → job ≠ "." → job ≠ ".." → r.Carries (client.request (.jobDecision job)) →
        answered = (.okValue (.obj (("job_id", .str job) :: g.registry.jobJson job)), g)) ∧
      (∀ e : ExecutionId, ExecutionId.parse? e.text = some e ∧
        (r.Carries (client.request (.execution e)) → answered = (Api.execution g e.text, g)) ∧
        (r.Carries (client.request (.cancel e)) → answered = Api.cancel g e.text now)) := by
  intro client answered
  refine ⟨fun t hd hdd => ?_, fun job hne hd hdd hr => ?_, fun e => ?_⟩
  · obtain ⟨he, hne⟩ := t.encode_text
    have ht : Url.Names t.text := ⟨hne, hd, hdd⟩
    refine ⟨t.parse?_text, ?_, fun hr => ?_, fun body hr => ?_⟩
    · rintro i rfl hp
      have led : Api.Route.LeadsTo r.path (.callback t.text) := hp ▸ (i.reaches_callbackUrl hb ht).leads
      exact ⟨Api.answer_record led, Api.answer_deliver led⟩
    · have led := (Client.reaches_callback hb ht rfl).leadsTo hr
      rw [he] at led
      exact Api.answer_record led hr.1
    · have led := (Client.reaches_callback hb ht rfl).leadsTo hr
      rw [he] at led
      exact Api.answer_deliver led hr.1
  · exact Api.answer_jobDecision ((Client.reaches_jobDecision hb ⟨hne, hd, hdd⟩).leadsTo hr) hr.1
  · exact ⟨e.parse?_text, fun hr => Api.answer_execution ((Client.reaches_execution hb rfl).leadsTo hr) hr.1,
      fun hr => Api.answer_cancel ((Client.reaches_execution hb rfl).leadsTo hr) hr.1⟩

/-- A job whose name looks like a path, and the callback of a token, behind a base with a slash; an address that says
to go back is lost. -/
theorem path_like_job_led_back :
    let base := "https://gate.example:8443/"
    let job := "ops/50%2F/decision"
    let t : Token := default
    let g : Gate := .start .empty none
    let issuer : Issuer := ⟨.empty, base, "ci", none⟩
    let look : Api.Request := ⟨"GET", "/api/v1/jobs/ops%2F50%252F%2Fdecision/decision", none, ByteArray.empty, none⟩
    let callback : Api.Request := ⟨"POST", issuer.callbackUrl t, none, "result=approved".toUTF8, none⟩
    look.Carries (Client.request ⟨base⟩ (.jobDecision job)) ∧
      Api.answer g look .epoch 0 = (.okValue (.obj (("job_id", .str job) :: g.registry.jobJson job)), g) ∧
      Api.answer g callback .epoch 0 = Api.deliver g t.text callback .epoch ∧
      Url.arrival (base ++ "api/v1/callbacks/%2e.") = "/api/v1/".toList := by
  intro base job t g issuer look callback
  have bare : Url.Bare base :=
    ⟨"https://".toList, by decide, "gate.example:8443".toList, 1, by decide, Url.inHost_of_all (by decide +kernel),
      by decide⟩
  have carries : look.Carries (Client.request ⟨base⟩ (.jobDecision job)) := ⟨rfl, by decide +kernel⟩
  obtain ⟨-, asked, -⟩ := addresses_lead_back bare g look .epoch 0
  obtain ⟨posted, -, -⟩ := addresses_lead_back bare g callback .epoch 0
  obtain ⟨-, advertised, -⟩ := posted t (by decide) (by decide)
  exact ⟨carries, asked job (by decide) (by decide) (by decide) carries,
    (advertised issuer rfl (by decide +kernel)).2 rfl, by decide +kernel⟩

end ApprovalGate
