import ApprovalGate.Config.Setup
import ApprovalGate.Proofs.Submission.Exchange
import ApprovalGate.Submission.Sending
/-!
# Checked configurations

What the check of a configuration rules out does not come up later (`validate_dependable`): not in the checks of a
submission, not where a change request is sent, and not where the store is opened.
-/
namespace ApprovalGate

/-- What carries messages over a network. -/
def Http.carry (network : Http.Network Id) (m : Simulation.Message) : Outcome Reply :=
  m.endpoint.send network m.method m.payload

/-- The failure of a submission that was not sent because its endpoint has no address that can be reached. -/
def Failure.unreachable (job url : String) : Failure :=
  .submissionFailed job (Failure.network (Http.Fault.invalidUrl url).message).message

namespace Config

variable {c : Config}

/-! ## What the check asks for -/

theorem require_ok_iff {met : Bool} {setting cause : String} : require met setting cause = .ok () ↔ met = true := by
  cases met <;> simp [require]

theorem checkEndpoint_ok_iff {setting : String} {e : Endpoint} :
    checkEndpoint setting e = .ok () ↔ Http.isUrl e.url = true := require_ok_iff

theorem checkJobs_ok_iff {jobs : List (String × Endpoint)} :
    checkJobs jobs = .ok () ↔ ∀ x ∈ jobs, Http.isUrl x.2.url = true := by
  induction jobs with
  | nil => simp [checkJobs]
  | cons x jobs ih => rw [checkJobs, seq_ok_iff, checkEndpoint_ok_iff, ih, List.forall_mem_cons]

/-- What a configuration in order satisfies. -/
structure Checked (c : Config) : Prop where
  publicUrl : Http.isUrl c.publicBaseUrl = true
  named : Text.blank c.tool = false
  timeout : c.wait.defaultTimeoutSecs ≤ maxTimeoutSecs
  interval : 0 < c.wait.checkIntervalMillis
  placed : isStorePlaced c.store = true
  default : ∀ e, c.endpoints.default = some e → Http.isUrl e.url = true
  jobs : ∀ x ∈ c.endpoints.jobs, Http.isUrl x.2.url = true

/-- **The check of a configuration accepts just those that are in order.** -/
theorem validate_ok_iff : c.validate = .ok () ↔ c.Checked := by
  rw [validate, seq_ok_iff, require_ok_iff, seq_ok_iff, require_ok_iff, seq_ok_iff, require_ok_iff, seq_ok_iff,
    require_ok_iff, Bool.not_eq_eq_eq_not, Bool.not_true, decide_eq_true_eq, decide_eq_true_eq]
  constructor
  · rintro ⟨hurl, hnamed, htimeout, hinterval, h⟩
    cases hplaced : isStorePlaced c.store with
    | false =>
      rw [hplaced] at h
      cases h
    | true =>
      rw [hplaced] at h
      cases hdefault : c.endpoints.default with
      | none =>
        rw [hdefault] at h
        exact ⟨hurl, hnamed, htimeout, hinterval, hplaced, fun e he => (by cases hdefault.symm.trans he),
          checkJobs_ok_iff.1 h⟩
      | some e =>
        rw [hdefault] at h
        obtain ⟨he, hjobs⟩ := seq_ok_iff.1 h
        exact ⟨hurl, hnamed, htimeout, hinterval, hplaced,
          fun e' he' => by cases hdefault.symm.trans he'; exact checkEndpoint_ok_iff.1 he, checkJobs_ok_iff.1 hjobs⟩
  · rintro ⟨hurl, hnamed, htimeout, hinterval, hplaced, hdefault, hjobs⟩
    refine ⟨hurl, hnamed, htimeout, hinterval, ?_⟩
    rw [hplaced]
    cases he : c.endpoints.default with
    | none => exact checkJobs_ok_iff.2 hjobs
    | some e => exact seq_ok_iff.2 ⟨checkEndpoint_ok_iff.2 (hdefault e he), checkJobs_ok_iff.2 hjobs⟩

/-! ## What a configuration in order does later -/

variable (h : c.Checked)
include h

theorem Checked.isUrl_of_resolve {job : JobId} {e : Endpoint} (he : c.issuer.endpoints.resolve job = .ok e) :
    Http.isUrl e.url = true := by
  rcases EndpointTable.resolve_mem he with he | ⟨p, he⟩
  · exact h.default e he
  · exact h.jobs (p, e) he

theorem Checked.checkTimeout_default : ChangeRequest.checkTimeout c.issuer.defaultTimeout = .ok () := by
  refine ChangeRequest.checkTimeout_ok_iff.2 fun t ht => ?_
  have htimeout := h.timeout
  simp only [issuer, WaitSettings.defaultTimeout] at ht
  split at ht
  · cases ht
    simp only [maxTimeoutSecs, ChangeRequest.maxTimeout, Span.ofSeconds, Span.seconds] at htimeout ⊢
    omega
  · cases ht

/-- A request in order that brings no timeout of its own can only be without an endpoint. -/
theorem Checked.draft_error {r : ChangeRequest} {random : Uuid} {f : Failure} (hr : r.validate = .ok ())
    (ht : r.timeout = none) (hd : c.issuer.draft r random = .error f) : f = .endpointNotConfigured r.job := by
  unfold Issuer.draft at hd
  rcases bind_error hd with hv | ⟨_, _, hd⟩
  · cases hr.symm.trans hv
  rcases bind_error hd with hc | ⟨_, _, hd⟩
  · rw [ht] at hc
    cases h.checkTimeout_default.symm.trans hc
  rcases bind_error hd with he | ⟨_, _, hd⟩
  · exact (EndpointTable.resolve_error_iff.1 he).1
  · cases hd

theorem Checked.isUrl_of_draft {r : ChangeRequest} {random : Uuid} {d : Draft} (hd : c.issuer.draft r random = .ok d) :
    Http.isUrl d.endpoint.url = true := h.isUrl_of_resolve (Issuer.draft_route hd).1

end Config

/-! ## Addresses that cannot be reached -/

theorem Failure.head?_message (f : Failure) : f.message.toList.head? = some 'E' := by
  cases f <;> simp [message, code]

theorem Failure.network_message_inj {cause cause' : String} (h : (network cause).message = (network cause').message) :
    cause = cause' := by
  unfold message description code at h
  dsimp only at h
  rwa [String.append_right_inj, String.append_right_inj] at h

theorem Http.Fault.unanswered_ne_invalidUrl (url : String) : unanswered.message ≠ (invalidUrl url).message := by
  intro h
  have h := congrArg (fun s : String => s.toList.head?) h
  unfold message at h
  dsimp only at h
  rw [String.toList_append] at h
  cases h

/-- Where the address is in order a network is asked, and the only failure is that it does not answer. -/
theorem Http.carry_error {network : Network Id} {m : Simulation.Message} {f : Failure}
    (h : carry network m = .error f) (hurl : isUrl m.endpoint.url = true) : f = .network Fault.unanswered.message := by
  unfold carry Endpoint.send at h
  rw [if_pos hurl] at h
  change (match network (m.endpoint.request m.method m.payload) with
    | some r => (.ok (Endpoint.reply r) : Outcome Reply)
    | none => .error (.network Fault.unanswered.message)) = _ at h
  split at h
  · cases h
  · cases h
    rfl

/-- An answer that is not accepted is told by its status, not as a failure on the way. -/
theorem Issuer.accepted_ne_unreachable {d : Draft} {reply : Reply} (job url : String) :
    accepted d reply ≠ .error (.unreachable job url) := by
  intro h
  have hstatus : ∀ rest, (reply.statusText ++ rest).toList.head? = some 'H' := fun rest => by simp [Reply.statusText]
  have hcause : ∀ rest, reply.statusText ++ rest ≠ (Failure.network (Http.Fault.invalidUrl url).message).message := by
    intro rest hrest
    have hhead := congrArg (fun s : String => s.toList.head?) hrest
    simp only [hstatus, Failure.head?_message] at hhead
    cases hhead
  unfold accepted at h
  split at h
  · cases h
  · split at h
    · cases h
    · split at h
      · cases h
      · have h := (Failure.submissionFailed.inj (Except.error.inj h)).2
        split at h
        · rw [String.append_assoc] at h
          exact hcause _ h
        · exact hcause "" (by rwa [String.append_empty])

/-! ## The whole -/

/-- What does not fail any more, once a configuration is set up with. -/
structure Config.Dependable (c : Config) : Prop where
  /-- A request in order without a timeout of its own can only fail to be written out for want of an endpoint. -/
  drafts : ∀ (r : ChangeRequest) (random : Uuid) (f : Failure), r.validate = .ok () → r.timeout = none →
    c.issuer.draft r random = .error f → f = .endpointNotConfigured r.job
  /-- Its submission blames no field of it, whatever is answered. -/
  blames : ∀ (g : Registry) (e : ExecutionId) (r : ChangeRequest) (random : Uuid) (now : Instant)
    (transport : Simulation.Message → Outcome Reply) (field cause : String), r.validate = .ok () → r.timeout = none →
    (c.issuer.submit g e r random now transport).result ≠ .error (.validation field cause)
  /-- Every job is led to an address that can be reached. -/
  routes : ∀ (job : JobId) (e : Endpoint), c.issuer.endpoints.resolve job = .ok e → Http.isUrl e.url = true
  /-- Nothing is sent anywhere else. -/
  sends : ∀ (g : Registry) (e : ExecutionId) (r : ChangeRequest) (random : Uuid) (now : Instant)
    (transport : Simulation.Message → Outcome Reply),
    ∀ m ∈ (c.issuer.submit g e r random now transport).sent, Http.isUrl m.endpoint.url = true
  /-- No submission over a network fails for its endpoint's address. -/
  reaches : ∀ (network : Http.Network Id) (g : Registry) (e : ExecutionId) (r : ChangeRequest) (random : Uuid)
    (now : Instant) (job url : String),
    (c.issuer.submit g e r random now (Http.carry network)).result ≠ .error (.unreachable job url)
  /-- The store is opened, or its file is at fault, but never the setting. -/
  opens : ∀ (disk : Disk) (setting cause : String), c.openStore disk ≠ .error (.configValue setting cause)

theorem Store.openFile_ne_configValue {path : String} {disk : Disk} {setting cause : String} :
    openFile path disk ≠ .error (.configValue setting cause) := by
  intro h
  unfold openFile at h
  dsimp only at h
  split at h
  · cases h
  · split at h
    · split at h
      · cases h
      · split at h <;> cases h
    · cases h

/-- What a submission fails by was found before anything was sent, or it is what the second half fails by. -/
theorem Issuer.submit_error {i : Issuer} {g : Registry} {e : ExecutionId} {r : ChangeRequest} {random : Uuid}
    {now : Instant} {transport : Simulation.Message → Outcome Reply} {f : Failure}
    (h : (i.submit g e r random now transport).result = .error f) :
    i.draft r random = .error f ∨
      ∃ d, i.draft r random = .ok d ∧ (complete g d e now (transport d.message)).1 = .error f := by
  unfold submit at h
  cases hd : i.draft r random with
  | error f' =>
    rw [hd] at h
    cases h
    exact .inl rfl
  | ok d =>
    rw [hd] at h
    exact .inr ⟨d, rfl, h⟩

namespace Config.Checked

variable {c : Config} (h : c.Checked)
include h

theorem submit_ne_validation {g : Registry} {e : ExecutionId} {r : ChangeRequest} {random : Uuid} {now : Instant}
    {transport : Simulation.Message → Outcome Reply} {field cause : String} (hr : r.validate = .ok ())
    (ht : r.timeout = none) :
    (c.issuer.submit g e r random now transport).result ≠ .error (.validation field cause) := by
  intro hf
  rcases Issuer.submit_error hf with hd | ⟨d, -, hc⟩
  · cases h.draft_error hr ht hd
  · have hcode := (Issuer.complete_error (Prod.ext hc rfl)).2
    simp [Failure.code] at hcode

theorem isUrl_of_sent {g : Registry} {e : ExecutionId} {r : ChangeRequest} {random : Uuid} {now : Instant}
    {transport : Simulation.Message → Outcome Reply} {m : Simulation.Message}
    (hm : m ∈ (c.issuer.submit g e r random now transport).sent) : Http.isUrl m.endpoint.url = true := by
  unfold Issuer.submit at hm
  cases hd : c.issuer.draft r random with
  | error f =>
    rw [hd] at hm
    cases hm
  | ok d =>
    rw [hd] at hm
    cases List.mem_singleton.1 hm
    exact h.isUrl_of_draft hd

theorem submit_ne_unreachable {network : Http.Network Id} {g : Registry} {e : ExecutionId} {r : ChangeRequest}
    {random : Uuid} {now : Instant} {job url : String} :
    (c.issuer.submit g e r random now (Http.carry network)).result ≠ .error (.unreachable job url) := by
  intro hf
  rcases Issuer.submit_error hf with hd | ⟨d, hd, hc⟩
  · rcases Issuer.draft_error hd with ⟨field, cause, hb⟩ | hb <;> cases hb
  · rcases hx : Issuer.complete g d e now (Http.carry network d.message) with ⟨result, g'⟩
    rw [hx] at hc
    generalize hreply : Http.carry network d.message = reply at hx
    cases Issuer.completes hx with
    | unanswered f =>
      have hmessage := (Failure.submissionFailed.inj (Except.error.inj hc)).2
      obtain rfl := Http.carry_error hreply (h.isUrl_of_draft hd)
      exact Http.Fault.unanswered_ne_invalidUrl url (Failure.network_message_inj hmessage)
    | declined ha =>
      cases Except.error.inj hc
      exact Issuer.accepted_ne_unreachable job url ha
    | unregistered _ hr =>
      rcases (Registry.register_error hr).2 with hb | ⟨path, cause, hb⟩ <;> cases hb.symm.trans (Except.error.inj hc)
    | registered => cases hc

theorem openStore_ne_configValue {disk : Disk} {setting cause : String} :
    c.openStore disk ≠ .error (.configValue setting cause) := by
  intro ho
  have hplaced := h.placed
  unfold openStore at ho
  split at ho
  · cases ho
  · rename_i path _ _
    cases hopen : Store.openFile path disk with
    | error f =>
      rw [hopen] at ho
      cases ho
      exact Store.openFile_ne_configValue hopen
    | ok medium =>
      rw [hopen] at ho
      cases ho
  · rename_i hkind hpath
    simp [isStorePlaced, hkind, hpath] at hplaced

end Config.Checked

/-- **A configuration that its check accepts does not fail later by what the check rules out.** -/
theorem Config.validate_dependable {c : Config} (hc : c.validate = .ok ()) : c.Dependable where
  drafts _ _ _ hr ht hd := (validate_ok_iff.1 hc).draft_error hr ht hd
  blames _ _ _ _ _ _ _ _ hr ht := (validate_ok_iff.1 hc).submit_ne_validation hr ht
  routes _ _ he := (validate_ok_iff.1 hc).isUrl_of_resolve he
  sends _ _ _ _ _ _ _ hm := (validate_ok_iff.1 hc).isUrl_of_sent hm
  reaches _ _ _ _ _ _ _ _ := (validate_ok_iff.1 hc).submit_ne_unreachable
  opens _ _ _ := (validate_ok_iff.1 hc).openStore_ne_configValue

/-- A configuration with a file, a default and a job's endpoint of its own. -/
theorem Config.routed_dependable :
    let c : Config := {
      store := { kind := .file, path := some "registry.json" }
      endpoints := ⟨some ⟨"https://change.example.com", .none⟩, [("pay", ⟨"http://pay.example.com", .token "s"⟩)]⟩ }
    c.validate = .ok () ∧ c.Dependable := by
  intro c
  have hc : c.validate = .ok () := by
    refine validate_ok_iff.2 ⟨by decide, by decide, by decide, by decide, rfl, ?_, ?_⟩
    · rintro e ⟨⟩
      rfl
    · intro x hx
      obtain rfl := List.mem_singleton.1 hx
      rfl
  exact ⟨hc, validate_dependable hc⟩

end ApprovalGate
