import ApprovalGate.Proofs.Endpoint
import ApprovalGate.Submission.Sending
/-!
# The halves of a submission

What can be wrong with a request before anything is sent, and what the answer to it comes to once it is registered
(`Issuer.Completes`).
-/
namespace ApprovalGate

/-! ## What can be wrong with a request -/

section

variable {ε α β : Type} {x : Except ε α} {k : α → Except ε β}

theorem bind_error {f : ε} (h : (x >>= k) = .error f) : x = .error f ∨ ∃ a, x = .ok a ∧ k a = .error f := by
  cases x with
  | error f' => cases h; exact .inl rfl
  | ok a => exact .inr ⟨a, rfl, h⟩

theorem bind_ok {b : β} (h : (x >>= k) = .ok b) : ∃ a, x = .ok a ∧ k a = .ok b := by
  cases x with
  | error f => cases h
  | ok a => exact ⟨a, rfl, h⟩

theorem seq_ok_iff {x : Except ε Unit} {k : Unit → Except ε Unit} :
    (x >>= k) = .ok () ↔ x = .ok () ∧ k () = .ok () := by
  constructor
  · intro h
    obtain ⟨⟨⟩, hx, hk⟩ := bind_ok h
    exact ⟨hx, hk⟩
  · rintro ⟨rfl, hk⟩
    exact hk

end

namespace ChangeRequest

variable {f : Failure}

/-- A failure that names a field of the request. -/
def Blames (f : Failure) : Prop := ∃ field cause, f = .validation field cause

theorem require_error {field value : String} (h : require field value = .error f) : Blames f := by
  unfold require at h
  split at h
  · cases h
    exact ⟨_, _, rfl⟩
  · cases h

theorem checkTimeout_error {timeout : Option Span} (h : checkTimeout timeout = .error f) : Blames f := by
  unfold checkTimeout at h
  split at h
  · split at h
    · cases h
      exact ⟨_, _, rfl⟩
    · cases h
  · cases h

theorem checkTimeout_ok_iff {timeout : Option Span} :
    checkTimeout timeout = .ok () ↔ ∀ t, timeout = some t → t.nanos ≤ maxTimeout.nanos := by
  cases timeout with
  | none => simp [checkTimeout]
  | some t =>
    simp only [checkTimeout, Option.some.injEq, forall_eq']
    by_cases h : maxTimeout.nanos < t.nanos
    · rw [if_pos (show maxTimeout < t from h)]
      exact ⟨fun hok => (by cases hok), fun hle => absurd h (Nat.not_lt.2 hle)⟩
    · rw [if_neg (show ¬ maxTimeout < t from h)]
      exact ⟨fun _ => Nat.not_lt.1 h, fun _ => rfl⟩

theorem checkType_error {type? : Option String} (h : checkType type? = .error f) : Blames f := by
  unfold checkType at h
  split at h
  · split at h
    · cases h
    · cases h
      exact ⟨_, _, rfl⟩
  · cases h

theorem validate_error {r : ChangeRequest} (h : r.validate = .error f) : Blames f := by
  unfold validate at h
  rcases bind_error h with h | ⟨_, _, h⟩
  · exact require_error h
  rcases bind_error h with h | ⟨_, _, h⟩
  · exact require_error h
  rcases bind_error h with h | ⟨_, _, h⟩
  · exact require_error h
  rcases bind_error h with h | ⟨_, _, h⟩
  · exact checkTimeout_error h
  · exact checkType_error h

end ChangeRequest

/-! ## The two halves -/

namespace Issuer

theorem draft_error {i : Issuer} {r : ChangeRequest} {random : Uuid} (h : i.draft r random = .error f) :
    ChangeRequest.Blames f ∨ f = .endpointNotConfigured r.job := by
  unfold draft at h
  rcases bind_error h with h | ⟨_, _, h⟩
  · exact .inl (ChangeRequest.validate_error h)
  dsimp only at h
  rcases bind_error h with h | ⟨_, _, h⟩
  · exact .inl (ChangeRequest.checkTimeout_error h)
  rcases bind_error h with h | ⟨_, _, h⟩
  · exact .inr (EndpointTable.resolve_error_iff.1 h).1
  · cases h

/-- A request that was written out has a token minted for it, and its address and its payload are made with that. -/
theorem draft_ok {i : Issuer} {r : ChangeRequest} {random : Uuid} {d : Draft} (h : i.draft r random = .ok d) :
    d.request = r ∧ d.token = Token.mint i.tool r.job random ∧ d.callbackUrl = i.callbackUrl d.token ∧
      d.payload = r.toPayload i.tool d.callbackUrl := by
  unfold draft at h
  obtain ⟨_, _, h⟩ := bind_ok h
  dsimp only at h
  obtain ⟨_, _, h⟩ := bind_ok h
  obtain ⟨endpoint, _, h⟩ := bind_ok h
  cases h
  exact ⟨rfl, rfl, rfl, rfl⟩

/-- A request that was written out goes where its job leads, and waits as long as it says or else as the issuer does. -/
theorem draft_route {i : Issuer} {r : ChangeRequest} {random : Uuid} {d : Draft} (h : i.draft r random = .ok d) :
    i.endpoints.resolve r.job = .ok d.endpoint ∧ d.timeout = (r.timeout <|> i.defaultTimeout) ∧
      ChangeRequest.checkTimeout d.timeout = .ok () := by
  unfold draft at h
  obtain ⟨_, _, h⟩ := bind_ok h
  dsimp only at h
  obtain ⟨_, htimeout, h⟩ := bind_ok h
  obtain ⟨endpoint, hroute, h⟩ := bind_ok h
  cases h
  exact ⟨hroute, rfl, htimeout⟩

variable {f : Failure}

theorem accepted_error {d : Draft} {reply : Reply} (h : accepted d reply = .error f) :
    (∃ cause, f = .authentication d.endpoint.url cause) ∨ (∃ message, f = .submissionRejected d.request.job message) ∨
      ∃ cause, f = .submissionFailed d.request.job cause := by
  unfold accepted at h
  split at h
  · cases h
    exact .inl ⟨_, rfl⟩
  · split at h
    · cases h
      exact .inr (.inl ⟨_, rfl⟩)
    · split at h
      · cases h
      · cases h
        exact .inr (.inr ⟨_, rfl⟩)

/-- An answer that is accepted has passed the three checks, and its body is what counts. -/
theorem accepted_ok {d : Draft} {reply : Reply} {body : Json} (h : accepted d reply = .ok body) :
    reply.isAuthFailure = false ∧ reply.refuses = false ∧ reply.isSuccess = true ∧ body = reply.body := by
  unfold accepted at h
  split at h
  · cases h
  · rename_i ha
    split at h
    · cases h
    · rename_i hr
      split at h
      · rename_i hs
        cases h
        exact ⟨Bool.eq_false_iff.2 ha, Bool.eq_false_iff.2 hr, hs, rfl⟩
      · cases h

theorem waitFor_fields (d : Draft) (reply : Reply) (e : ExecutionId) (now : Instant) :
    (waitFor d reply e now).token = (address d reply).1 ∧ (waitFor d reply e now).aliasToken = (address d reply).2 ∧
      (waitFor d reply e now).execution = e ∧ (waitFor d reply e now).job = some d.request.job := by
  unfold waitFor
  cases d.timeout <;> exact ⟨rfl, rfl, rfl, rfl⟩

theorem waitFor_metadata (d : Draft) (reply : Reply) (e : ExecutionId) (now : Instant) :
    (waitFor d reply e now).metadata = .obj [("build_number", .str d.request.buildNumber),
      ("callback_url", .str d.callbackUrl), ("endpoint", .str d.endpoint.url)] := by
  unfold waitFor
  cases d.timeout <;> rfl

/-- What the second half of a submission comes to, and which registry it leaves. -/
inductive Completes (g : Registry) (d : Draft) (e : ExecutionId) (now : Instant) :
    Outcome Reply → Outcome Submission → Registry → Prop where
  | unanswered (f : Failure) :
    Completes g d e now (.error f) (.error (.submissionFailed d.request.job f.message)) g
  | declined {reply : Reply} {f : Failure} : accepted d reply = .error f →
    Completes g d e now (.ok reply) (.error f) g
  | unregistered {reply : Reply} {body : Json} {f : Failure} {h : Registry} : accepted d reply = .ok body →
    g.register (waitFor d reply e now) = (.error f, h) → Completes g d e now (.ok reply) (.error f) h
  | registered {reply : Reply} {body : Json} {sup : Superseded} {h : Registry} : accepted d reply = .ok body →
    g.register (waitFor d reply e now) = (.ok sup, h) → Completes g d e now (.ok reply)
      (.ok { token := (waitFor d reply e now).token, callbackUrl := d.callbackUrl, timeout := d.timeout
             response := body, superseded := sup }) h

/-- Every second half comes to one of these. -/
theorem completes {g h : Registry} {d : Draft} {e : ExecutionId} {now : Instant} {reply : Outcome Reply}
    {result : Outcome Submission} (hc : complete g d e now reply = (result, h)) :
    Completes g d e now reply result h := by
  unfold complete at hc
  cases reply with
  | error f =>
    cases hc
    exact .unanswered f
  | ok reply =>
    cases ha : accepted d reply with
    | error f =>
      simp only [ha] at hc
      cases hc
      exact .declined ha
    | ok body =>
      simp only [ha] at hc
      rcases hr : g.register (waitFor d reply e now) with ⟨f | sup, g'⟩
      · simp only [hr] at hc
        cases hc
        exact .unregistered ha hr
      · simp only [hr] at hc
        cases hc
        exact .registered ha hr

/-- A submission that was accepted registered its wait. -/
theorem complete_ok {g h : Registry} {d : Draft} {e : ExecutionId} {now : Instant} {reply : Reply} {s : Submission}
    (hc : complete g d e now (.ok reply) = (.ok s, h)) : g.register (waitFor d reply e now) = (.ok s.superseded, h) ∧
      s.token = (waitFor d reply e now).token ∧ s.timeout = d.timeout := by
  cases completes hc with
  | registered _ hr => exact ⟨hr, rfl, rfl⟩

end Issuer
end ApprovalGate
