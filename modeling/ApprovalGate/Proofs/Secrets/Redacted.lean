import ApprovalGate.Config.Setup
import ApprovalGate.Proofs.Endpoint
import ApprovalGate.Submission.Sending
/-!
# Without secrets

A value is `redacted` when the passwords and the tokens in its credentials are left out.  User names, addresses and
everything else stay, so two values differ in nothing but secrets when they are redacted to the same.  What is printed,
checked and looked up comes out alike before and after, and so does what is registered for a request that was sent.
-/
namespace ApprovalGate

/-! ## Endpoints -/

def Credentials.redacted : Credentials → Credentials
  | none => none
  | basic username _ => basic username ""
  | token _ => token ""

/-- Credentials are redacted to the same if they differ in a password or a token at most. -/
theorem Credentials.redacted_eq_iff {c c' : Credentials} : c.redacted = c'.redacted ↔
    c = c' ∨ (∃ username password password', c = basic username password ∧ c' = basic username password') ∨
      ∃ secret secret', c = token secret ∧ c' = token secret' := by
  cases c with
  | none => cases c' <;> simp [redacted]
  | basic username password =>
    cases c' with
    | basic username' password' =>
      simp only [redacted, basic.injEq, and_true, reduceCtorEq, false_and, exists_false, or_false]
      constructor
      · rintro rfl
        exact .inr ⟨username, password, password', ⟨rfl, rfl⟩, rfl, rfl⟩
      · rintro (⟨rfl, -⟩ | ⟨_, _, _, ⟨rfl, -⟩, rfl, -⟩) <;> rfl
    | _ => simp [redacted]
  | token secret => cases c' <;> simp [redacted]

theorem Credentials.text_redacted (c : Credentials) : c.redacted.text = c.text := by
  cases c <;> rfl

namespace Endpoint

def redacted (e : Endpoint) : Endpoint := { e with auth := e.auth.redacted }

theorem text_redacted (e : Endpoint) : e.redacted.text = e.text := by
  rw [text, text, redacted, Credentials.text_redacted]

/-- What a network answers a request, if that depends on no secret, is told without any. -/
theorem send_redacted {m : Type → Type} [Monad m] {network : Http.Network m}
    (blind : ∀ r, network { r with credentials := r.credentials.redacted } = network r) (e : Endpoint)
    (method : Method) (payload : Json) :
    e.redacted.send network method payload = e.send network method payload := by
  have asked : network (e.redacted.request method payload) = network (e.request method payload) :=
    blind (e.request method payload)
  rw [send, send, asked]
  rfl

end Endpoint

namespace EndpointTable

def redacted (t : EndpointTable) : EndpointTable :=
  ⟨t.default.map Endpoint.redacted, t.jobs.map (Prod.map id Endpoint.redacted)⟩

variable (t : EndpointTable)

/-- The order of the entries depends on their prefixes only. -/
theorem ranked_redacted : t.redacted.ranked = t.ranked.map (Prod.map id Endpoint.redacted) := by
  symm
  apply List.map_mergeSort
  intro a _ b _
  rfl

theorem lookup?_redacted (job : String) : t.redacted.lookup? job = (t.lookup? job).map Endpoint.redacted := by
  have found : (t.redacted.ranked.find? fun x => hasPrefix x.1 job) =
      (t.ranked.find? fun x => hasPrefix x.1 job).map (Prod.map id Endpoint.redacted) := by
    rw [ranked_redacted, List.find?_map]
    rfl
  rw [lookup?_eq, lookup?_eq, found]
  cases t.ranked.find? fun x => hasPrefix x.1 job <;> rfl

theorem resolve_redacted (job : String) : t.redacted.resolve job = (t.resolve job).map Endpoint.redacted := by
  rw [resolve, resolve, lookup?_redacted]
  cases t.lookup? job <;> rfl

theorem optionText_redacted (e? : Option Endpoint) : optionText (e?.map Endpoint.redacted) = optionText e? := by
  cases e? with
  | none => rfl
  | some e => rw [Option.map_some, optionText, optionText, Endpoint.text_redacted]

theorem text_redacted : t.redacted.text = t.text := by
  have default : t.redacted.default = t.default.map Endpoint.redacted := rfl
  rw [text, text, default, optionText_redacted, ranked_redacted, List.map_map]
  simp only [Function.comp_def, Prod.map, id, Endpoint.text_redacted]

end EndpointTable

/-! ## Submissions -/

def Issuer.redacted (i : Issuer) : Issuer := { i with endpoints := i.endpoints.redacted }

def Draft.redacted (d : Draft) : Draft := { d with endpoint := d.endpoint.redacted }

namespace Issuer

/-- What is written out for a request, and why it is not, depends on no secret. -/
theorem draft_redacted (i : Issuer) (r : ChangeRequest) (random : Uuid) :
    i.redacted.draft r random = (i.draft r random).map Draft.redacted := by
  rw [draft, draft]
  show (r.validate >>= fun _ => ChangeRequest.checkTimeout (r.timeout <|> i.defaultTimeout) >>= fun _ =>
    i.endpoints.redacted.resolve r.job >>= _) = _
  rw [EndpointTable.resolve_redacted]
  cases r.validate with
  | error failure => rfl
  | ok _ =>
    cases hc : ChangeRequest.checkTimeout (r.timeout <|> i.defaultTimeout) with
    | error failure => simp only [hc]; rfl
    | ok _ =>
      simp only [hc]
      cases i.endpoints.resolve r.job <;> rfl

/-- What the answer to a request comes to depends on the address that the request was sent to, and on no secret. -/
theorem complete_redacted (g : Registry) (d : Draft) (e : ExecutionId) (now : Instant) (reply : Outcome Reply) :
    complete g d.redacted e now reply = complete g d e now reply := rfl

end Issuer

/-! ## Configurations -/

namespace Config

def redacted (c : Config) : Config := { c with endpoints := c.endpoints.redacted }

variable (c : Config)

theorem text_redacted : c.redacted.text = c.text := by
  have default : c.redacted.endpoints.default = c.endpoints.default.map Endpoint.redacted := rfl
  have jobs : c.redacted.endpoints.jobs = c.endpoints.jobs.map (Prod.map id Endpoint.redacted) := rfl
  rw [text, text, default, EndpointTable.optionText_redacted, jobs, List.map_map]
  simp only [Function.comp_def, Prod.map, id, Endpoint.text_redacted]
  rfl

theorem checkJobs_redacted (jobs : List (String × Endpoint)) :
    checkJobs (jobs.map (Prod.map id Endpoint.redacted)) = checkJobs jobs := by
  induction jobs with
  | nil => rfl
  | cons entry jobs ih =>
    rw [List.map_cons, Prod.map, checkJobs, checkJobs, ih]
    rfl

/-- **What is wrong with a configuration does not depend on its secrets.** -/
theorem validate_redacted : c.redacted.validate = c.validate := by
  have jobs : c.redacted.endpoints.jobs = c.endpoints.jobs.map (Prod.map id Endpoint.redacted) := rfl
  have default : c.redacted.endpoints.default = c.endpoints.default.map Endpoint.redacted := rfl
  rw [validate, validate, jobs, checkJobs_redacted, default]
  cases c.endpoints.default <;> rfl

end Config
end ApprovalGate
