import Mathlib.Data.List.Forall2
import ApprovalGate.Proofs.Registry.Operation
import ApprovalGate.Proofs.Submission.Halves
import ApprovalGate.Simulation.Exchange
/-!
# Submissions from end to end

A submission writes a request out, sends it and takes in the answer (`Issuer.submit`, of which a world's submission is
the case where a script answers).  What fails before anything is sent, what the answer fails by and what the registry
fails by are kept apart, and none of them registers anything (`failed_submission_registers_nothing`).
-/
namespace ApprovalGate

open Simulation (Message World)

/-! ## Answers that decline -/

/-- Whether a text is a word in any mix of small and capital letters. -/
def Text.Spells (word s : String) : Prop := List.Forall₂ (fun l c => c = l ∨ c = l.toUpper) word.toList s.toList

/-- The answers, if there is one at all, that do not accept a submission. -/
inductive Declines : Outcome Reply → Prop where
  | unanswered (f : Failure) : Declines (.error f)
  | unauthorized {reply : Reply} : reply.status = 401 ∨ reply.status = 403 → Declines (.ok reply)
  | refused {reply : Reply} {s : String} : reply.body.member? "status" = some (.str s) → Text.Spells "error" s →
    Declines (.ok reply)
  | failed {reply : Reply} : reply.status < 200 ∨ 300 ≤ reply.status → Declines (.ok reply)

theorem Text.Spells.toLower {word s : String} (h : Spells word s)
    (hw : ∀ l ∈ word.toList, l.toLower = l ∧ l.toUpper.toLower = l) : s.map Char.toLower = word := by
  have hl : s.toList.map Char.toLower = word.toList := by
    unfold Spells at h
    generalize word.toList = ls at h hw
    generalize s.toList = cs at h
    induction h with
    | nil => rfl
    | @cons l c ls cs hc _ ih =>
      obtain ⟨h1, h2⟩ := hw l List.mem_cons_self
      have hc : c.toLower = l := by
        rcases hc with rfl | rfl
        · exact h1
        · exact h2
      rw [List.map_cons, hc, ih fun l' hl' => hw l' (List.mem_cons_of_mem _ hl')]
  rw [← String.toList_inj, String.toList_map, hl]

namespace Issuer

theorem accepted_of_declines {d : Draft} {reply : Reply} (h : Declines (.ok reply)) :
    ∃ f, accepted d reply = .error f := by
  cases hx : accepted d reply with
  | error f => exact ⟨f, rfl⟩
  | ok body =>
    exfalso
    obtain ⟨ha, hr, hs, -⟩ := accepted_ok hx
    cases h with
    | unauthorized h => simp_all [Reply.isAuthFailure]
    | @refused _ s hb hw =>
      have hl : s.map Char.toLower = "error" := hw.toLower (by simp)
      simp [Reply.refuses, hb, hl] at hr
    | failed h =>
      simp only [Reply.isSuccess, Bool.and_eq_true, decide_eq_true_eq] at hs
      omega

/-- An answer that declines a submission leaves the registry alone. -/
theorem complete_of_declines {reply : Outcome Reply} (h : Declines reply) (g : Registry) (d : Draft) (e : ExecutionId)
    (now : Instant) : ∃ f, complete g d e now reply = (.error f, g) ∧ f.isSubmission = true := by
  cases reply with
  | error f => exact ⟨_, rfl, rfl⟩
  | ok reply =>
    obtain ⟨f, hf⟩ := accepted_of_declines (d := d) h
    refine ⟨f, by simp only [complete, hf], ?_⟩
    rcases accepted_error hf with ⟨cause, rfl⟩ | ⟨message, rfl⟩ | ⟨cause, rfl⟩ <;> rfl

end Issuer

/-! ## Registering -/

/-- A failure of a store, which names a path. -/
def Store.Blames (f : Failure) : Prop := ∃ path cause, f = .store path cause

theorem Store.writeSnapshot_error {path : String} {copy : Records} {disk : Disk} {f : Failure}
    (h : (writeSnapshot path copy disk).1 = .error f) : Blames f := by
  unfold writeSnapshot at h
  dsimp only at h
  split at h
  · cases h
    exact ⟨_, _, rfl⟩
  · split at h
    · cases h
      exact ⟨_, _, rfl⟩
    · cases h

theorem Store.put_error {s : Store} {r : WaitRecord} {f : Failure} (h : (s.put r).1 = .error f) : Blames f := by
  unfold put at h
  split at h
  · cases h
    exact ⟨_, _, rfl⟩
  · split at h
    · cases h
    · exact writeSnapshot_error h

/-- A registration that fails leaves everything but the store as it was. -/
theorem Registry.register_error {g h : Registry} {w : Wait} {f : Failure} (hr : g.register w = (.error f, h)) :
    h = { g with store := h.store } ∧ (f = .duplicateToken w.token.text ∨ Store.Blames f) := by
  rcases register_cases g w with ⟨r, -, -, heq⟩ | ⟨f', store, hput, heq⟩ | ⟨store, -, -, heq⟩
  · cases heq.symm.trans hr
    exact ⟨rfl, .inl rfl⟩
  · cases heq.symm.trans hr
    exact ⟨rfl, .inr (Store.put_error (congrArg Prod.fst hput))⟩
  · cases heq.symm.trans hr

namespace Issuer

variable {g h : Registry} {d : Draft} {e : ExecutionId} {now : Instant} {f : Failure}

/-- What a submission can fail by once it was sent: no acceptance, which the registry does not notice, or a
registration that the registry or its store turns down. -/
theorem complete_error {reply : Outcome Reply} (hc : complete g d e now reply = (.error f, h)) :
    h = { g with store := h.store } ∧
      (f.code = "E202" ∨ f.code = "E203" ∨ f.code = "E204" ∨ f.code = "E101" ∨ f.code = "E501") := by
  cases completes hc with
  | unanswered f => exact ⟨rfl, .inl rfl⟩
  | declined ha =>
    refine ⟨rfl, ?_⟩
    rcases accepted_error ha with ⟨cause, rfl⟩ | ⟨message, rfl⟩ | ⟨cause, rfl⟩
    · exact .inr (.inr (.inl rfl))
    · exact .inr (.inl rfl)
    · exact .inl rfl
  | unregistered _ hr =>
    obtain ⟨hg, hf⟩ := Registry.register_error hr
    refine ⟨hg, ?_⟩
    rcases hf with rfl | ⟨path, cause, rfl⟩
    · exact .inr (.inr (.inr (.inl rfl)))
    · exact .inr (.inr (.inr (.inr rfl)))

end Issuer

/-! ## Both halves and the exchange between them -/

/-- What is sent for a request that was written out. -/
def Draft.message (d : Draft) : Message := { method := .post, endpoint := d.endpoint, payload := d.payload }

/-- What a submission comes to: its result, the registry after it and all that was sent for it. -/
structure Issued where
  result : Outcome Submission
  registry : Registry
  sent : List Message

/-- A submission from end to end, with what brings a message to the other side and the answer back. -/
def Issuer.submit (i : Issuer) (g : Registry) (e : ExecutionId) (r : ChangeRequest) (random : Uuid) (now : Instant)
    (transport : Message → Outcome Reply) : Issued :=
  match i.draft r random with
  | .error failure => ⟨.error failure, g, []⟩
  | .ok d =>
    let (result, registry) := complete g d e now (transport d.message)
    ⟨result, registry, [d.message]⟩

/-- **A submission that is accepted** was written out, sent once and answered, and its wait was registered. -/
theorem Issuer.submit_ok {i : Issuer} {g : Registry} {e : ExecutionId} {r : ChangeRequest} {random : Uuid}
    {now : Instant} {transport : Message → Outcome Reply} {s : Submission}
    (h : (i.submit g e r random now transport).result = .ok s) :
    ∃ d reply, i.draft r random = .ok d ∧ (i.submit g e r random now transport).sent = [d.message] ∧
      transport d.message = .ok reply ∧ s.token = (waitFor d reply e now).token ∧ s.response = reply.body ∧
      g.register (waitFor d reply e now) = (.ok s.superseded, (i.submit g e r random now transport).registry) := by
  unfold submit at h ⊢
  cases hd : i.draft r random with
  | error f =>
    rw [hd] at h
    cases h
  | ok d =>
    rw [hd] at h
    dsimp only at h ⊢
    rcases hc : complete g d e now (transport d.message) with ⟨result, g'⟩
    rw [hc] at h
    cases h
    generalize ht : transport d.message = answer at hc
    cases completes hc with
    | @registered reply _ _ _ accepted registered =>
      obtain ⟨-, -, -, rfl⟩ := accepted_ok accepted
      exact ⟨d, reply, rfl, rfl, ht, rfl, rfl, registered⟩

/-- What the next script of a world answers to whatever is sent. -/
def Simulation.World.answer (w : World) : Outcome Reply :=
  match w.scripts.headD World.acceptance with
  | .failure cause => .error (.network cause)
  | .reply reply _ => .ok reply

/-- **A world submits as its issuer does**, with its next script for the other side. -/
theorem Simulation.World.submit_eq (w : World) (e : ExecutionId) (r : ChangeRequest) :
    let a := w.blueprint.issuer.submit w.gate.registry e r w.fresh w.clock.now fun _ => w.answer
    (w.submit e r).1 = a.result ∧ (w.submit e r).2.gate.registry = a.registry ∧
      (w.submit e r).2.sent = w.sent ++ a.sent := by
  unfold World.submit Issuer.submit
  cases w.blueprint.issuer.draft r w.fresh with
  | error f => exact ⟨rfl, rfl, (List.append_nil _).symm⟩
  | ok d =>
    obtain ⟨blueprint, clock, gate, opened, disk, held, tasks, flights, scripts, sent, processor, minted, turns,
      events⟩ := w
    cases scripts with
    | nil => exact ⟨rfl, rfl, rfl⟩
    | cons script scripts => cases script <;> exact ⟨rfl, rfl, rfl⟩

theorem Failure.isSubmission_iff {f : Failure} :
    f.isSubmission = true ↔ f.code ∈ ["E201", "E202", "E203", "E204", "E205"] := by
  cases f <;> simp [isSubmission, code]

/-- **A submission that fails registers nothing.**  Nothing was sent if the request was not in order or had no
endpoint, and one message otherwise; what the registry itself does not turn down is classified as a failure of the
submission.  Whatever declines the submission makes it fail so. -/
theorem failed_submission_registers_nothing (i : Issuer) (g : Registry) (e : ExecutionId) (r : ChangeRequest)
    (random : Uuid) (now : Instant) (transport : Message → Outcome Reply) :
    let a := i.submit g e r random now transport
    (∀ f, a.result = .error f →
      (a.registry.records = g.records ∧ a.registry.jobs = g.jobs ∧ a.registry.aliases = g.aliases) ∧
      (if f.code = "E201" ∨ f.code = "E205" then a.sent = [] else ∃ m, a.sent = [m]) ∧
      (f.isSubmission = true ∨ f.code = "E101" ∨ f.code = "E501" ∨ f.code = "E502")) ∧
    ((∀ m ∈ a.sent, Declines (transport m)) → ∃ f, a.result = .error f ∧ f.isSubmission = true) := by
  unfold Issuer.submit
  cases hd : i.draft r random with
  | error f =>
    have hcode : f.code = "E201" ∨ f.code = "E205" := by
      rcases Issuer.draft_error hd with ⟨field, cause, rfl⟩ | rfl
      · exact .inl rfl
      · exact .inr rfl
    have hsub : f.isSubmission = true := by
      rw [Failure.isSubmission_iff]
      rcases hcode with h | h <;> simp [h]
    refine ⟨fun f' h => ?_, fun _ => ⟨f, rfl, hsub⟩⟩
    cases h
    exact ⟨⟨rfl, rfl, rfl⟩, by rw [if_pos hcode], .inl hsub⟩
  | ok d =>
    dsimp only
    refine ⟨fun f hf => ?_, fun hdec => ?_⟩
    · rcases hc : Issuer.complete g d e now (transport d.message) with ⟨result, g'⟩
      rw [hc] at hf
      cases hf
      obtain ⟨hg, hcode⟩ := Issuer.complete_error hc
      refine ⟨?_, ?_, ?_⟩
      · rw [hg]
        exact ⟨rfl, rfl, rfl⟩
      · rw [if_neg (by rcases hcode with h | h | h | h | h <;> simp [h])]
        exact ⟨_, rfl⟩
      · rw [Failure.isSubmission_iff]
        rcases hcode with h | h | h | h | h <;> simp [h]
    · obtain ⟨f, hc, hf⟩ := Issuer.complete_of_declines (hdec _ List.mem_cons_self) g d e now
      rw [hc]
      exact ⟨f, rfl, hf⟩

/-- A refusal that comes with a success status: the request went out, and nobody waits for anything. -/
theorem refused_with_success_status :
    let i : Issuer := ⟨⟨some ⟨"https://cm.example/changes", .none⟩, []⟩, "http://gate", "ci", none⟩
    let r : ChangeRequest := ⟨"deploy", "7", "roll out", none, none, [], none⟩
    let reply : Reply := ⟨200, .obj [("status", .str "Error"), ("message", .str "frozen")]⟩
    let a := i.submit .empty default r default .epoch fun _ => .ok reply
    Declines (.ok reply) ∧ a.sent.map Message.method = [.post] ∧ a.registry.records.get? default = none ∧
      ∃ f, a.result = .error f ∧ f.isSubmission = true := by
  intro i r reply a
  have spelled : Text.Spells "error" "Error" := by
    simp [Text.Spells]
  have declined : Declines (.ok reply) := .refused rfl spelled
  have h := failed_submission_registers_nothing i .empty default r default .epoch fun _ => .ok reply
  obtain ⟨f, hf, hs⟩ := h.2 fun _ _ => declined
  refine ⟨declined, by decide +kernel, ?_, f, hf, hs⟩
  exact congrArg (Table.get? · default) (h.1 f hf).1.1

end ApprovalGate
