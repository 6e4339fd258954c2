import ApprovalGate.Proofs.Registry.Sound
import ApprovalGate.Proofs.Submission.Payload
import ApprovalGate.Proofs.Text
import ApprovalGate.Registry.Basic
/-!
# Accepted submissions

The address that a submission advertises carries the token that was minted for it, before anybody knows under which
token the wait will be.  Once the submission is accepted, that token and the one it was given lead to the same new
wait, and nothing else has changed but what the new wait takes the place of (`accepted_submission_reachable`).
-/
namespace ApprovalGate

open Simulation (Message)

/-! ## Where the callback is to go -/

theorem Issuer.callbackUrl_eq {i : Issuer} {base : String} {n : Nat}
    (hb : i.baseUrl = base ++ String.ofList (List.replicate n '/')) (hl : base.toList.getLast? ≠ some '/') (t : Token) :
    i.callbackUrl t = base ++ "/api/v1/callbacks/" ++ t.text := by
  have htrim : Text.trimEndOf '/' i.baseUrl = base := String.toList_inj.1 <|
    Text.trimEndOf_replicate (by rw [hb, String.toList_append, String.toList_ofList]) hl
  have hpath : callbackPath ++ "/" = "/api/v1/callbacks/" := rfl
  rw [callbackUrl, htrim, ← hpath, ← String.append_assoc]

/-! ## The token of the wait -/

/-- What an answer hands over as a token: the first text in the two fields for it. -/
inductive Hands (body : Json) (x : String) : Prop where
  | token : body.member? "token" = some (.str x) → Hands body x
  | callbackToken : (∀ y, body.member? "token" ≠ some (.str y)) → body.member? "callback_token" = some (.str x) →
    Hands body x

theorem Json.string?_eq_some {v : Json} {x : String} : v.string? = some x ↔ v = .str x := by
  cases v <;> simp [string?]

theorem hands_iff {body : Json} {x : String} : Hands body x ↔
    (["token", "callback_token"].findSome? fun f => (body.member? f).bind Json.string?) = some x := by
  have text (f : String) (y : String) :
      (body.member? f).bind Json.string? = some y ↔ body.member? f = some (.str y) := by
    simp only [Option.bind_eq_some_iff, Json.string?_eq_some, exists_eq_right]
  constructor
  · intro h
    cases h with
    | token h => simp only [List.findSome?_cons, (text _ _).2 h]
    | callbackToken hn h =>
      have hn : (body.member? "token").bind Json.string? = none :=
        Option.eq_none_iff_forall_ne_some.2 fun y hy => hn y ((text _ _).1 hy)
      simp only [List.findSome?_cons, hn, (text _ _).2 h]
  · intro h
    cases ht : (body.member? "token").bind Json.string? with
    | some y =>
      simp only [List.findSome?_cons, ht, Option.some.injEq] at h
      exact h ▸ .token ((text _ _).1 ht)
    | none =>
      refine .callbackToken (fun y hy => ?_) ((text _ _).1 ?_)
      · rw [(text _ _).2 hy] at ht
        cases ht
      · cases hc : (body.member? "callback_token").bind Json.string? with
        | some y => simpa only [List.findSome?_cons, ht, hc] using h
        | none => simp only [List.findSome?_cons, ht, hc, List.findSome?_nil, reduceCtorEq] at h

namespace Issuer

variable {d : Draft} {reply : Reply}

/-- What is handed over counts if it is a token, and else our own does. -/
theorem address_token (d : Draft) (reply : Reply) :
    (∃ x, Hands reply.body x ∧ Token.parse? x = some (address d reply).1) ∨
      (∀ x, Hands reply.body x → Token.parse? x = none) ∧ (address d reply).1 = d.token := by
  -- an empty text is no token, so passing over it makes no difference
  have hbind (x? : Option String) :
      (x?.filter fun s => s ≠ "").bind Token.parse? = x?.bind Token.parse? := by
    cases x? with
    | none => rfl
    | some x =>
      by_cases hx : x = ""
      · subst hx
        rfl
      · rw [Option.filter_some, if_pos (by simpa using hx)]
  have hp : reply.token?.bind Token.parse? =
      (["token", "callback_token"].findSome? fun f => (reply.body.member? f).bind Json.string?).bind Token.parse? :=
    hbind _
  simp only [hands_iff, address, hp]
  cases hx : ["token", "callback_token"].findSome? fun f => (reply.body.member? f).bind Json.string? with
  | none =>
    refine .inr ⟨fun x h => ?_, rfl⟩
    cases h
  | some x =>
    rw [Option.bind_some]
    cases ht : Token.parse? x with
    | none =>
      refine .inr ⟨fun y h => ?_, rfl⟩
      cases h
      exact ht
    | some t =>
      refine .inl ⟨x, rfl, ?_⟩
      dsimp only
      split
      · rename_i heq
        rw [ht, heq]
      · exact ht

/-- Our own token is an alias if the wait is under another one. -/
theorem address_alias (d : Draft) (reply : Reply) :
    (address d reply).2 = if (address d reply).1 = d.token then none else some d.token := by
  unfold address
  cases reply.token?.bind Token.parse? with
  | none => exact (if_pos rfl).symm
  | some t =>
    dsimp only
    by_cases h : t = d.token <;> simp [h]

end Issuer

/-! ## What is registered -/

/-- What a submission comes to that is accepted, where `ours` is the token that was minted for it. -/
structure Issued.Accepted (a : Issued) (i : Issuer) (g : Registry) (e : ExecutionId) (r : ChangeRequest)
    (transport : Message → Outcome Reply) (ours : Token) (s : Submission) : Prop where
  /-- One message went out, with the address of our own token, and its answer is the submission's. -/
  sent : ∃ m reply, a.sent = [m] ∧ transport m = .ok reply ∧ s.response = reply.body ∧
    ∀ base n, i.baseUrl = base ++ String.ofList (List.replicate n '/') → base.toList.getLast? ≠ some '/' →
      m.payload.member? "callback_url" = some (.str (base ++ "/api/v1/callbacks/" ++ ours.text))
  /-- The wait is under the token that was handed over, or under our own. -/
  token : (∃ x, Hands s.response x ∧ Token.parse? x = some s.token) ∨
    (∀ x, Hands s.response x → Token.parse? x = none) ∧ s.token = ours
  /-- Both tokens lead to one record, which is that of the wait. -/
  leads : ∃ q, a.registry.find? ours = some (s.token, q) ∧ a.registry.find? s.token = some (s.token, q) ∧
    q.isPending = true ∧ q.wait.execution = e ∧ q.wait.job = some r.job
  current : a.registry.jobToken? r.job = some s.token ∧ a.registry.isTracked r.job = true
  /-- Only a tombstone was under the token before. -/
  replaced : ∀ q, g.records.get? s.token = some q → q.isPending = false
  /-- The wait that the job led to is over. -/
  superseded : ∀ u q, u ≠ s.token → g.jobs.get? r.job = some u → g.records.get? u = some q → q.isPending = true →
    a.registry.records.get? u = none
  others : ∀ u, u ≠ s.token → (∀ q, g.jobs.get? r.job = some u → g.records.get? u = some q → q.isPending = false) →
    a.registry.records.get? u = g.records.get? u

/-- What an accepted wait leaves of the registry, for the two tokens that it may be under. -/
theorem Registry.Registers.leads {g h : Registry} {w : Wait} {sup : Superseded} (rg : Registers g w sup h)
    {ours : Token} (hn : g.records.get? ours = none)
    (ha : w.aliasToken = if w.token = ours then none else some ours) :
    h.find? ours = some (w.token, fresh w) ∧ h.find? w.token = some (w.token, fresh w) := by
  have own : h.records.get? w.token = some (fresh w) := (rg.records _).trans (if_pos rfl)
  refine ⟨find?_eq_some.2 ⟨own, ?_⟩, find?_eq_some.2 ⟨own, .inl rfl⟩⟩
  by_cases ht : w.token = ours
  · exact .inl ht.symm
  · refine .inr ⟨?_, (rg.aliases _ _).2 ?_⟩
    · rw [rg.records, if_neg (Ne.symm ht), hn, ite_self]
    · rw [if_pos ⟨ha.trans (if_neg ht), Ne.symm ht⟩]

theorem Registry.Registers.others {g h : Registry} {w : Wait} {sup : Superseded} (rg : Registers g w sup h) {u : Token}
    (hu : u ≠ w.token)
    (hn : ∀ job q, w.job = some job → g.jobs.get? job = some u → g.records.get? u = some q → q.isPending = false) :
    h.records.get? u = g.records.get? u := by
  rw [rg.records, if_neg hu, if_neg fun hs => ?_]
  obtain ⟨⟨p, e⟩, hp, rfl⟩ := Option.map_eq_some_iff.1 hs
  obtain ⟨-, q, job, hq, hpend, -, hj, hcur⟩ := rg.superseded p e hp
  rw [hn job q hj hcur hq] at hpend
  cases hpend

/-- **An accepted submission can be reached where it said.** -/
theorem accepted_submission_reachable (i : Issuer) {g : Registry} (distinct : g.Distinct) (e : ExecutionId)
    {r : ChangeRequest} (ordered : Ordered.Ascending r.attributes) (random : Uuid) (now : Instant)
    (transport : Message → Outcome Reply) {ours : Token} (minted : ours = Token.mint i.tool r.job random)
    (unregistered : g.records.get? ours = none) {s : Submission}
    (accepted : (i.submit g e r random now transport).result = .ok s) :
    (i.submit g e r random now transport).Accepted i g e r transport ours s := by
  obtain ⟨d, reply, hdraft, hsent, hreply, hst, hsb, hreg⟩ := Issuer.submit_ok accepted
  generalize i.submit g e r random now transport = a at *
  obtain ⟨rfl, htok, hurl, hpay⟩ := Issuer.draft_ok hdraft
  obtain ⟨ht, ha, he, hj⟩ := Issuer.waitFor_fields d reply e now
  have rg := Registry.registers_of_ok distinct hreg
  generalize Issuer.waitFor d reply e now = w at *
  have hours : ours = d.token := minted.trans htok.symm
  have leads := rg.leads unregistered (by rw [ha, Issuer.address_alias, ht, hours])
  exact {
    sent := by
      refine ⟨d.message, reply, hsent, hreply, hsb, fun base n hb hl => ?_⟩
      rw [← Issuer.callbackUrl_eq hb hl ours, hours, ← hurl, Draft.message, hpay]
      exact (ChangeRequest.carries ordered _ _).callbackUrl
    token := by
      rw [hst, hsb, ht, hours]
      exact Issuer.address_token d reply
    leads := by
      rw [hst]
      exact ⟨_, leads.1, leads.2, rfl, he, hj⟩
    current := by
      have hcur : a.registry.jobToken? d.request.job = some w.token := (rg.jobs _).trans (if_pos hj)
      rw [hst]
      refine ⟨hcur, ?_⟩
      rw [Registry.isTracked, hcur, Option.bind_some, Registry.get?, leads.2]
      rfl
    replaced := by
      rw [hst]
      exact rg.vacant
    superseded := by
      intro u q hu hcur hq hpend
      rw [hst] at hu
      rw [rg.records, if_neg hu, if_pos]
      rw [rg.current _ _ _ hj hcur hu hq hpend, Option.map_some]
    others := by
      intro u hu hn
      rw [hst] at hu
      refine rg.others hu fun job q hjob hcur hq => hn q ?_ hq
      cases hj.symm.trans hjob
      exact hcur }

/-- The other side has a number of its own, in the second field, and a wait of the job for another build is still
there.  Both addresses lead to the new wait, and the old one is gone. -/
theorem change_number_reachable :
    let i : Issuer := ⟨⟨some ⟨"https://cm.example/changes", .none⟩, []⟩, "http://gate//", "ci", none⟩
    let r : ChangeRequest := ⟨"deploy", "7", "roll out", none, none, [("callback_url", .null)], none⟩
    let reply : Reply := ⟨201, .obj [("callback_token", .str "CHG-7"), ("token", .int 7)]⟩
    let w : Wait := { Wait.start (default : Token) default .epoch with job := some "deploy" }
    let g := Registry.empty.happen (.call (.register w))
    let a := i.submit g default r default .epoch fun _ => .ok reply
    let ours := Token.mint "ci" "deploy" default
    g.Distinct ∧ Ordered.Ascending r.attributes ∧ g.records.get? ours = none ∧
      (g.records.get? default).map WaitRecord.isPending = some true ∧ a.registry.records.get? default = none ∧
      ∃ s, a.result = .ok s ∧ s.token.text = "CHG-7" ∧ a.Accepted i g default r (fun _ => .ok reply) ours s := by
  intro i r reply w g a ours
  have distinct : g.Distinct := (Registry.reachable_empty.sound.happen _).toDistinct
  have ordered : Ordered.Ascending r.attributes := List.pairwise_singleton _ _
  have unregistered : g.records.get? ours = none := by decide +kernel
  obtain ⟨s, hs⟩ : ∃ s, a.result = .ok s := by
    have ok : a.result.isOk = true := by decide +kernel
    cases hr : a.result with
    | error f =>
      rw [hr] at ok
      cases ok
    | ok s => exact ⟨s, rfl⟩
  have text : a.result.toOption.map (fun s => s.token.text) = some "CHG-7" := by decide +kernel
  rw [hs] at text
  have reached := accepted_submission_reachable i distinct default ordered default .epoch (fun _ => .ok reply) rfl
    unregistered hs
  exact ⟨distinct, ordered, unregistered, by decide +kernel, by decide +kernel, s, hs, Option.some.inj text, reached⟩

end ApprovalGate
