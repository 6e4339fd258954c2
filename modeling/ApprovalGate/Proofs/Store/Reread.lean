import ApprovalGate.Proofs.Store.Snapshot
/-!
# What comes back of a snapshot

Only numbers can come back as others than were written, and there are none but in what is known of a wait and in what
came with a decision.  So a snapshot that is read at all, whatever is in it, is read as the records that it was written
for, up to these values (`Snapshot.same_of_read`).
-/
namespace ApprovalGate

namespace Json

theorem mem_rereadItems : ∀ {xs ys : List Json}, rereadItems xs = some ys → ∀ y ∈ ys, ∃ x ∈ xs, x.reread = some y
  | [], ys, h, y, hy => by
    cases h
    cases hy
  | x :: xs, ys, h, y, hy => by
    rw [rereadItems] at h
    obtain ⟨z, hz, h⟩ := Option.bind_eq_some_iff.1 h
    obtain ⟨zs, hzs, rfl⟩ := Option.map_eq_some_iff.1 h
    rcases List.mem_cons.1 hy with rfl | hy
    · exact ⟨x, List.mem_cons_self, hz⟩
    · obtain ⟨w, hw, hwy⟩ := mem_rereadItems hzs y hy
      exact ⟨w, List.mem_cons_of_mem _ hw, hwy⟩

theorem reread_of_mem : ∀ {ms ms' : List (String × Json)}, rereadMembers ms = some ms' →
    ∀ m ∈ ms, ∃ v, m.2.reread = some v
  | (k, v) :: ms, ms', h, m, hm => by
    rw [rereadMembers] at h
    obtain ⟨w, hw, h⟩ := Option.bind_eq_some_iff.1 h
    obtain ⟨ms', hms, -⟩ := Option.map_eq_some_iff.1 h
    rcases List.mem_cons.1 hm with rfl | hm
    · exact ⟨w, hw⟩
    · exact reread_of_mem hms m hm

/-- What is found among members that came back is what came back of what was there. -/
theorem lookup_rereadMembers (name : String) : ∀ {ms ms' : List (String × Json)}, rereadMembers ms = some ms' →
    lookup name ms' = (lookup name ms).bind reread
  | [], ms', h => by
    cases h
    rfl
  | (k, v) :: ms, ms', h => by
    rw [rereadMembers] at h
    obtain ⟨w, hw, h⟩ := Option.bind_eq_some_iff.1 h
    obtain ⟨ms', hms, rfl⟩ := Option.map_eq_some_iff.1 h
    rw [lookup_cons, lookup_cons, lookup_rereadMembers name hms]
    cases hl : lookup name ms with
    | some u =>
      obtain ⟨k', hk'⟩ := lookup_mem hl
      obtain ⟨u', hu'⟩ := reread_of_mem hms _ hk'
      have hu' : u.reread = some u' := hu'
      rw [Option.some_or, Option.bind_some, hu', Option.some_or]
    | none =>
      rw [Option.bind_none, Option.none_or, Option.none_or]
      split
      · rw [Option.bind_some, hw]
      · rfl

/-- An object comes back as one with the members that came back, and these are its parts. -/
theorem reread_obj {ms : List (String × Json)} {v : Json} (h : (obj ms).reread = some v) :
    ∃ ms', rereadMembers ms = some ms' ∧ v = .obj ms' := by
  rw [reread] at h
  obtain ⟨ms', hms, rfl⟩ := Option.map_eq_some_iff.1 h
  exact ⟨ms', hms, rfl⟩

theorem members?_obj {names : List String} {ms parts : List (String × Json)}
    (h : (obj ms).members? names = some parts) : parts = ms := by
  simp only [members?] at h
  split at h
  · cases h
    rfl
  · cases h

/-- A part without numbers comes back as it was. -/
theorem Named.lookup_reread {ms parts : List (String × Json)} (hn : Named ms) (h : rereadMembers ms = some parts)
    {name : String} {v : Json} (hv : (name, v) ∈ ms) (hp : v.IsPlain) : Json.lookup name parts = some v := by
  rw [lookup_rereadMembers name h, hn.lookup hv, Option.bind_some, hp.exact.reread]

end Json

/-! ## Decisions -/

namespace Decision

/-- Whether two decisions are one, whatever came with them. -/
def Same (d d' : Decision) : Prop := d' = { d with payload := d'.payload }

/-- **A decision that comes back is the same decision.** -/
theorem same_of_reread {d d' : Decision} {v : Json} (h : d.toJson.reread = some v) (hd : ofJson? v = some d') :
    d.Same d' := by
  unfold ofJson? at hd
  simp only [Option.bind_eq_bind, Option.bind_eq_some_iff] at hd
  obtain ⟨parts, hparts, token, htoken, payload, -, verdict, hverdict, comments, hcomments, receivedAt, hreceived,
    heq⟩ := hd
  cases heq
  obtain ⟨ms, hms, rfl⟩ := Json.reread_obj h
  obtain rfl := Json.members?_obj hparts
  have here (name : String) (v : Json) (hv : (name, v) ∈ d.toJson.fields) (hp : v.IsPlain) :
      Json.lookup name parts = some v := Json.Named.lookup_reread d.named_fields hms hv hp
  have token := Json.required?_eq (here "token" d.token.toJson (by simp [toJson, Json.fields]) trivial)
    d.token.ofJson?_toJson
  have verdict := Json.required?_eq (here "result" (.str d.verdict.text) (by simp [toJson, Json.fields]) trivial)
    d.verdict.ofJson?_text
  have comments := Json.optionalString?_eq
    (here "comments" _ (by simp [toJson, Json.fields]) (Json.isPlain_ofString? d.comments))
  have receivedAt := Json.required?_eq (here "received_at" d.receivedAt.toJson (by simp [toJson, Json.fields]) trivial)
    d.receivedAt.ofJson?_toJson
  cases token.symm.trans htoken
  cases verdict.symm.trans hverdict
  cases comments.symm.trans hcomments
  cases receivedAt.symm.trans hreceived
  rfl

/-- A part for a decision comes back as the same decision, or as none when there was none. -/
theorem same_of_optional {name : String} {parts : List (String × Json)} {d? d'? : Option Decision} {v : Json}
    (hv : (optionToJson d?).reread = some v) (h : Json.lookup name parts = some v)
    (hd : Json.optional? ofJson? name parts = some d'?) : Option.Rel Same d? d'? := by
  unfold Json.optional? at hd
  rw [h] at hd
  cases d? with
  | none =>
    cases hv
    cases hd
    exact .none
  | some d =>
    obtain ⟨ms, -, rfl⟩ := Json.reread_obj hv
    obtain ⟨d', hd', rfl⟩ := Option.map_eq_some_iff.1 hd
    exact .some (same_of_reread hv hd')

end Decision

/-! ## Records -/

/-- Whether two waits are one, whatever has become of it and whatever is known of it. -/
def Wait.Same (w w' : Wait) : Prop := w' = { w with status := w'.status, metadata := w'.metadata }

theorem Wait.Same.trans {w w' w'' : Wait} (h : w.Same w') (h' : w'.Same w'') : w.Same w'' := by
  rw [Same] at *
  rw [h', h]

namespace WaitRecord

/-- Whether two records are one, whatever is known of their wait and came with their decisions. -/
structure Same (r r' : WaitRecord) : Prop where
  wait : r.wait.Same r'.wait
  status : r'.status = r.status
  decision : Option.Rel Decision.Same r.decision r'.decision
  delivered : r'.delivered = r.delivered
  lastUpdate : Option.Rel Decision.Same r.lastUpdate r'.lastUpdate
  finishedAt : r'.finishedAt = r.finishedAt

/-- **A record that comes back is the same record.** -/
theorem same_of_reread {r r' : WaitRecord} {v : Json} (h : r.toJson.reread = some v) (hr : ofJson? v = some r') :
    r.Same r' := by
  unfold ofJson? at hr
  simp only [Option.bind_eq_bind, Option.bind_eq_some_iff] at hr
  obtain ⟨parts, hparts, wait, hwait, decision, hdecision, delivered, hdelivered, lastUpdate, hlast, finishedAt,
    hfinished, heq⟩ := hr
  cases heq
  obtain ⟨ms, hms, rfl⟩ := Json.reread_obj h
  obtain rfl := Json.members?_obj hparts
  have hms : Json.rereadMembers r.toJson.fields = some parts := hms
  have hn := r.named_fields
  have back (name : String) (v : Json) (hv : (name, v) ∈ r.toJson.fields) :
      ∃ w, v.reread = some w ∧ Json.lookup name parts = some w := by
    obtain ⟨w, hw⟩ := Json.reread_of_mem hms _ hv
    exact ⟨w, hw, by rw [Json.lookup_rereadMembers name hms, hn.lookup hv, Option.bind_some]; exact hw⟩
  have here (name : String) (v : Json) (hv : (name, v) ∈ r.toJson.fields) (hp : v.IsPlain) :
      Json.lookup name parts = some v := hn.lookup_reread hms hv hp
  have nowhere : r.wait.aliasToken = none → Json.lookup "alias" parts = none := by
    intro ha
    rw [Json.lookup_rereadMembers _ hms, lookup_alias_none ha]
    rfl
  obtain ⟨metadata, -, known⟩ := back _ _ r.field_metadata
  have wait := ofParts?_eq (fun name v hv hne => here name v (mem_fields_of_members hv)
    ((Wait.mem_members hv).resolve_left fun h => hne h.1)) nowhere known
  have delivered : Json.defaulted? Json.bool? false "decision_delivered" parts = some r.delivered := by
    unfold Json.defaulted?
    rw [here _ (.bool r.delivered) (by simp [toJson, Json.fields]) trivial]
    rfl
  have finishedAt := Instant.optional?_eq
    (here "finished_at" _ (by simp [toJson, Json.fields]) (Instant.isPlain_optionToJson r.finishedAt))
  obtain ⟨v, hv, hl⟩ := back "decision" (Decision.optionToJson r.decision) (by simp [toJson, Json.fields])
  obtain ⟨v', hv', hl'⟩ := back "last_update" (Decision.optionToJson r.lastUpdate) (by simp [toJson, Json.fields])
  cases wait.symm.trans hwait
  cases delivered.symm.trans hdelivered
  cases finishedAt.symm.trans hfinished
  exact ⟨rfl, rfl, Decision.same_of_optional hv hl hdecision, rfl, Decision.same_of_optional hv' hl' hlast, rfl⟩

end WaitRecord

namespace Snapshot

theorem same_of_ofJson? {rs rs' : List WaitRecord} {v : Json} {n : Nat} (h : (toJson rs).reread = some v)
    (hv : ofJson? v = some (n, rs')) : ∀ r' ∈ rs', ∃ r ∈ rs, r.Same r' := by
  unfold ofJson? at hv
  simp only [Option.bind_eq_bind, Option.bind_eq_some_iff] at hv
  obtain ⟨parts, hparts, number, -, items, hitems, records, hrecords, hif⟩ := hv
  obtain rfl : records = rs' := by
    split at hif
    · cases hif
      rfl
    · cases hif
  obtain ⟨ms, hms, rfl⟩ := Json.reread_obj h
  obtain rfl := Json.members?_obj hparts
  have hback : Json.lookup "records" parts = (Json.rereadItems (rs.map WaitRecord.toJson)).map .arr := by
    rw [Json.lookup_rereadMembers _ hms]
    rfl
  obtain ⟨w, hw, hitems⟩ := Option.bind_eq_some_iff.1 hitems
  obtain ⟨back, hreread, rfl⟩ := Option.map_eq_some_iff.1 (hback.symm.trans hw)
  cases hitems
  intro r' hr'
  obtain ⟨v, hv, hvr⟩ := exists_of_mapM hrecords r' hr'
  obtain ⟨x, hx, hxv⟩ := Json.mem_rereadItems hreread v hv
  obtain ⟨r, hr, rfl⟩ := List.mem_map.1 hx
  exact ⟨r, hr, r.same_of_reread hxv hvr⟩

/-- **A snapshot that is read is read as the records that it was written for.** -/
theorem same_of_read {rs rs' : List WaitRecord} (h : read (write rs).toUTF8 = .ok rs') :
    ∀ r' ∈ rs', ∃ r ∈ rs, r.Same r' := by
  unfold read at h
  split at h
  · cases h
    intro r' hr'
    cases hr'
  · rw [Text.fromUTF8?_toUTF8, Option.bind_some, write, (Json.isText_pretty _).reread] at h
    split at h
    · cases h
    · rename_i n records hread
      split at h
      · cases h
        obtain ⟨v, hv, hrecords⟩ := Option.bind_eq_some_iff.1 hread
        split at hv
        · exact same_of_ofJson? hv hrecords
        · cases hv
      · cases h

end Snapshot

end ApprovalGate
