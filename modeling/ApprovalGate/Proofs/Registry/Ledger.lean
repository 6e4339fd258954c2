import ApprovalGate.Proofs.Registry.Addresses
import ApprovalGate.Proofs.Registry.Winner
/-!
# Following one wait

What a registry holds of one wait says which end it has come to (`Stands`), as long as its token is its own and its
alias leads to nothing else (`Ledger`).  No operation that spares the wait breaks this (`Ledger.perform`).
-/
namespace ApprovalGate.Registry

/-- What is left of a wait that has come to an end, or to none: its record says so, or it is gone. -/
inductive Stands : Option Ending → Option WaitRecord → Prop where
  | pending {r : WaitRecord} : r.status = .pending → Stands none (some r)
  | resolved {r : WaitRecord} {d : Decision} : r.status = .resolved → r.decision = some d →
      d.verdict.isTerminal = true → Stands (some (.resolved d)) (some r)
  | expired {r : WaitRecord} : r.status = .expired → Stands (some .expired) (some r)
  | cancelled : Stands (some .cancelled) none
  | superseded : Stands (some .superseded) none

theorem Stands.of_pending {e? : Option Ending} {r : WaitRecord} (h : Stands e? (some r)) (hp : r.isPending = true) :
    e? = none := by
  rw [WaitRecord.isPending_iff] at hp
  cases h with
  | pending _ => rfl
  | resolved hr _ _ => cases hp.symm.trans hr
  | expired hr => cases hp.symm.trans hr

theorem Stands.pending_iff {e? : Option Ending} {r? : Option WaitRecord} (h : Stands e? r?) :
    (∃ r, r? = some r ∧ r.status = .pending) ↔ e? = none := by
  constructor
  · rintro ⟨r, rfl, hr⟩
    exact h.of_pending (WaitRecord.isPending_iff.2 hr)
  · rintro rfl
    cases h with
    | pending hr => exact ⟨_, rfl, hr⟩

/-- A record that is not dropped goes on to stand for the end it has come to. -/
theorem Stands.fate {e? : Option Ending} {r : WaitRecord} (h : Stands e? (some r)) {drops : Prop}
    {end? : Option Ending} {r? : Option WaitRecord} (f : Fate r drops end? r?) (hd : ¬drops) :
    Stands (e?.or end?) r? := by
  cases f with
  | kept =>
    rw [Option.or_none]
    exact h
  | noted d hp =>
    cases h.of_pending hp
    exact .pending (WaitRecord.isPending_iff.1 hp)
  | delivered d hd =>
    rw [Option.or_none]
    cases h with
    | pending hr => exact .pending hr
    | resolved hr hdec hv => exact .resolved hr hdec hv
    | expired hr => exact .expired hr
  | resolved d hp hv =>
    cases h.of_pending hp
    exact .resolved rfl rfl hv
  | expired now hp =>
    cases h.of_pending hp
    exact .expired rfl
  | cancelled hp =>
    cases h.of_pending hp
    exact .cancelled
  | superseded hp =>
    cases h.of_pending hp
    exact .superseded
  | gone hg => exact absurd hg hd

/-! ## Where nothing is registered -/

theorem Effect.records_or {g h : Registry} {w? : Option Wait} (d : g.Distinct) (e : Effect g w? h) {t : Token}
    {r : WaitRecord} (hr : h.records.get? t = some r) :
    (∃ q, g.records.get? t = some q) ∨ ∃ w, w? = some w ∧ w.token = t := by
  cases e with
  | kept => exact .inl ⟨r, hr⟩
  | refused _ => exact .inl ⟨r, hr⟩
  | @amends u q q' hu _ =>
    rw [save_get?] at hr
    split at hr
    · rename_i hut
      exact .inl ⟨q, hut ▸ hu⟩
    · exact .inl ⟨r, hr⟩
  | forgets ts =>
    rw [(forgets_dropAll d ts).records] at hr
    split at hr
    · cases hr
    · exact .inl ⟨r, hr⟩
  | @registers w store hv _ =>
    rw [(registers_takeUp d hv store).records] at hr
    split at hr
    · rename_i ht
      exact .inr ⟨w, rfl, ht.symm⟩
    · split at hr
      · cases hr
      · exact .inl ⟨r, hr⟩

theorem Effect.aliases_or {g h : Registry} {w? : Option Wait} (d : g.Distinct) (e : Effect g w? h) {a t : Token}
    (ha : h.aliases.get? a = some t) :
    g.aliases.get? a = some t ∨ ∃ w, w? = some w ∧ w.token = t ∧ w.aliasToken = some a ∧ a ≠ t := by
  cases e with
  | kept => exact .inl ha
  | refused _ => exact .inl ha
  | amends _ _ => exact .inl ha
  | forgets ts => exact .inl (((forgets_dropAll d ts).aliases a t).1 ha).1
  | @registers w store hv _ =>
    rw [(registers_takeUp d hv store).aliases] at ha
    split at ha
    · rename_i hw
      subst ha
      exact .inr ⟨w, rfl, rfl, hw⟩
    · exact .inl ha.1

theorem perform_none {g : Registry} (d : g.Distinct) {op : Operation} {t : Token} (hn : g.records.get? t = none)
    (hw : ∀ w, g.taken? (.call op) = some w → w.token ≠ t) : (g.perform op).records.get? t = none := by
  cases hr : (g.perform op).records.get? t with
  | none => rfl
  | some r =>
    rcases (perform_effect g op).records_or d hr with ⟨q, hq⟩ | ⟨w, hw', ht⟩
    · cases hn.symm.trans hq
    · exact absurd ht (hw w hw')

theorem leads_none {g : Registry} {t : Token} (hn : g.records.get? t = none) (x : Token) : g.leads x t = false := by
  rw [← Bool.not_eq_true, leads_iff]
  rintro ⟨r, hr⟩
  cases hn.symm.trans (find?_records hr)

theorem ending?_none {g : Registry} (d : g.Distinct) {t : Token} (hn : g.records.get? t = none) (op : Operation) :
    g.ending? t (.call op) = none := by
  cases op with
  | resolve x dec =>
    rw [ending?]
    split
    · rw [leads_none hn, if_neg Bool.false_ne_true]
    · rfl
  | expire x now =>
    rw [ending?]
    split
    · rw [leads_none hn, if_neg Bool.false_ne_true]
    · rfl
  | cancel e =>
    rw [ending?, if_neg]
    intro ht
    obtain ⟨r, hr, -⟩ := (mem_cancel d).1 ht
    cases hn.symm.trans hr
  | register w =>
    rw [ending?]
    rcases hr : g.register w with ⟨result, h⟩
    rcases result with f | s
    · rfl
    · simp only
      rw [if_neg]
      intro hs
      obtain ⟨⟨p, e⟩, rfl, rfl⟩ := Option.map_eq_some_iff.1 hs
      obtain ⟨-, r, -, hp, -⟩ := (registers_of_ok d hr).superseded p e rfl
      cases hn.symm.trans hp
  | noteUpdate x dec => rfl
  | remove x => rfl
  | takeDecision x => rfl
  | markDelivered x => rfl
  | sweep now => rfl

/-! ## The ledger of a wait -/

/-- A wait that stands as it should, under a token that is no alias, and with an alias that is no token. -/
structure Ledger (t : Token) (a? : Option Token) (g : Registry) (e? : Option Ending) : Prop where
  sound : g.Sound
  stands : Stands e? (g.records.get? t)
  first : g.aliases.get? t = none
  led : ∀ a, g.aliases.get? a = some t → a? = some a
  vacant : ∀ a, a? = some a → a ≠ t → g.records.get? a = none

/-- An operation that neither drops the record of a wait nor takes up another one at its alias, or with its token for
an alias. -/
structure Spares (g : Registry) (t : Token) (a? : Option Token) (op : Operation) : Prop where
  kept : ¬g.Drops t (.call op)
  apart : ∀ w, g.taken? (.call op) = some w → w.aliasToken ≠ some t ∧ a? ≠ some w.token

theorem Spares.token_ne {g : Registry} {t : Token} {a? : Option Token} {op : Operation} (s : Spares g t a? op)
    {w : Wait} (hw : g.taken? (.call op) = some w) : w.token ≠ t := by
  intro ht
  refine s.kept ?_
  cases op with
  | register v =>
    rw [Drops, hw, Option.map_some, ht]
  | _ => cases hw

/-- An operation that spares a wait leaves its ledger in order, with the end that it put to the wait if it did. -/
theorem Ledger.perform {t : Token} {a? : Option Token} {g : Registry} {e? : Option Ending} (l : Ledger t a? g e?)
    {op : Operation} (s : Spares g t a? op) : Ledger t a? (g.perform op) (e?.or (g.ending? t (.call op))) := by
  have e := perform_effect g op
  have d := l.sound.toDistinct
  refine ⟨e.sound l.sound, ?_, ?_, fun a ha => ?_, fun a ha hat => ?_⟩
  · cases hr : g.records.get? t with
    | none =>
      have hst := l.stands
      rw [hr] at hst
      rw [perform_none d hr fun w hw => s.token_ne hw, ending?_none d hr, Option.or_none]
      exact hst
    | some r =>
      have hst := l.stands
      rw [hr] at hst
      have hn : g.next? t (.call op) = (g.perform op).records.get? t := by
        rw [next?, if_neg]
        · rfl
        · intro hw
          obtain ⟨w, hw, ht⟩ := Option.map_eq_some_iff.1 hw
          exact s.token_ne hw ht
      exact hn ▸ hst.fate (fate d hr (.call op)) s.kept
  · cases ht : (g.perform op).aliases.get? t with
    | none => rfl
    | some u =>
      rcases e.aliases_or d ht with h | ⟨w, hw, -, ha, -⟩
      · cases l.first.symm.trans h
      · exact absurd ha (s.apart w hw).1
  · rcases e.aliases_or d ha with h | ⟨w, hw, ht, -⟩
    · exact l.led a h
    · exact absurd ht (s.token_ne hw)
  · refine perform_none d (l.vacant a ha hat) fun w hw hwa => (s.apart w hw).2 ?_
    rw [ha, hwa]

theorem Ledger.ended {t : Token} {a? : Option Token} {g : Registry} {e : Ending} (l : Ledger t a? g (some e))
    (op : Operation) : g.ending? t (.call op) = none := by
  cases hr : g.records.get? t with
  | none => exact ending?_none l.sound.toDistinct hr op
  | some r =>
    refine ((fate l.sound.toDistinct hr (.call op)).of_ended ?_).1
    rw [← Bool.not_eq_true]
    intro hp
    have hst := l.stands
    rw [hr] at hst
    cases hst.of_pending hp

theorem ledger_of_register {g h : Registry} (s : g.Sound) {w : Wait} {sup : Superseded}
    (hr : g.register w = (.ok sup, h)) (hn : g.records.get? w.token = none) (ha : g.aliases.get? w.token = none)
    (hv : ∀ a, w.aliasToken = some a → a ≠ w.token → g.records.get? a = none) :
    Ledger w.token w.aliasToken h none := by
  have rg := registers_of_ok s.toDistinct hr
  refine ⟨?_, ?_, ?_, fun a hat => ?_, fun a haw hat => ?_⟩
  · have := s.happen (.call (.register w))
    rwa [show g.happen (.call (.register w)) = h from congrArg Prod.snd hr] at this
  · rw [rg.records, if_pos rfl]
    exact .pending rfl
  · cases ht : h.aliases.get? w.token with
    | none => rfl
    | some u =>
      rw [rg.aliases, if_neg fun hc => hc.2 rfl] at ht
      cases ha.symm.trans ht.1
  · rw [rg.aliases] at hat
    split at hat
    · rename_i hc
      exact hc.1
    · obtain ⟨r, hr⟩ := s.led hat.1
      cases hn.symm.trans hr
  · rw [rg.records, if_neg hat]
    split
    · rfl
    · exact hv a haw hat

/-! ## Addresses -/

/-- An address that is not the alias of a wait leads to it only as its token. -/
theorem Ledger.direct {t : Token} {a? : Option Token} {g : Registry} {e? : Option Ending} (l : Ledger t a? g e?)
    {x u : Token} {r : WaitRecord} (hx : g.find? x = some (u, r)) (hxa : a? = some x → x = t) : u = t ↔ x = t := by
  obtain ⟨-, hxu⟩ := find?_eq_some.1 hx
  constructor
  · rintro rfl
    rcases hxu with rfl | ⟨-, ha⟩
    · rfl
    · exact hxa (l.led x ha)
  · rintro rfl
    rcases hxu with rfl | ⟨-, ha⟩
    · rfl
    · cases l.first.symm.trans ha

theorem Ledger.get?_self {t : Token} {a? : Option Token} {g : Registry} {e? : Option Ending} (l : Ledger t a? g e?) :
    g.get? t = g.records.get? t := by
  rw [get?, find?]
  cases g.records.get? t with
  | some r => rfl
  | none =>
    rw [l.first]
    rfl

end ApprovalGate.Registry
