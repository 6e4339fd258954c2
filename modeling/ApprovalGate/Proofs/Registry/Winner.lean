import ApprovalGate.Proofs.Registry.Sound
/-!
# The first resolution wins

A registration of a token lasts from the registration that took it up until a later one replaces its record or the
record is gone.  Whatever happens meanwhile, in whatever order and by whichever address, its wait ends at most once
(`ends_at_most_once`); and a wait that a decision or its deadline has ended stays as it is, but for the mark that its
decision was handed over, and turns every later delivery down (`stays_ended`).
-/
namespace ApprovalGate.Registry

inductive Ending where
  | resolved (d : Decision)
  | expired
  | cancelled
  | superseded
deriving DecidableEq, Repr

/-- Whether an address leads to the record under a token. -/
def leads (g : Registry) (x t : Token) : Bool := decide ((g.find? x).map Prod.fst = some t)

/-- The end that an event puts to the wait under a token, read off what the operation answers. -/
def ending? (g : Registry) (t : Token) : Event → Option Ending
  | .call (.resolve x d) => match (g.resolve x d).1 with
    | .resolved _ d => if g.leads x t then some (.resolved d) else none
    | _ => none
  | .call (.expire x now) => match (g.expire x now).1 with
    | .expired _ => if g.leads x t then some .expired else none
    | _ => none
  | .call (.cancel e) => if t ∈ (g.cancel e).1 then some .cancelled else none
  | .call (.register w) => match (g.register w).1 with
    | .ok s => if s.map Prod.fst = some t then some .superseded else none
    | .error _ => none
  | _ => none

/-- The record of a registration after an event, if the registration lasts. -/
def next? (g : Registry) (t : Token) (ev : Event) : Option WaitRecord :=
  if (g.taken? ev).map Wait.token = some t then none else (g.happen ev).records.get? t

/-- The record of a registration after a run, if the registration lasts through it. -/
def last? (g : Registry) (t : Token) : List Event → Option WaitRecord
  | [] => g.records.get? t
  | ev :: evs => if (g.next? t ev).isSome then (g.happen ev).last? t evs else none

/-- The ends that a run puts to the wait under a token while its registration lasts. -/
def endings (g : Registry) (t : Token) : List Event → List Ending
  | [] => []
  | ev :: evs => (g.ending? t ev).toList ++ if (g.next? t ev).isSome then (g.happen ev).endings t evs else []

/-! ## One event -/

/-- Whether an event takes the record under a token away without ending its wait: a registration that replaces it, its
removal, or a sweep that it is stale for. -/
def Drops (g : Registry) (t : Token) : Event → Prop
  | .call (.register w) => (g.taken? (.call (.register w))).map Wait.token = some t
  | .call (.remove x) => x = t
  | .call (.sweep now) => t ∈ g.stale now
  | _ => False

/-- What an event does to a record: the end it puts to the wait, and the record that is left. -/
inductive Fate (r : WaitRecord) (drops : Prop) : Option Ending → Option WaitRecord → Prop where
  | kept : Fate r drops none (some r)
  | noted (d : Decision) : r.isPending = true → Fate r drops none (some { r with lastUpdate := some d })
  | delivered (d : Decision) : r.decision = some d → Fate r drops none (some { r with delivered := true })
  | resolved (d : Decision) : r.isPending = true → d.verdict.isTerminal = true →
      Fate r drops (some (.resolved d)) (some { r.finish .resolved d.receivedAt with decision := some d })
  | expired (now : Instant) : r.isPending = true → Fate r drops (some .expired) (some (r.finish .expired now))
  | cancelled : r.isPending = true → Fate r drops (some .cancelled) none
  | superseded : r.isPending = true → Fate r drops (some .superseded) none
  | gone : drops → Fate r drops none none

theorem leads_iff {g : Registry} {x t : Token} : g.leads x t = true ↔ ∃ r, g.find? x = some (t, r) := by
  rw [leads, decide_eq_true_eq, Option.map_eq_some_iff]
  constructor
  · rintro ⟨⟨u, r⟩, h, rfl⟩
    exact ⟨r, h⟩
  · rintro ⟨r, h⟩
    exact ⟨(t, r), h, rfl⟩

theorem leads_of_find? {g : Registry} {x u : Token} {q : WaitRecord} (h : g.find? x = some (u, q)) (t : Token) :
    g.leads x t = decide (u = t) := by
  simp only [leads, h, Option.map_some, Option.some.injEq]

theorem fate_save {g : Registry} {t u : Token} {r q q' : WaitRecord} {drops : Prop} {e : Ending}
    (hr : g.records.get? t = some r) (hu : g.records.get? u = some q) (hf : Fate q drops (some e) (some q')) :
    Fate r drops (if decide (u = t) = true then some e else none) ((g.save u q').records.get? t) := by
  rw [save_get?]
  by_cases hut : u = t
  · subst hut
    cases hr.symm.trans hu
    rw [if_pos (decide_eq_true rfl), if_pos rfl]
    exact hf
  · rw [if_neg (fun h => hut (of_decide_eq_true h)), if_neg hut, hr]
    exact .kept

theorem fate_save_none {g : Registry} {t u : Token} {r q q' : WaitRecord} {drops : Prop}
    (hr : g.records.get? t = some r) (hu : g.records.get? u = some q) (hf : Fate q drops none (some q')) :
    Fate r drops none ((g.save u q').records.get? t) := by
  rw [save_get?]
  by_cases hut : u = t
  · subst hut
    cases hr.symm.trans hu
    rw [if_pos rfl]
    exact hf
  · rw [if_neg hut, hr]
    exact .kept

theorem fate_forgets {g h : Registry} {ts : List Token} (f : Forgets g ts h) {t : Token} {r : WaitRecord} {drops : Prop}
    (hr : g.records.get? t = some r) (hd : t ∈ ts → drops) : Fate r drops none (h.records.get? t) := by
  rw [f.records, hr]
  split
  · rename_i ht
    exact .gone (hd ht)
  · exact .kept

theorem fate_register {g : Registry} (d : g.Distinct) (w : Wait) {t : Token} {r : WaitRecord}
    (hr : g.records.get? t = some r) :
    Fate r (g.Drops t (.call (.register w))) (g.ending? t (.call (.register w)))
      (g.next? t (.call (.register w))) := by
  rw [ending?, next?, Drops, taken?]
  show Fate r _ _ (if _ then none else (g.register w).2.records.get? t)
  rcases register_cases g w with ⟨x, -, -, heq⟩ | ⟨f, store, -, heq⟩ | ⟨store, -, -, heq⟩
  · rw [heq]
    show Fate r _ none (g.records.get? t)
    rw [hr]
    exact .kept
  · rw [heq]
    show Fate r _ none (g.records.get? t)
    rw [hr]
    exact .kept
  · have rg := registers_of_ok d heq
    rw [heq]
    simp only [Except.isOk, Except.toBool, if_true, Option.map_some, Option.some.injEq]
    by_cases hs : (g.takeUp w store).1.map Prod.fst = some t
    · rw [if_pos hs]
      obtain ⟨⟨p, e⟩, hs', rfl⟩ := Option.map_eq_some_iff.1 hs
      obtain ⟨hne, q, -, hq, hp, -⟩ := rg.superseded p e hs'
      cases hr.symm.trans hq
      rw [if_neg (Ne.symm hne), rg.records, if_neg hne, if_pos hs]
      exact .superseded hp
    · rw [if_neg hs]
      by_cases hw : w.token = t
      · rw [if_pos hw]
        exact .gone hw
      · rw [if_neg hw, rg.records, if_neg (Ne.symm hw), if_neg hs, hr]
        exact .kept

/-- **What an event does to a record**, for each of the nine operations. -/
theorem fate {g : Registry} (d : g.Distinct) {t : Token} {r : WaitRecord} (hr : g.records.get? t = some r)
    (ev : Event) : Fate r (g.Drops t ev) (g.ending? t ev) (g.next? t ev) := by
  have same {drops : Prop} : Fate r drops none (g.records.get? t) := hr ▸ .kept
  cases ev with
  | restock store => exact same
  | call op =>
    cases op with
    | register w => exact fate_register d w hr
    | resolve x dec =>
      rw [ending?]
      show Fate r _ _ ((g.resolve x dec).2.records.get? t)
      rcases resolve_cases g x dec with ⟨u, q, hx, hp, hv, heq⟩ | ⟨u, q, hx, hp, -, heq⟩ | ⟨u, q, -, -, heq⟩ | ⟨-, heq⟩
      · rw [heq]
        simp only [leads_of_find? hx]
        exact fate_save hr (find?_records hx) (.resolved dec hp hv)
      · rw [heq]
        exact fate_save_none hr (find?_records hx) (.noted dec hp)
      · rw [heq]
        exact same
      · rw [heq]
        exact same
    | noteUpdate x dec =>
      show Fate r _ none ((g.noteUpdate x dec).2.records.get? t)
      rcases noteUpdate_cases g x dec with ⟨u, q, hx, hp, heq⟩ | ⟨u, q, -, -, heq⟩ | ⟨-, heq⟩
      · rw [heq]
        exact fate_save_none hr (find?_records hx) (.noted dec hp)
      · rw [heq]
        exact same
      · rw [heq]
        exact same
    | expire x now =>
      rw [ending?]
      show Fate r _ _ ((g.expire x now).2.records.get? t)
      rcases expire_cases g x now with ⟨u, q, hx, hp, heq⟩ | ⟨u, q, -, -, heq⟩ | ⟨-, heq⟩
      · rw [heq]
        simp only [leads_of_find? hx]
        exact fate_save hr (find?_records hx) (.expired now hp)
      · rw [heq]
        exact same
      · rw [heq]
        exact same
    | cancel e =>
      rw [ending?]
      show Fate r _ _ ((g.cancel e).2.records.get? t)
      rw [(cancel_forgets d e).records]
      by_cases ht : t ∈ (g.cancel e).1
      · obtain ⟨q, hq, hp, -⟩ := (mem_cancel d).1 ht
        cases hr.symm.trans hq
        rw [if_pos ht, if_pos ht]
        exact .cancelled hp
      · rw [if_neg ht, if_neg ht]
        exact same
    | remove x =>
      show Fate r _ none ((g.remove x).2.records.get? t)
      rcases remove_cases g x with ⟨q, -, heq⟩ | ⟨-, heq⟩
      · rw [heq]
        exact fate_forgets (forgets_dropAll d [x]) hr fun ht => (List.mem_singleton.1 ht).symm
      · rw [heq]
        exact same
    | takeDecision x =>
      show Fate r _ none ((g.takeDecision x).2.records.get? t)
      rcases takeDecision_cases g x with ⟨u, q, dec, hx, hd, -, heq⟩ | ⟨-, heq⟩
      · rw [heq]
        exact fate_save_none hr (find?_records hx) (.delivered dec hd)
      · rw [heq]
        exact same
    | markDelivered x =>
      show Fate r _ none ((g.markDelivered x).records.get? t)
      rcases markDelivered_cases g x with ⟨u, q, dec, hx, hd, heq⟩ | heq
      · rw [heq]
        exact fate_save_none hr (find?_records hx) (.delivered dec hd)
      · rw [heq]
        exact same
    | sweep now => exact fate_forgets (sweep_forgets d now) hr id

/-! ## Runs -/

theorem Fate.of_pending {r r' : WaitRecord} {drops : Prop} {e? : Option Ending} (f : Fate r drops e? (some r'))
    (hp : r.isPending = true) : r'.isPending = true ↔ e? = none := by
  cases f with
  | kept => exact ⟨fun _ => rfl, fun _ => hp⟩
  | noted d _ => exact ⟨fun _ => rfl, fun _ => hp⟩
  | delivered d _ => exact ⟨fun _ => rfl, fun _ => hp⟩
  | resolved d _ _ => exact ⟨fun h => (by cases h), fun h => (by cases h)⟩
  | expired now _ => exact ⟨fun h => (by cases h), fun h => (by cases h)⟩

theorem Fate.pending {r : WaitRecord} {drops : Prop} {e : Ending} {r? : Option WaitRecord}
    (f : Fate r drops (some e) r?) : r.isPending = true := by
  cases f <;> assumption

theorem Fate.of_ended {r : WaitRecord} {drops : Prop} {e? : Option Ending} {r? : Option WaitRecord}
    (f : Fate r drops e? r?)
    (hp : r.isPending = false) : e? = none ∧ ∀ r', r? = some r' →
      r' = { r with delivered := r'.delivered } ∧ (r.delivered = true → r'.delivered = true) := by
  cases f with
  | kept =>
    refine ⟨rfl, fun r' h => ?_⟩
    cases h
    exact ⟨rfl, id⟩
  | noted d h => cases hp.symm.trans h
  | delivered d _ =>
    refine ⟨rfl, fun r' h => ?_⟩
    cases h
    exact ⟨rfl, fun _ => rfl⟩
  | resolved d h _ => cases hp.symm.trans h
  | expired now h => cases hp.symm.trans h
  | cancelled h => cases hp.symm.trans h
  | superseded h => cases hp.symm.trans h
  | gone _ => exact ⟨rfl, fun r' h => by cases h⟩

theorem next?_eq_some {g : Registry} {t : Token} {ev : Event} {r : WaitRecord} (h : g.next? t ev = some r) :
    (g.happen ev).records.get? t = some r := by
  rw [next?] at h
  split at h
  · cases h
  · exact h

theorem last?_eq_some {t : Token} {r : WaitRecord} : ∀ (evs : List Event) {g : Registry}, g.last? t evs = some r →
    (g.run evs).records.get? t = some r
  | [], g, h => h
  | ev :: evs, g, h => by
    rw [last?] at h
    split at h
    · exact last?_eq_some evs h
    · cases h

theorem endings_of_ended {t : Token} : ∀ (evs : List Event) {g : Registry} {r : WaitRecord}, g.Sound →
    g.records.get? t = some r → r.isPending = false → g.endings t evs = []
  | [], g, r, s, hr, hp => rfl
  | ev :: evs, g, r, s, hr, hp => by
    obtain ⟨he, hn⟩ := (fate s.toDistinct hr ev).of_ended hp
    rw [endings, he]
    cases hr' : g.next? t ev with
    | none => rfl
    | some r' =>
      have hp' : r'.isPending = false := by
        rw [(hn r' hr').1]
        exact hp
      exact endings_of_ended evs (s.happen ev) (next?_eq_some hr') hp'

/-- **A wait ends at most once.** -/
theorem ends_at_most_once {t : Token} : ∀ (evs : List Event) {g : Registry} {r : WaitRecord}, g.Sound →
    g.records.get? t = some r → (g.endings t evs).length ≤ 1
  | [], g, r, s, hr => Nat.zero_le 1
  | ev :: evs, g, r, s, hr => by
    have f := fate s.toDistinct hr ev
    have s' := s.happen ev
    rw [endings]
    cases hr' : g.next? t ev with
    | none => cases g.ending? t ev <;> simp
    | some r' =>
      rw [hr'] at f
      cases he : g.ending? t ev with
      | none => exact ends_at_most_once evs s' (next?_eq_some hr')
      | some e =>
        rw [he] at f
        have hp' : r'.isPending = false := by
          rw [← Bool.not_eq_true]
          exact fun h => by cases (f.of_pending f.pending).1 h
        rw [endings_of_ended evs s' (next?_eq_some hr') hp']
        exact Nat.le_refl 1

/-- **What has ended stays as it is**, but for the mark that its decision was handed over. -/
theorem stays_ended {t : Token} : ∀ (evs : List Event) {g : Registry} {r r' : WaitRecord}, g.Sound →
    g.records.get? t = some r → r.isPending = false → g.last? t evs = some r' →
    r' = { r with delivered := r'.delivered } ∧ (r.delivered = true → r'.delivered = true)
  | [], g, r, r', s, hr, hp, h => by
    cases hr.symm.trans h
    exact ⟨rfl, id⟩
  | ev :: evs, g, r, r', s, hr, hp, h => by
    rw [last?] at h
    split at h
    · rename_i hn
      obtain ⟨q, hq⟩ := Option.isSome_iff_exists.1 hn
      obtain ⟨heq, hdel⟩ := ((fate s.toDistinct hr ev).of_ended hp).2 q hq
      have hq' : q.isPending = false := by
        rw [heq]
        exact hp
      obtain ⟨heq', hdel'⟩ := stays_ended evs (s.happen ev) (next?_eq_some hq) hq' h
      refine ⟨?_, hdel' ∘ hdel⟩
      rw [heq] at heq'
      exact heq'
    · cases h

/-- A wait is pending as long as nothing has ended it. -/
theorem pending_iff_endings_nil {t : Token} : ∀ (evs : List Event) {g : Registry} {r r' : WaitRecord}, g.Sound →
    g.records.get? t = some r → r.isPending = true → g.last? t evs = some r' →
    (r'.isPending = true ↔ g.endings t evs = [])
  | [], g, r, r', s, hr, hp, h => by
    cases hr.symm.trans h
    exact ⟨fun _ => rfl, fun _ => hp⟩
  | ev :: evs, g, r, r', s, hr, hp, h => by
    have f := fate s.toDistinct hr ev
    have s' := s.happen ev
    rw [last?] at h
    split at h
    · rename_i hn
      obtain ⟨q, hq⟩ := Option.isSome_iff_exists.1 hn
      rw [hq] at f
      rw [endings, if_pos hn]
      cases he : g.ending? t ev with
      | none =>
        rw [he] at f
        exact pending_iff_endings_nil evs s' (next?_eq_some hq) ((f.of_pending hp).2 rfl) h
      | some e =>
        rw [he] at f
        have hq' : q.isPending = false := by
          rw [← Bool.not_eq_true]
          exact fun hqp => by cases (f.of_pending hp).1 hqp
        refine ⟨fun hp' => ?_, fun hnil => by cases hnil⟩
        rw [(stays_ended evs s' (next?_eq_some hq) hq' h).1] at hp'
        cases hq'.symm.trans hp'
    · cases h

/-- A wait that has ended turns every delivery down, whatever its verdict and by whichever address. -/
theorem turns_down {g : Registry} {x t : Token} {r : WaitRecord} (hx : g.find? x = some (t, r))
    (hr : r.status = .resolved ∨ r.status = .expired) (d : Decision) :
    g.resolve x d = (.alreadyResolved r.status, g) ∧ g.noteUpdate x d = (.alreadyResolved r.status, g) := by
  have hp : r.isPending ≠ true := fun h => by
    rw [WaitRecord.isPending_iff] at h
    rcases hr with hr | hr <;> cases hr.symm.trans h
  have hc : r.status ≠ .cancelled := fun h => by rcases hr with hr | hr <;> cases hr.symm.trans h
  constructor
  · rcases resolve_cases g x d with ⟨u, q, hu, hq, -⟩ | ⟨u, q, hu, hq, -⟩ | ⟨u, q, hu, -, heq⟩ | ⟨hn, -⟩
    · cases hx.symm.trans hu
      exact absurd hq hp
    · cases hx.symm.trans hu
      exact absurd hq hp
    · cases hx.symm.trans hu
      exact heq
    · exact absurd (hn t r hx) hc
  · rcases noteUpdate_cases g x d with ⟨u, q, hu, hq, -⟩ | ⟨u, q, hu, -, heq⟩ | ⟨hn, -⟩
    · cases hx.symm.trans hu
      exact absurd hq hp
    · cases hx.symm.trans hu
      exact heq
    · exact absurd (hn t r hx) hc

/-- **The first resolution wins**: one registration sees one end at most, and what a decision or the deadline has
ended stays as it is while its registration lasts. -/
theorem first_resolution_wins {g : Registry} (hg : Reachable g) :
    (∀ w s h, g.register w = (.ok s, h) → ∀ evs, (h.endings w.token evs).length ≤ 1) ∧
    ∀ t r, g.records.get? t = some r → r.status = .resolved ∨ r.status = .expired → ∀ evs r',
      g.last? t evs = some r' →
        (g.run evs).records.get? t = some r' ∧ r' = { r with delivered := r'.delivered } ∧
        (r.delivered = true → r'.delivered = true) ∧
        ∀ x d, (g.run evs).leads x t = true →
          (g.run evs).resolve x d = (.alreadyResolved r.status, g.run evs) ∧
          (g.run evs).noteUpdate x d = (.alreadyResolved r.status, g.run evs) := by
  constructor
  · intro w s h hr evs
    have hs : h.Sound := by
      have := hg.sound.happen (.call (.register w))
      rwa [show g.happen (.call (.register w)) = h from congrArg Prod.snd hr] at this
    have ht : h.records.get? w.token = some (fresh w) := by
      rw [(registers_of_ok hg.sound.toDistinct hr).records, if_pos rfl]
    exact ends_at_most_once evs hs ht
  · intro t r hr hst evs r' h
    have hp : r.isPending = false := by
      rw [← Bool.not_eq_true, WaitRecord.isPending_iff]
      rcases hst with hst | hst <;> rw [hst] <;> exact fun h => by cases h
    obtain ⟨heq, hdel⟩ := stays_ended evs hg.sound hr hp h
    have hr' := last?_eq_some evs h
    have hst' : r'.status = r.status := by rw [heq]; rfl
    refine ⟨hr', heq, hdel, fun x d hx => ?_⟩
    obtain ⟨q, hq⟩ := leads_iff.1 hx
    cases hr'.symm.trans (find?_records hq)
    rw [← hst'] at hst ⊢
    exact turns_down hq hst d

theorem approval_wins_over_rejection :
    let w := Wait.start default default .epoch
    let yes : Decision := ⟨default, .null, .approved, none, .epoch⟩
    let no : Decision := ⟨default, .null, .rejected, none, .epoch⟩
    let g := (empty.register w).2
    let late : List Event := [.call (.resolve w.token no), .call (.expire w.token .epoch)]
    g.endings w.token (.call (.resolve w.token yes) :: late) = [.resolved yes] ∧
      (g.endings w.token (.call (.resolve w.token yes) :: late)).length ≤ 1 ∧
      ((g.resolve w.token yes).2.run late).resolve w.token no =
        (.alreadyResolved .resolved, (g.resolve w.token yes).2.run late) :=
  let w := Wait.start default default .epoch
  let yes : Decision := ⟨default, .null, .approved, none, .epoch⟩
  let resolved := reachable_empty.run [.call (.register w), .call (.resolve w.token yes)]
  ⟨by decide, (first_resolution_wins reachable_empty).1 w none _ rfl _,
    (((first_resolution_wins resolved).2 w.token _ rfl (.inl rfl) _ _ rfl).2.2.2 w.token _ (by decide)).1⟩

end ApprovalGate.Registry
