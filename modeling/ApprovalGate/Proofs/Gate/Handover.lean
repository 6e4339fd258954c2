import ApprovalGate.Proofs.Gate.Waiters
import ApprovalGate.Proofs.Registry.Ledger
/-!
# From the winner to the handle

The one who ends a wait owes its continuation the news.  What a part of a step leaves to be done agrees with the end
that the wait has come to, and the one who put that end to it leaves a part that is to wake the continuation
(`Gate.onset_tells`, `Gate.sequel_tells`).
-/
namespace ApprovalGate

open Registry (Operation Ending Ledger Stands Spares)

/-- What is said to a continuation of the end of its wait. -/
inductive Says : Ending → Signal → Prop where
  | resolved (d : Decision) : Says (.resolved d) (.decision d)
  | expired : Says .expired .expired
  | cancelled (reason : String) : Says .cancelled (.cancelled reason)
  | superseded (reason : String) : Says .superseded (.cancelled reason)

namespace Half

/-- Whether a part that is left agrees with the end that its wait has come to. -/
def Fits (e? : Option Ending) : Half → Prop
  | wake _ s => ∃ e, e? = some e ∧ Says e s
  | collect _ d? => ∃ d, e? = some (.resolved d) ∧ d? = some d
  | check _ _ | lapse _ _ | look _ => True

/-- Whether a part that is left wakes the continuation once its wait has ended. -/
def isPush : Half → Bool
  | wake _ _ | look _ | collect _ _ => true
  | check _ _ | lapse _ _ => false

theorem Fits.or {e? : Option Ending} {half : Half} (h : half.Fits e?) (end? : Option Ending) :
    half.Fits (e?.or end?) := by
  cases half with
  | wake t s =>
    obtain ⟨e, rfl, hs⟩ := h
    exact ⟨e, rfl, hs⟩
  | collect t d? =>
    obtain ⟨d, rfl, hd⟩ := h
    exact ⟨d, rfl, hd⟩
  | check t now => trivial
  | lapse t now => trivial
  | look t => trivial

end Half

/-! ## Where nothing is -/

/-- Nothing in a gate is at an address, and nothing is half done there. -/
structure Off (x : Traffic) (u : Token) : Prop where
  record : x.gate.registry.records.get? u = none
  halves : ∀ half ∈ x.halves, half.token ≠ u
  handles : ∀ k hd, x.gate.handles.get? k = some hd → hd.token ≠ u
  waiter : x.gate.waiters.get? u = none

namespace Gate

/-- What a move leaves to be done is at a token with a record, at that of a handle, or where it parks. -/
theorem onset_token {g : Gate} (s : g.registry.Sound) {m : Move} {half : Half} (hm : half ∈ (g.onset m).2) :
    (∃ r, g.registry.records.get? half.token = some r) ∨
    (∃ k hd, g.handles.get? k = some hd ∧ hd.token = half.token) ∨
    ∃ e deadline now, m = .attach e half.token deadline now := by
  cases m with
  | deliver x d =>
    rw [onset] at hm
    rcases Registry.resolve_cases g.registry (g.registry.canonical x) d with
      ⟨u, r, hx, -, -, heq⟩ | ⟨u, r, -, -, -, heq⟩ | ⟨u, r, -, -, heq⟩ | ⟨-, heq⟩
    · rw [heq] at hm
      cases List.mem_singleton.1 hm
      have hu := s.canonical hx
      exact .inl ⟨r, hu ▸ Registry.find?_records hx⟩
    · rw [heq] at hm
      cases hm
    · rw [heq] at hm
      cases hm
    · rw [heq] at hm
      cases hm
  | cancel e reason =>
    obtain ⟨u, hu, rfl⟩ := List.mem_map.1 hm
    obtain ⟨r, hr, -⟩ := (Registry.mem_cancel s.toDistinct).1 hu
    exact .inl ⟨r, hr⟩
  | register w =>
    rw [onset] at hm
    rcases hr : g.registry.register w with ⟨result, registry⟩
    rw [hr] at hm
    rcases result with f | sup
    · cases hm
    · cases sup with
      | none => cases hm
      | some p =>
        cases List.mem_singleton.1 hm
        obtain ⟨-, r, -, hp, -⟩ := (Registry.registers_of_ok s.toDistinct hr).superseded p.1 p.2 rfl
        exact .inl ⟨r, hp⟩
  | upkeep op _ => cases hm
  | overdue at' now =>
    obtain ⟨u, hu, rfl⟩ := List.mem_map.1 hm
    obtain ⟨r, hr, -⟩ := (Registry.mem_overdue s.toDistinct).1 hu
    exact .inl ⟨r, hr⟩
  | attach e t deadline now =>
    cases List.mem_singleton.1 hm
    exact .inr (.inr ⟨e, deadline, now, rfl⟩)
  | fire serial now =>
    rw [onset] at hm
    cases hs : g.handles.get? serial with
    | none =>
      rw [hs] at hm
      cases hm
    | some hd =>
      rw [hs] at hm
      simp only [expireFor] at hm
      have ht : hd.token = half.token := by
        rcases hr : g.registry.expire hd.token now with ⟨answer, registry⟩
        rw [hr] at hm
        cases answer <;> cases List.mem_singleton.1 hm <;> rfl
      exact .inr (.inl ⟨serial, hd, hs, ht⟩)
  | read serial now =>
    rw [onset] at hm
    cases hs : g.handles.get? serial with
    | none =>
      rw [hs] at hm
      cases hm
    | some hd =>
      rw [hs] at hm
      cases hm
  | leave serial => cases hm
  | close serial => cases hm
  | account executions => cases hm

theorem sequel_token {g : Gate} {half half' : Half} (hm : half' ∈ (g.sequel half).2) : half'.token = half.token := by
  cases half with
  | wake t s => cases hm
  | check t now =>
    rw [sequel] at hm
    simp only at hm
    split at hm
    · cases hm
    · cases List.mem_singleton.1 hm
      rfl
  | lapse t now =>
    rw [sequel] at hm
    rcases hr : g.registry.expire t now with ⟨answer, registry⟩
    rw [hr] at hm
    cases answer with
    | expired e =>
      cases List.mem_singleton.1 hm
      rfl
    | _ => cases hm
  | look t =>
    rw [sequel] at hm
    cases hr : g.registry.get? t with
    | none =>
      rw [hr] at hm
      cases List.mem_singleton.1 hm
      rfl
    | some r =>
      rw [hr] at hm
      simp only [told] at hm
      cases hs : r.status <;> rw [hs] at hm
      · cases hm
      · cases List.mem_singleton.1 hm
        rfl
      · cases List.mem_singleton.1 hm
        rfl
      · cases List.mem_singleton.1 hm
        rfl
  | collect t d? =>
    obtain ⟨d, -, rfl⟩ := Option.map_eq_some_iff.1 (Option.mem_toList.1 hm)
    rfl

end Gate

theorem Traffic.mem_step_halves {x : Traffic} (s : x.gate.registry.Sound) {st : Step} {half : Half}
    (hm : half ∈ (x.step st).halves) : half ∈ x.halves ∨ (∃ r, x.gate.registry.records.get? half.token = some r) ∨
      (∃ k hd, x.gate.handles.get? k = some hd ∧ hd.token = half.token) ∨
      (∃ half' ∈ x.halves, half'.token = half.token) ∨
      ∃ e deadline now, st = .begin (.attach e half.token deadline now) := by
  cases st with
  | begin m =>
    rcases List.mem_append.1 hm with hm | hm
    · exact .inl hm
    · rcases Gate.onset_token s hm with h | h | ⟨e, deadline, now, rfl⟩
      · exact .inr (.inl h)
      · exact .inr (.inr (.inl h))
      · exact .inr (.inr (.inr (.inr ⟨e, deadline, now, rfl⟩)))
  | resume half' =>
    rw [step] at hm
    split at hm
    · rename_i hh
      rcases List.mem_append.1 hm with hm | hm
      · exact .inl (List.mem_of_mem_erase hm)
      · exact .inr (.inr (.inr (.inl ⟨half', hh, (Gate.sequel_token hm).symm⟩)))
    · exact .inl hm

/-- An address where nothing is stays so until something is registered or parked there. -/
theorem Off.step {x : Traffic} {u : Token} (o : Off x u) (s : x.gate.registry.Sound) {st : Step}
    (hw : ∀ op, x.op? st = some op → ∀ w, x.gate.registry.taken? (.call op) = some w → w.token ≠ u)
    (ha : ∀ e deadline now, st ≠ .begin (.attach e u deadline now)) : Off (x.step st) u := by
  have sh := x.step_shift st
  refine ⟨?_, fun half hm => ?_, fun k hd hk => ?_, ?_⟩
  · rw [x.step_registry]
    cases hop : x.op? st with
    | none => exact o.record
    | some op => exact Registry.perform_none s.toDistinct o.record (hw op hop)
  · rintro rfl
    rcases Traffic.mem_step_halves s hm with h | ⟨r, h⟩ | ⟨k, hd, hk, h⟩ | ⟨half', hm', h⟩ | ⟨e, deadline, now, h⟩
    · exact o.halves half h rfl
    · cases o.record.symm.trans h
    · exact o.handles k hd hk h
    · exact o.halves half' hm' h
    · exact ha e deadline now h
  · rintro rfl
    rcases sh.handles_or hk with ⟨hd', hk, h⟩ | ⟨⟨e, deadline, now, h⟩, -⟩
    · exact o.handles k hd' hk h
    · exact ha e deadline now h
  · cases hu : (x.step st).gate.waiters.get? u with
    | none => rfl
    | some w =>
      rcases sh.waiters_or hu with h | ⟨⟨e, deadline, now, h⟩, -⟩
      · cases o.waiter.symm.trans h
      · exact absurd h (ha e deadline now)

/-! ## What is owed to a continuation -/

theorem Registry.endingOf?_quiet (g : Registry) (t : Token) {op : Operation} (h : op.isQuiet = true) :
    g.endingOf? t (some op) = none := by
  cases op with
  | noteUpdate x d => rfl
  | remove x => rfl
  | takeDecision x => rfl
  | markDelivered x => rfl
  | sweep now => rfl
  | register w => cases h
  | resolve x d => cases h
  | expire x now => cases h
  | cancel e => cases h

theorem Registry.Ledger.or_ending {t : Token} {a? : Option Token} {g : Registry} {e? : Option Ending}
    (l : Ledger t a? g e?) {op? : Option Operation} {e : Ending} (h : g.endingOf? t op? = some e) :
    e?.or (g.endingOf? t op?) = some e := by
  obtain ⟨op, rfl, he⟩ := Option.bind_eq_some_iff.1 h
  cases e? with
  | none => exact h
  | some e' => cases (l.ended op).symm.trans he

/-- The parts that a part of a step leaves agree with the end that a wait has come to, and if it was the one who put
that end to the wait then one of them is to wake the continuation. -/
structure Tells (t : Token) (e? end? : Option Ending) (left : List Half) : Prop where
  fits : ∀ half ∈ left, half.token = t → half.Fits (e?.or end?)
  pushes : ∀ e, end? = some e → ∃ half ∈ left, half.token = t ∧ half.isPush = true

theorem tells_nil (t : Token) (e? : Option Ending) : Tells t e? none [] where
  fits _ h := by cases h
  pushes e h := by cases h

theorem tells_of_silent {t : Token} {e? : Option Ending} {left : List Half}
    (h : ∀ half ∈ left, ∀ e?, half.Fits e?) : Tells t e? none left where
  fits half hm _ := h half hm _
  pushes e h := by cases h

/-- A continuation is woken with the end that was put to its wait, and so is no other. -/
theorem tells_wake {t u : Token} {a? : Option Token} {g : Registry} {e? : Option Ending} (l : Ledger t a? g e?)
    {op? : Option Operation} {e : Ending} {s : Signal} (hs : Says e s)
    (he : g.endingOf? t op? = if u = t then some e else none) : Tells t e? (g.endingOf? t op?) [.wake u s] := by
  refine ⟨fun half hm ht => ?_, fun e' he' => ?_⟩
  · cases List.mem_singleton.1 hm
    rw [if_pos (show u = t from ht)] at he
    exact ⟨e, l.or_ending he, hs⟩
  · by_cases hu : u = t
    · exact ⟨_, List.mem_singleton_self _, hu, rfl⟩
    · rw [he, if_neg hu] at he'
      cases he'

namespace Registry

theorem Ledger.expire_ending {t x : Token} {a? : Option Token} {g : Registry} {e? : Option Ending}
    (l : Ledger t a? g e?) (hx : a? = some x → x = t) (now : Instant) :
    (∃ e, (g.expire x now).1 = .expired e ∧
      g.endingOf? t (some (.expire x now)) = if x = t then some .expired else none) ∨
    (∀ e, (g.expire x now).1 ≠ .expired e) ∧ g.endingOf? t (some (.expire x now)) = none := by
  show (∃ e, _ ∧ g.ending? t (.call (.expire x now)) = _) ∨ _ ∧ g.ending? t (.call (.expire x now)) = none
  rw [ending?]
  rcases expire_cases g x now with ⟨u, r, hu, -, heq⟩ | ⟨u, r, -, -, heq⟩ | ⟨-, heq⟩
  · refine .inl ⟨r.wait.execution, by rw [heq], ?_⟩
    rw [heq]
    simp only [leads_of_find? hu, decide_eq_true_eq, l.direct hu hx]
  · rw [heq]
    exact .inr ⟨fun e h => by (cases h), rfl⟩
  · rw [heq]
    exact .inr ⟨fun e h => by (cases h), rfl⟩

theorem Sound.resolve_ending {g : Registry} (s : g.Sound) (t x : Token) (d : Decision) :
    (∃ e, (g.resolve (g.canonical x) d).1 = .resolved e d ∧
      g.endingOf? t (some (.resolve (g.canonical x) d)) =
        if g.canonical x = t then some (.resolved d) else none) ∨
    (∀ e d', (g.resolve (g.canonical x) d).1 ≠ .resolved e d') ∧
      g.endingOf? t (some (.resolve (g.canonical x) d)) = none := by
  show (∃ e, _ ∧ g.ending? t (.call (.resolve (g.canonical x) d)) = _) ∨
    _ ∧ g.ending? t (.call (.resolve (g.canonical x) d)) = none
  rw [ending?]
  rcases resolve_cases g (g.canonical x) d with
    ⟨u, r, hu, -, -, heq⟩ | ⟨u, r, -, -, -, heq⟩ | ⟨u, r, -, -, heq⟩ | ⟨-, heq⟩
  · refine .inl ⟨r.wait.execution, by rw [heq], ?_⟩
    rw [heq]
    simp only [leads_of_find? hu, decide_eq_true_eq, s.canonical hu]
  · rw [heq]
    exact .inr ⟨fun e d' h => by (cases h), rfl⟩
  · rw [heq]
    exact .inr ⟨fun e d' h => by (cases h), rfl⟩
  · rw [heq]
    exact .inr ⟨fun e d' h => by (cases h), rfl⟩

end Registry

namespace Gate

/-- **What a move leaves to be done** is in agreement with the end of a wait that no handle is parked on by alias. -/
theorem onset_tells {g : Gate} {t : Token} {a? : Option Token} {e? : Option Ending} (l : Ledger t a? g.registry e?)
    (hd : ∀ k h, g.handles.get? k = some h → a? = some h.token → h.token = t) (m : Move) :
    Tells t e? (g.registry.endingOf? t (g.op? m)) (g.onset m).2 := by
  cases m with
  | deliver x d =>
    rw [onset, op?]
    rcases l.sound.resolve_ending t x d with ⟨e, hr, he⟩ | ⟨hr, he⟩
    · rcases hreg : g.registry.resolve (g.registry.canonical x) d with ⟨answer, registry⟩
      rw [hreg] at hr
      cases hr
      exact tells_wake l (.resolved d) he
    · rw [he]
      rcases hreg : g.registry.resolve (g.registry.canonical x) d with ⟨answer, registry⟩
      rw [hreg] at hr
      cases answer with
      | resolved e d' => exact absurd rfl (hr e d')
      | _ => exact tells_nil t e?
  | cancel e reason =>
    refine ⟨fun half hm ht => ?_, fun end' he => ?_⟩
    · obtain ⟨u, hu, rfl⟩ := List.mem_map.1 hm
      have he : g.registry.endingOf? t (g.op? (.cancel e reason)) = some .cancelled :=
        if_pos (show t ∈ (g.registry.cancel e).1 from (show u = t from ht) ▸ hu)
      exact ⟨_, l.or_ending he, .cancelled reason⟩
    · have he : (if t ∈ (g.registry.cancel e).1 then some Ending.cancelled else none) = some end' := he
      split at he
      · rename_i ht
        exact ⟨_, List.mem_map.2 ⟨t, ht, rfl⟩, rfl, rfl⟩
      · cases he
  | register w =>
    rw [onset]
    have he : g.registry.endingOf? t (g.op? (.register w)) = g.registry.ending? t (.call (.register w)) := rfl
    rw [Registry.ending?] at he
    rcases hreg : g.registry.register w with ⟨result, registry⟩
    rw [hreg] at he
    rcases result with f | sup
    · rw [he]
      exact tells_nil t e?
    · cases sup with
      | none =>
        rw [he]
        exact tells_nil t e?
      | some p =>
        simp only [Option.map_some, Option.some.injEq] at he
        exact tells_wake l (.superseded _) he
  | upkeep op h =>
    rw [op?, g.registry.endingOf?_quiet t h]
    exact tells_nil t e?
  | overdue at' now =>
    refine tells_of_silent fun half hm _ => ?_
    obtain ⟨u, -, rfl⟩ := List.mem_map.1 hm
    trivial
  | attach e u deadline now =>
    refine tells_of_silent fun half hm _ => ?_
    cases List.mem_singleton.1 hm
    trivial
  | fire serial now =>
    rw [onset, op?]
    cases hs : g.handles.get? serial with
    | none => exact tells_nil t e?
    | some h =>
      simp only [expireFor, Option.map_some]
      rcases l.expire_ending (hd serial h hs) now with ⟨e, hr, he⟩ | ⟨hr, he⟩
      · rcases hreg : g.registry.expire h.token now with ⟨answer, registry⟩
        rw [hreg] at hr
        cases hr
        exact tells_wake l .expired he
      · rw [he]
        refine tells_of_silent fun half hm _ => ?_
        rcases hreg : g.registry.expire h.token now with ⟨answer, registry⟩
        rw [hreg] at hr hm
        cases answer with
        | expired e => exact absurd rfl (hr e)
        | _ =>
          cases List.mem_singleton.1 hm
          trivial
  | read serial now =>
    rw [onset, op?]
    cases g.handles.get? serial with
    | none => exact tells_nil t e?
    | some h =>
      simp only [Option.bind_some]
      split
      · rename_i d _
        cases WaitOutcome.ofDecision? d <;> exact tells_nil t e?
      · exact tells_nil t e?
  | leave serial => exact tells_nil t e?
  | close serial => exact tells_nil t e?
  | account executions => exact tells_nil t e?

/-- What is told of a wait agrees with the end it has come to, if it has, and is to be passed on. -/
theorem told_tells {t : Token} {e? : Option Ending} {r? : Option WaitRecord} (st : Stands e? r?) :
    (∀ half ∈ told t r?, half.Fits e?) ∧
      ∀ e, e? = some e → ∃ half ∈ told t r?, half.token = t ∧ half.isPush = true := by
  cases st with
  | pending hr =>
    rw [told]
    simp only [hr]
    exact ⟨fun half h => (by cases h), fun e h => by cases h⟩
  | @resolved r d hr hd _ =>
    rw [told]
    simp only [hr]
    refine ⟨fun half h => ?_, fun e _ => ⟨_, List.mem_singleton_self _, rfl, rfl⟩⟩
    cases List.mem_singleton.1 h
    exact ⟨d, rfl, hd⟩
  | expired hr =>
    rw [told]
    simp only [hr]
    refine ⟨fun half h => ?_, fun e _ => ⟨_, List.mem_singleton_self _, rfl, rfl⟩⟩
    cases List.mem_singleton.1 h
    exact ⟨_, rfl, .expired⟩
  | cancelled =>
    refine ⟨fun half h => ?_, fun e _ => ⟨_, List.mem_singleton_self _, rfl, rfl⟩⟩
    cases List.mem_singleton.1 h
    exact ⟨_, rfl, .cancelled _⟩
  | superseded =>
    refine ⟨fun half h => ?_, fun e _ => ⟨_, List.mem_singleton_self _, rfl, rfl⟩⟩
    cases List.mem_singleton.1 h
    exact ⟨_, rfl, .superseded _⟩

/-- A decision that a continuation is about to get is the one that ended its wait. -/
theorem collect_decision {g : Registry} {t : Token} {a? : Option Token} {d : Decision}
    (l : Ledger t a? g (some (.resolved d))) : ((g.takeDecision t).1 <|> some d) = some d := by
  rcases Registry.takeDecision_cases g t with ⟨u, r, d', hu, hd, -, heq⟩ | ⟨-, heq⟩
  · have st := l.stands
    have ht : u = t := (l.direct hu fun h => rfl).2 rfl
    rw [← ht, Registry.find?_records hu] at st
    cases st with
    | resolved _ hd' _ =>
      rw [heq, ← hd, hd']
      rfl
  · rw [heq]
    rfl

/-- **What a part of a step leaves in turn** is in agreement with the end of a wait, when the part was. -/
theorem sequel_tells {g : Gate} {t : Token} {a? : Option Token} {e? : Option Ending} (l : Ledger t a? g.registry e?)
    {half : Half} (hf : half.token = t → half.Fits e?) (ha : a? = some half.token → half.token = t) :
    Tells t e? (g.registry.endingOf? t half.op?) (g.sequel half).2 := by
  cases half with
  | wake u s => exact tells_nil t e?
  | check u now =>
    refine tells_of_silent fun half hm _ => ?_
    rw [sequel] at hm
    simp only at hm
    split at hm
    · cases hm
    · cases List.mem_singleton.1 hm
      trivial
  | lapse u now =>
    have ha : a? = some u → u = t := ha
    rw [sequel, Half.op?]
    rcases l.expire_ending ha now with ⟨e, hr, he⟩ | ⟨hr, he⟩
    · rcases hreg : g.registry.expire u now with ⟨answer, registry⟩
      rw [hreg] at hr
      cases hr
      exact tells_wake l .expired he
    · rw [he]
      rcases hreg : g.registry.expire u now with ⟨answer, registry⟩
      rw [hreg] at hr
      cases answer with
      | expired e => exact absurd rfl (hr e)
      | _ => exact tells_nil t e?
  | look u =>
    refine ⟨fun half hm ht => ?_, fun e h => by cases h⟩
    have hu : u = t := (sequel_token hm).symm.trans ht
    subst hu
    rw [sequel, l.get?_self] at hm
    exact ((told_tells l.stands).1 half hm).or none
  | collect u d? =>
    refine ⟨fun half hm ht => ?_, fun e h => by cases h⟩
    have hu : u = t := (sequel_token hm).symm.trans ht
    subst hu
    obtain ⟨d, rfl, rfl⟩ := hf rfl
    rw [sequel, collect_decision l] at hm
    cases List.mem_singleton.1 hm
    exact ⟨_, rfl, .resolved d⟩

/-- A part that is to tell a continuation of the end of its wait passes this on to the part that it leaves. -/
theorem sequel_pushes {g : Gate} {t : Token} {a? : Option Token} {e : Ending} (l : Ledger t a? g.registry (some e))
    {half : Half} (hf : half.Fits (some e)) (ht : half.token = t) (hp : half.isPush = true)
    (hw : ∀ s, half ≠ .wake t s) : ∃ half' ∈ (g.sequel half).2, half'.token = t ∧ half'.isPush = true := by
  cases half with
  | wake u s => exact absurd (by rw [show u = t from ht]) (hw s)
  | check u now => cases hp
  | lapse u now => cases hp
  | look u =>
    cases (show u = t from ht)
    rw [sequel, l.get?_self]
    exact (told_tells l.stands).2 e rfl
  | collect u d? =>
    cases (show u = t from ht)
    obtain ⟨d, hd, rfl⟩ := hf
    cases hd
    rw [sequel, collect_decision l]
    exact ⟨_, List.mem_singleton_self _, rfl, rfl⟩

end Gate

end ApprovalGate
