import ApprovalGate.Proofs.Gate.Parked
/-!
# A suspended execution sees the winner

A wait is registered under a token, and later a handle is parked on it.  However the parts of deliveries, expiries,
cancellations and registrations interleave, the handle is answered with the end that was put to the wait and with
nothing else, and it stays parked just as long as the wait is pending (`suspended_execution_sees_winner`).

The addresses must be the wait's own.  An address leads to a record under it first and to one that has it for an alias
second, so once a wait is cancelled its token can lead to another one, and the handle is told of that
(`alias_of_another_misleads`).
-/
namespace ApprovalGate

open Registry (Ending Stands)

def Gate.Parked (g : Gate) (t : Token) (e : ExecutionId) (s : Nat) : Prop :=
  g.waiters.get? t = some ⟨s, e⟩ ∧ ∃ h, g.handles.get? s = some h ∧ h.mail = .none

/-- What a handle sees of the ends that were put to its wait. -/
structure Sees (x : Traffic) (t : Token) (e : ExecutionId) (s : Nat) (ends : List Ending) : Prop where
  once : ends.length ≤ 1
  /-- The outcome of a decision is that of the one delivery that was accepted. -/
  decided : ∀ o, (s, .ok o) ∈ x.results → o ≠ .timedOut → ∃ d r, ends = [.resolved d] ∧
    WaitOutcome.ofDecision? d = some o ∧ x.gate.registry.records.get? t = some r ∧ r.status = .resolved ∧
    r.decision = some d
  timedOut : (s, .ok .timedOut) ∈ x.results →
    ∃ r, ends = [.expired] ∧ x.gate.registry.records.get? t = some r ∧ r.status = .expired
  failed : ∀ f, (s, .error f) ∈ x.results → (∃ reason, f = .cancelled e reason) ∧
    (ends = [.cancelled] ∨ ends = [.superseded]) ∧ x.gate.registry.records.get? t = none
  parked : x.halves = [] →
    (x.gate.Parked t e s ↔ ∃ r, x.gate.registry.records.get? t = some r ∧ r.status = .pending)
  /-- Once the wait has ended and nothing is half done, the next reading has the answer at the latest. -/
  answered : x.halves = [] → ∀ e', ends = [e'] → ∀ now,
    ∃ o, (s, o) ∈ (x.step (.begin (.read s now))).results ∧ Reports e e' o

/-! ## From the invariant -/

namespace Waits

variable {x : Traffic} {t : Token} {a? : Option Token} {e : ExecutionId} {s : Nat} {e? : Option Ending}

theorem reports (w : Waits x t a? e s e?) {o : Outcome WaitOutcome} (ho : (s, o) ∈ x.results) :
    ∃ e', e? = some e' ∧ Reports e e' o := by
  cases w.place with
  | parked _ _ hr _ => exact absurd ho (hr o)
  | mailed _ _ hr _ => exact absurd ho (hr o)
  | done _ _ hr h => exact ⟨_, rfl, (hr o).1 ho ▸ h⟩

theorem parked_iff (w : Waits x t a? e s e?) (hx : x.halves = []) : x.gate.Parked t e s ↔ e? = none := by
  constructor
  · rintro ⟨hw, h, hh, hm⟩
    cases w.place with
    | parked _ _ _ hp =>
      cases e? with
      | none => rfl
      | some e' =>
        obtain ⟨half, hin, -⟩ := hp e' rfl
        rw [hx] at hin
        cases hin
    | mailed _ hw' _ _ => cases hw'.symm.trans hw
    | done _ hw' _ _ => cases hw'.symm.trans hw
  · rintro rfl
    cases w.place with
    | parked hh hw _ _ =>
      obtain ⟨h, hs, -, -, hm⟩ := Handle.of_gist hh
      exact ⟨hw, h, hs, hm⟩

theorem reads_answer {e' : Ending} (w : Waits x t a? e s (some e')) (hx : x.halves = []) (now : Instant) :
    ∃ o, (s, o) ∈ (x.step (.begin (.read s now))).results ∧ Reports e e' o := by
  cases w.place with
  | parked _ _ _ hp =>
    obtain ⟨half, hin, -⟩ := hp e' rfl
    rw [hx] at hin
    cases hin
  | mailed hh _ _ hsay =>
    obtain ⟨h, hs, rfl, -, hm⟩ := Handle.of_gist hh
    refine ⟨_, ?_, hsay.reports w.ledger.stands x.gate s now⟩
    rw [(read_mailed hs hm now).2.2]
    exact List.mem_append_right _ (List.mem_singleton_self _)
  | @done _ o hh _ hr h =>
    rw [read_done hh]
    exact ⟨o, (hr o).2 rfl, h⟩

theorem sees (w : Waits x t a? e s e?) : Sees x t e s e?.toList := by
  have st := w.ledger.stands
  refine ⟨?_, fun o ho hne => ?_, fun ho => ?_, fun f hf => ?_, fun hx => ?_, fun hx e' he => ?_⟩
  · cases e? with
    | none => exact Nat.zero_le 1
    | some e' => exact Nat.le_refl 1
  · obtain ⟨e', rfl, hrep⟩ := w.reports ho
    cases hrep with
    | @resolved d o hd =>
      cases hr : x.gate.registry.records.get? t with
      | none => rw [hr] at st; cases st
      | some r =>
        rw [hr] at st
        cases st with
        | resolved hs hdec _ => exact ⟨d, r, rfl, hd, rfl, hs, hdec⟩
    | expired => exact absurd rfl hne
  · obtain ⟨e', rfl, hrep⟩ := w.reports ho
    cases hrep with
    | @resolved d o hd =>
      rw [WaitOutcome.ofDecision?] at hd
      split at hd <;> cases hd
    | expired =>
      cases hr : x.gate.registry.records.get? t with
      | none => rw [hr] at st; cases st
      | some r =>
        rw [hr] at st
        cases st with
        | expired hs => exact ⟨r, rfl, rfl, hs⟩
  · obtain ⟨e', rfl, hrep⟩ := w.reports hf
    generalize hr : x.gate.registry.records.get? t = r? at st
    cases hrep with
    | cancelled reason => cases st; exact ⟨⟨reason, rfl⟩, .inl rfl, rfl⟩
    | superseded reason => cases st; exact ⟨⟨reason, rfl⟩, .inr rfl, rfl⟩
  · exact (w.parked_iff hx).trans st.pending_iff.symm
  · cases e? with
    | none => cases he
    | some e'' =>
      cases he
      exact w.reads_answer hx

end Waits

/-! ## Episodes -/

/-- A run in which a wait is registered, and later a handle is parked on it. -/
structure Episode where
  registry : Registry
  issuer : Option Issuer
  before : List Step
  wait : Wait
  mid : List Step
  execution : ExecutionId
  deadline : Option Nat
  now : Instant
  after : List Step

namespace Episode

def registration (ep : Episode) : Step := .begin (.register ep.wait)

def parking (ep : Episode) : Step := .begin (.attach ep.execution ep.wait.token ep.deadline ep.now)

def start (ep : Episode) : Traffic := .idle (.start ep.registry ep.issuer)

/-- When the wait is about to be registered. -/
def opened (ep : Episode) : Traffic := ep.start.run ep.before

def registered (ep : Episode) : Traffic := ep.opened.step ep.registration

/-- When the handle is about to be parked. -/
def settled (ep : Episode) : Traffic := ep.registered.run ep.mid

def parked (ep : Episode) : Traffic := ep.settled.step ep.parking

def serial (ep : Episode) : Nat := ep.settled.gate.nextSerial

def final (ep : Episode) : Traffic := ep.parked.run ep.after

/-- The ends that were put to the wait since its registration. -/
def ends (ep : Episode) : List Ending := ep.registered.endings ep.wait.token (ep.mid ++ ep.parking :: ep.after)

theorem final_eq (ep : Episode) : ep.final =
    ep.start.run (ep.before ++ ep.registration :: ep.mid ++ ep.parking :: ep.after) := by
  rw [Traffic.run_append, Traffic.run_append]
  rfl

/-- The token is registered once, and neither registered again nor removed nor swept, and the one handle parked on it
after that stays. -/
structure Lasts (ep : Episode) : Prop where
  reachable : ep.registry.Reachable
  vacant : ep.registry.records.get? ep.wait.token = none
  accepted : (ep.opened.gate.registry.register ep.wait).1.isOk = true
  keepsBefore : ep.start.Along (Traffic.Keeps ep.wait.token) ep.before
  keepsMid : ep.registered.Along (Traffic.Keeps ep.wait.token) ep.mid
  keepsAfter : ep.parked.Along (Traffic.Keeps ep.wait.token) ep.after
  unparked : ∀ st ∈ ep.before, ∀ e deadline now, st ≠ .begin (.attach e ep.wait.token deadline now)
  stays : ∀ st ∈ ep.after, st.Stays ep.wait.token ep.serial

/-- No other wait has the token for an alias, and no other wait or handle is at the alias. -/
structure Unshared (ep : Episode) : Prop where
  first : ep.registry.aliases.get? ep.wait.token = none
  aside : ∀ a, ep.wait.aliasToken = some a → ep.registry.records.get? a = none
  before : ep.start.Along (Traffic.Apart ep.wait.token ep.wait.aliasToken) ep.before
  mid : ep.registered.Along (Traffic.Apart ep.wait.token ep.wait.aliasToken) ep.mid
  after : ep.parked.Along (Traffic.Apart ep.wait.token ep.wait.aliasToken) ep.after

def Seen (ep : Episode) : Prop := Sees ep.final ep.wait.token ep.execution ep.serial ep.ends

end Episode

/-! ## What no wait minds

Deliveries, cancellations, timers, readings and passes over what is overdue, begun or left half done, take no record
away but by ending its wait, and put nothing at any address.
-/

/-- Whether a part of a step neither registers nor parks anything, nor makes a record or a handle go away. -/
def Step.isPlain : Step → Bool
  | .begin (.register _) | .begin (.upkeep _ _) | .begin (.attach _ _ _ _) | .begin (.leave _)
  | .begin (.close _) => false
  | _ => true

theorem Traffic.op?_plain {x : Traffic} {st : Step} (hp : st.isPlain = true) {op : Registry.Operation}
    (h : x.op? st = some op) :
    (∀ t, ¬x.gate.registry.Drops t (.call op)) ∧ x.gate.registry.taken? (.call op) = none := by
  cases st with
  | begin m =>
    cases m with
    | deliver y d => cases h; exact ⟨fun _ => id, rfl⟩
    | cancel e reason => cases h; exact ⟨fun _ => id, rfl⟩
    | fire serial now =>
      obtain ⟨hd, -, rfl⟩ := Option.map_eq_some_iff.1 h
      exact ⟨fun _ => id, rfl⟩
    | read serial now =>
      obtain ⟨hd, -, h⟩ := Option.bind_eq_some_iff.1 h
      split at h
      · obtain ⟨o, -, rfl⟩ := Option.map_eq_some_iff.1 h
        exact ⟨fun _ => id, rfl⟩
      · cases h
    | register w => cases hp
    | upkeep op quiet => cases hp
    | _ => cases h
  | resume half =>
    rw [op?] at h
    split at h
    · cases half with
      | lapse t now => cases h; exact ⟨fun _ => id, rfl⟩
      | collect t d? => cases h; exact ⟨fun _ => id, rfl⟩
      | _ => cases h
    · cases h

theorem Step.keeps_of_plain {st : Step} (hp : st.isPlain = true) (t : Token) (x : Traffic) : Traffic.Keeps t x st :=
  fun _ h => (Traffic.op?_plain hp h).1 t

theorem Step.apart_of_plain {st : Step} (hp : st.isPlain = true) (t : Token) (a? : Option Token) (x : Traffic) :
    Traffic.Apart t a? x st := by
  refine ⟨fun op h w hw => ?_, fun e u deadline now h => ?_⟩
  · cases (Traffic.op?_plain hp h).2.symm.trans hw
  · rw [h] at hp
    cases hp

theorem Step.stays_of_plain {st : Step} (hp : st.isPlain = true) (t : Token) (s : Nat) : st.Stays t s := by
  refine ⟨fun e deadline now h => ?_, fun h => ?_, fun h => ?_⟩ <;> rw [h] at hp <;> cases hp

/-! ## From the start -/

theorem off_start {g : Registry} {issuer : Option Issuer} {u : Token} (h : g.records.get? u = none) :
    Off (.idle (.start g issuer)) u where
  record := h
  halves half hm := by cases hm
  handles k hd hk := by cases hk
  waiter := rfl

theorem vacant_start {g : Registry} (s : g.Sound) (issuer : Option Issuer) {t : Token} {a? : Option Token}
    (ht : g.records.get? t = none) (hat : g.aliases.get? t = none) (ha : ∀ a, a? = some a → g.records.get? a = none) :
    Vacant (.idle (.start g issuer)) t a? where
  sound := s
  off := off_start ht
  first := hat
  aside a h _ := off_start (ha a h)
  fresh := ⟨fun u w h => (by cases h), fun k hd h => by cases h⟩
  answered k o h := by cases h

/-- **A suspended execution sees the winner**, whoever ends the wait and whoever wakes the handle. -/
theorem suspended_execution_sees_winner (ep : Episode) (hl : ep.Lasts) (hu : ep.Unshared) : ep.Seen := by
  have v : Vacant ep.opened ep.wait.token ep.wait.aliasToken :=
    (vacant_start hl.reachable.sound ep.issuer hl.vacant hu.first hu.aside).run
      (hl.keepsBefore.combine (fun _ _ hk ha hn => ⟨⟨hk, ha⟩, hn⟩) hu.before hl.unparked)
  obtain ⟨e?, f, he⟩ := (v.register hl.accepted).run
    (hl.keepsMid.combine (m := fun _ => True) (fun _ _ hk ha _ => ⟨hk, ha⟩) hu.mid fun _ _ => trivial)
  obtain ⟨e'?, w, he'⟩ := (f.attach ep.execution ep.deadline ep.now).run
    (hl.keepsAfter.combine (fun _ _ hk ha hs => ⟨⟨hk, ha⟩, hs⟩) hu.after hl.stays)
  have hends : ep.ends = e'?.toList := by
    rw [he', he, Episode.ends, Traffic.endings_append]
    rfl
  rw [Episode.Seen, hends]
  exact w.sees

/-- An approval by the alias of the wait that is delivered before the handle is parked, and found by the handle's own
timer before the one who delivered it wakes the handle. -/
def approved : Episode :=
  let t : Token := default
  let a : Token := ⟨"a", by decide⟩
  let yes : Decision := ⟨a, .null, .approved, none, .epoch⟩
  { registry := .empty
    issuer := none
    before := []
    wait := { Wait.start t default .epoch with aliasToken := some a }
    mid := [.begin (.deliver a yes)]
    execution := default
    deadline := some 0
    now := .epoch
    after := [.begin (.fire 1 .epoch), .resume (.look t), .resume (.collect t (some yes)),
      .resume (.wake t (.decision yes)), .begin (.read 1 .epoch), .resume (.look t), .resume (.wake t (.decision yes)),
      .resume (.collect t (some yes)), .resume (.wake t (.decision yes))] }

theorem approval_seen_through_timer :
    approved.final.results = [(1, .ok (.approved none))] ∧ approved.final.halves = [] ∧
      approved.ends = [.resolved ⟨⟨"a", by decide⟩, .null, .approved, none, .epoch⟩] ∧ approved.Seen := by
  have mid : ∀ st ∈ approved.mid, st.isPlain = true := by decide
  have after : ∀ st ∈ approved.after, st.isPlain = true := by decide
  refine ⟨rfl, by decide, by decide, suspended_execution_sees_winner approved ?_ ?_⟩
  · exact {
      reachable := Registry.reachable_empty
      vacant := rfl
      accepted := rfl
      keepsBefore := trivial
      keepsMid := .of_forall fun st h x => Step.keeps_of_plain (mid st h) _ x
      keepsAfter := .of_forall fun st h x => Step.keeps_of_plain (after st h) _ x
      unparked := fun st h => by cases h
      stays := fun st h => Step.stays_of_plain (after st h) _ _ }
  · exact {
      first := rfl
      aside := fun a h => rfl
      before := trivial
      mid := .of_forall fun st h x => Step.apart_of_plain (mid st h) _ _ x
      after := .of_forall fun st h x => Step.apart_of_plain (after st h) _ _ x }

/-- A wait that is cancelled before the handle is parked, while another one has its token for an alias. -/
def misled : Episode :=
  let t : Token := default
  let u : Token := ⟨"u", by decide⟩
  { registry := .empty
    issuer := none
    before := []
    wait := Wait.start t default .epoch
    mid := [.begin (.register { Wait.start u ⟨.numbered 2⟩ .epoch with aliasToken := some t }),
      .begin (.cancel default "stop"), .resume (.wake t (.cancelled "stop"))]
    execution := default
    deadline := some 0
    now := .epoch
    after := [.resume (.look t), .begin (.fire 1 .epoch), .resume (.wake t .expired), .begin (.read 1 .epoch)] }

/-- **Without its token to itself an execution can see what happened to another one**: its wait was cancelled, and it is
answered that it timed out, because the other wait expired instead. -/
theorem alias_of_another_misleads : ¬∀ ep : Episode, ep.Lasts → ep.Seen := by
  intro h
  have after : ∀ st ∈ misled.after, st.isPlain = true := by decide
  have lasts : misled.Lasts := {
    reachable := Registry.reachable_empty
    vacant := rfl
    accepted := rfl
    keepsBefore := trivial
    keepsMid := by
      refine ⟨fun op hop => ?_, Step.keeps_of_plain rfl _ _, Step.keeps_of_plain rfl _ _, trivial⟩
      cases hop
      show ¬Option.map Wait.token _ = some _
      decide
    keepsAfter := .of_forall fun st h x => Step.keeps_of_plain (after st h) _ x
    unparked := fun st h => by cases h
    stays := fun st h => Step.stays_of_plain (after st h) _ _ }
  have answer : misled.final.results = [(1, .ok .timedOut)] := rfl
  have ends : misled.ends = [.cancelled] := by decide
  obtain ⟨r, he, -⟩ := (h misled lasts).timedOut (answer ▸ List.mem_singleton_self _)
  rw [ends] at he
  cases he

end ApprovalGate
