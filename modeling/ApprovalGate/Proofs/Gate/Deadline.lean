import ApprovalGate.Proofs.Gate.Handles
import ApprovalGate.Proofs.Gate.Reattach
import ApprovalGate.Proofs.Gate.Receipt
/-!
# Deadlines

When the deadline of a token comes, its wait is over, by the deadline or since before, and whatever is parked there is
told how (`onDeadline_concludes`).  A handle is parked, has mail or is lost, so a poll that finds its deadline there
finds mail too, and is answered (`poll_due`); its timer goes off once at most (`Traffic.rung_le_one`).  Main statement:
`deadline_ends_wait`.
-/
namespace ApprovalGate

namespace Registry

/-- A record that is changed is found where it was found before. -/
theorem get?_save {g : Registry} {x t : Token} {r : WaitRecord} (h : g.find? x = some (t, r)) (r' : WaitRecord) :
    (g.save t r').get? x = some r' := by
  obtain ⟨ht, hx⟩ := find?_eq_some.1 h
  have found : (g.save t r').find? x = some (t, r') := by
    rw [find?_eq_some, save_get?, if_pos rfl]
    refine ⟨rfl, hx.imp_right fun ⟨hn, ha⟩ => ⟨?_, ha⟩⟩
    rw [save_get?, if_neg, hn]
    rintro rfl
    cases ht.symm.trans hn
  rw [get?, found]
  rfl

/-- What there is to tell whoever is parked on a token when its deadline comes. -/
inductive Concludes (g : Registry) (t : Token) : Signal → Prop where
  /-- The deadline ends the wait, or did before. -/
  | expired {r : WaitRecord} : g.get? t = some r → r.status = .pending ∨ r.status = .expired → Concludes g t .expired
  | decided {r : WaitRecord} {d : Decision} : g.get? t = some r → r.status = .resolved → r.decision = some d →
      Concludes g t (.decision d)
  | unregistered : g.get? t = none → Concludes g t (.cancelled "wait is no longer registered")

/-- Whether no pending wait is found under a token. -/
def Over (g : Registry) (t : Token) : Prop := ∀ r, g.get? t = some r → r.isPending = false

variable {g : Registry} {t : Token}

theorem get?_eq_some {r : WaitRecord} (h : g.get? t = some r) :
    ∃ u, g.find? t = some (u, r) ∧ g.records.get? u = some r := by
  obtain ⟨⟨u, r⟩, hf, rfl⟩ := Option.map_eq_some_iff.1 h
  exact ⟨u, hf, find?_records hf⟩

theorem Concludes.isFinal {sig : Signal} (c : g.Concludes t sig) (concluded : g.Forall WaitRecord.Concluded) :
    sig.isFinal = true := by
  cases c with
  | expired => rfl
  | @decided r d hr hs hd =>
    obtain ⟨u, -, hu⟩ := get?_eq_some hr
    obtain ⟨d', hd', hv⟩ := concluded u r hu hs
    cases hd.symm.trans hd'
    exact hv
  | unregistered => rfl

end Registry

namespace Gate

open Registry (get?_eq_some)

/-! ## What is told at a deadline -/

/-- Whoever is parked on a token whose wait is over is told how. -/
theorem settle_concludes {g : Gate} {t : Token} (sound : g.registry.Sound)
    (concluded : g.registry.Forall WaitRecord.Concluded) (ended : g.registry.Over t) :
    ∃ sig registry, g.registry.Concludes t sig ∧ registry.Over t ∧
      g.settle t = (signal { g with registry } t sig).2 := by
  unfold settle
  cases hx : g.registry.get? t with
  | none => exact ⟨_, g.registry, .unregistered hx, ended, rfl⟩
  | some r =>
    obtain ⟨u, hf, hu⟩ := get?_eq_some hx
    simp only
    cases hs : r.status with
    | pending =>
      cases (ended r hx).symm.trans (WaitRecord.isPending_iff.2 hs)
    | resolved =>
      obtain ⟨d, hd, -⟩ := concluded u r hu hs
      rcases g.registry.takeDecision_cases t with ⟨u', r', d', hf', hd', -, taken⟩ | ⟨-, taken⟩
      · cases hf.symm.trans hf'
        cases hd.symm.trans hd'
        refine ⟨_, g.registry.save u { r with delivered := true }, .decided hx hs hd, fun q hq => ?_, ?_⟩
        · rw [Registry.get?_save hf] at hq
          cases hq
          exact ended r hx
        · rw [taken]
          rfl
      · refine ⟨_, g.registry, .decided hx hs hd, ended, ?_⟩
        rw [taken, hd]
        rfl
    | expired => exact ⟨_, g.registry, .expired hx (.inr hs), ended, rfl⟩
    | cancelled => exact absurd hs (sound.live hu)

/-- **A deadline ends the wait and tells whoever is parked there how.** -/
theorem onDeadline_concludes (g : Gate) (sound : g.registry.Sound) (concluded : g.registry.Forall WaitRecord.Concluded)
    (t : Token) (now : Instant) : ∃ sig registry, g.registry.Concludes t sig ∧ registry.Over t ∧
      g.onDeadline t now = (signal { g with registry } t sig).2 := by
  have settled (ended : g.registry.Over t) := settle_concludes sound concluded ended
  unfold onDeadline
  rcases g.registry.expire_cases t now with ⟨u, r, hf, hp, expire⟩ | ⟨u, r, hf, hs, expire⟩ | ⟨hc, expire⟩
  · have hr : g.registry.get? t = some r := by rw [Registry.get?, hf]; rfl
    rw [expire]
    refine ⟨.expired, _, .expired hr (.inl (WaitRecord.isPending_iff.1 hp)), fun q hq => ?_, rfl⟩
    rw [Registry.get?_save hf] at hq
    cases hq
    rfl
  · rw [expire]
    refine settled fun q hq => ?_
    obtain ⟨u', hf', -⟩ := get?_eq_some hq
    cases hf.symm.trans hf'
    rcases hs with hs | hs <;> simp [WaitRecord.isPending, hs]
  · rw [expire]
    refine settled fun q hq => ?_
    obtain ⟨u, hf, -⟩ := get?_eq_some hq
    simp [WaitRecord.isPending, hc u q hf]

/-! ## Polling at the deadline -/

theorem readMail_answers (g : Gate) (s : Nat) {h : Handle} (hm : h.mail ≠ .none) (now : Instant) :
    ∃ result, (g.readMail s h now).1 = some result ∧ (g.readMail s h now).2.handles.get? s = none := by
  unfold readMail
  cases hmail : h.mail with
  | none => exact absurd hmail hm
  | lost => exact ⟨_, rfl, Table.get?_erase_self _ _⟩
  | signal sig => exact ⟨_, rfl, (finish_gone g s h sig now).1⟩

/-- **A handle that is polled when its deadline has come is done**, and if it had no mail before, it answers how the
wait ended. -/
theorem poll_due {g : Gate} (sound : g.registry.Sound) (concluded : g.registry.Forall WaitRecord.Concluded) {s : Nat}
    (a : Attended g s) {h : Handle} (hs : g.handles.get? s = some h) {clock : Clock} (due : h.isDue clock = true)
    (first : Bool) : ∃ result, (g.poll s clock first).1 = some result ∧
      (g.poll s clock first).2.handles.get? s = none ∧
      (h.mail = .none → ∃ sig, g.registry.Concludes h.token sig ∧ result = (g.finish s h sig clock.now).1) := by
  rcases poll_cases hs clock first with ⟨hc, polled⟩ | ⟨-, h', hs', -, -, polled⟩
  · obtain ⟨result, answered, gone⟩ := readMail_answers g s (hc due).1 clock.now
    exact ⟨result, polled ▸ answered, polled ▸ gone, fun hm => absurd hm (hc due).1⟩
  · by_cases hm : h.mail = .none
    · -- its timer goes off, and what its continuation is told then is read at once
      obtain ⟨w, hw, hws⟩ := a h hs hm
      obtain ⟨sig, registry, c, -, deadline⟩ := onDeadline_concludes
        { g with handles := g.handles.insert s { h with deadline := none } } sound concluded h.token clock.now
      rw [ring, deadline, signal_handles, if_pos (by rw [hw, Option.map_some, hws]), Table.get?_insert_self] at hs'
      cases hs'
      rw [polled]
      exact ⟨_, rfl, (finish_gone _ s _ sig clock.now).1, fun _ =>
        ⟨sig, c, finish_answer (c.isFinal concluded) _ g s clock.now rfl⟩⟩
    · -- whatever its timer tells comes on top of the mail that it has
      have told : h'.mail ≠ .none := ring_mail hm hs'
      obtain ⟨result, answered, gone⟩ := readMail_answers (g.ring s h clock.now) s told clock.now
      exact ⟨result, polled ▸ answered, polled ▸ gone, fun h => absurd h hm⟩

/-- Whether the continuation of a handle is parked. -/
def IsParked (g : Gate) (s : Nat) : Prop := ∃ t w, g.waiters.get? t = some w ∧ w.serial = s

/-- A handle is parked, or has mail, or is lost. -/
theorem parked_or_told {g : Gate} (p : Paired g) {s : Nat} (a : Attended g s) {h : Handle}
    (hs : g.handles.get? s = some h) : g.IsParked s ∧ h.mail = .none ∨
      ¬g.IsParked s ∧ (∃ sig, h.mail = .signal sig) ∨ ¬g.IsParked s ∧ h.mail = .lost := by
  have none_of_parked : g.IsParked s → h.mail = .none := fun ⟨t, w, hw, hws⟩ => (p.parked t w h hw (hws ▸ hs)).2
  cases hm : h.mail with
  | none =>
    obtain ⟨w, hw, hws⟩ := a h hs hm
    exact .inl ⟨⟨h.token, w, hw, hws⟩, rfl⟩
  | signal sig =>
    refine .inr (.inl ⟨fun hp => ?_, sig, rfl⟩)
    cases hm.symm.trans (none_of_parked hp)
  | lost =>
    refine .inr (.inr ⟨fun hp => ?_, rfl⟩)
    cases hm.symm.trans (none_of_parked hp)

end Gate

/-! ## Along a run -/

namespace Traffic

/-- Whether a part of a run is the timer of a handle going off, which only one does that is still set. -/
def rings (x : Traffic) (s : Nat) : Step → Bool
  | .begin (.fire k _) => k == s && ((x.gate.handles.get? s).bind Handle.deadline).isSome
  | _ => false

/-- How often the timer of a handle goes off in a run. -/
def rung (x : Traffic) (s : Nat) : List Step → Nat
  | [] => 0
  | st :: steps => (if x.rings s st then 1 else 0) + (x.step st).rung s steps

theorem rings_spent {x : Traffic} {s : Nat} {st : Step} (f : Fresh x.gate) (hr : x.rings s st = true) :
    Spent (x.step st).gate s := by
  unfold rings at hr
  split at hr
  · rename_i k now
    obtain ⟨hk, hd⟩ := Bool.and_eq_true_iff.1 hr
    obtain rfl := beq_iff_eq.1 hk
    obtain ⟨d, hd⟩ := Option.isSome_iff_exists.1 hd
    obtain ⟨h, hs, -⟩ := Option.bind_eq_some_iff.1 hd
    have fired :
        (x.step (.begin (.fire k now))).gate.handles = x.gate.handles.insert k { h with deadline := none } := by
      simp only [step, Gate.onset, hs, Gate.expireFor]
      split <;> rfl
    refine ⟨Nat.lt_of_lt_of_le (f.handles k h hs) (x.step_shift _).nextSerial_le, fun h' hs' => ?_⟩
    rw [fired, Table.get?_insert_self] at hs'
    cases hs'
    rfl
  · cases hr

theorem rung_of_spent {s : Nat} : ∀ (steps : List Step) {x : Traffic}, Spent x.gate s → x.rung s steps = 0
  | [], _, _ => rfl
  | st :: steps, x, sp => by
    have silent : x.rings s st = false := by
      unfold rings
      split
      · cases hs : x.gate.handles.get? s with
        | none => simp
        | some h => simp [sp.off h hs]
      · rfl
    rw [rung, silent, rung_of_spent steps ((x.step_shift st).spent sp)]
    rfl

/-- **A timer goes off once at most.** -/
theorem rung_le_one (s : Nat) : ∀ (steps : List Step) {x : Traffic}, Fresh x.gate → x.rung s steps ≤ 1
  | [], _, _ => Nat.zero_le 1
  | st :: steps, x, f => by
    rw [rung]
    by_cases hr : x.rings s st = true
    · rw [if_pos hr, rung_of_spent steps (rings_spent f hr)]
    · rw [if_neg hr, Nat.zero_add]
      exact rung_le_one s steps ((x.step_shift st).fresh f)

theorem attended_run {s : Nat} : ∀ (steps : List Step) {x : Traffic}, Fresh x.gate → Attended x.gate s →
    Step.begin (.leave s) ∉ steps → Attended (x.run steps).gate s
  | [], _, _, a, _ => a
  | st :: steps, x, f, a, hl => by
    have hst : st ≠ .begin (.leave s) := fun h => hl (h ▸ List.mem_cons_self)
    exact attended_run steps ((x.step_shift st).fresh f) ((x.step_shift st).attended f a hst) fun hm =>
      hl (List.mem_cons_of_mem st hm)

/-- A handle keeps its deadline as long as its timer does not go off. -/
theorem deadline_run {s : Nat} {deadline : Option Nat} : ∀ (steps : List Step) {x : Traffic}, s < x.gate.nextSerial →
    (∀ h, x.gate.handles.get? s = some h → h.deadline = deadline) → (∀ now, Step.begin (.fire s now) ∉ steps) →
      ∀ h, (x.run steps).gate.handles.get? s = some h → h.deadline = deadline
  | [], _, _, hd, _ => hd
  | st :: steps, x, hn, hd, hf => by
    refine deadline_run steps (Nat.lt_of_lt_of_le hn (x.step_shift st).nextSerial_le) (fun h hs => ?_) fun now hm =>
      hf now (List.mem_cons_of_mem _ hm)
    obtain ⟨h', hs', same | ⟨-, now, rfl⟩⟩ := (x.step_shift st).deadline hn hs
    · exact same.trans (hd h' hs')
    · exact absurd List.mem_cons_self (hf now)

end Traffic

/-! ## Every gate -/

namespace Gate

/-- **A deadline always ends the wait.**  Whatever has been done in a gate before, or is half done:

- when the deadline of a token comes, no pending wait is found under it any more and nothing stays parked there, and who
  was is told that the wait expired, what was decided or that there is none;
- a handle that is not being dropped is parked, or has mail, or is lost, and only one of these; when it is polled and
  its deadline has come, it answers and is gone, whether its mail or its timer is looked at first;
- a handle keeps the deadline that it was given until its timer goes off, which it does once at most. -/
theorem deadline_ends_wait {store : Store} {ttl : Span} {happens : TokenOrder} {registry : Registry}
    (opened : Registry.openStore store ttl happens = (.ok (), registry))
    (concluded : ∀ r ∈ store.records.values, r.Concluded) (issuer : Option Issuer) (steps : List Step) :
    let x₀ := Traffic.idle (.start registry issuer)
    let x := x₀.run steps
    let g := x.gate
    (∀ t now, ∃ sig, g.registry.Concludes t sig ∧ (g.onDeadline t now).registry.Over t ∧
      g.Signalled t sig (g.onDeadline t now)) ∧
    (∀ s h, g.handles.get? s = some h → Step.begin (.leave s) ∉ steps →
      (g.IsParked s ∧ h.mail = .none ∨ ¬g.IsParked s ∧ (∃ sig, h.mail = .signal sig) ∨
        ¬g.IsParked s ∧ h.mail = .lost) ∧
      ∀ clock first, h.isDue clock = true → ∃ result, (g.poll s clock first).1 = some result ∧
        (g.poll s clock first).2.handles.get? s = none ∧
        (h.mail = .none → ∃ sig, g.registry.Concludes h.token sig ∧ result = (g.finish s h sig clock.now).1)) ∧
    (∀ s, x₀.rung s steps ≤ 1) ∧
    ∀ e t deadline now steps', (∀ now', Step.begin (.fire g.nextSerial now') ∉ steps') →
      ∀ h, ((x.step (.begin (.attach e t deadline now))).run steps').gate.handles.get? g.nextSerial = some h →
        h.deadline = deadline := by
  intro x₀ x g
  have sound : g.Sound := Reachable.sound ⟨store, ttl, happens, registry, issuer, steps, opened, concluded, rfl⟩
  have orderly : x₀.gate.Orderly := orderly_start (Registry.openStore_sound opened) issuer
  have paired : Paired g := Traffic.paired_run steps ⟨orderly.fresh, fun _ _ _ h => (nomatch h)⟩
  refine ⟨fun t now => ?_, fun s h hs hl => ?_, fun s => Traffic.rung_le_one s steps orderly.fresh,
    fun e t deadline now steps' hf => ?_⟩
  · obtain ⟨sig, registry', c, ended, deadline⟩ := g.onDeadline_concludes sound.registry sound.concluded t now
    refine ⟨sig, c, ?_, deadline ▸ signalled_signal g registry' t sig⟩
    rw [deadline, signal_registry]
    exact ended
  · have attended : Attended g s := Traffic.attended_run steps orderly.fresh (fun _ h => (nomatch h)) hl
    exact ⟨parked_or_told paired attended hs, fun clock first due =>
      poll_due sound.registry sound.concluded attended hs due first⟩
  · refine Traffic.deadline_run steps' (Nat.lt_succ_self g.nextSerial) (fun h hs => ?_) hf
    rw [show (x.step (.begin (.attach e t deadline now))).gate = g.park e t deadline now from rfl, park_handles,
      if_pos rfl] at hs
    cases hs
    rfl

/-- A wait that is parked on a second time: the first handle is lost, the second one times out. -/
theorem unanswered_wait_times_out :
    let t : Token := default
    let parks (deadline : Option Nat) : Step := .begin (.attach default t deadline .epoch)
    let steps : List Step :=
      [.begin (.register (.start t default .epoch)), parks none, .resume (.look t), parks (some 5), .resume (.look t)]
    let g := ((Traffic.idle (.start .empty none)).run steps).gate
    let clock : Clock := ⟨.epoch, 7⟩
    Registry.openStore .memory Registry.defaultTtl .byText = (.ok (), .empty) ∧
      (∀ r ∈ Store.memory.records.values, r.Concluded) ∧
      (g.handles.get? 1).map Handle.mail = some .lost ∧ ¬g.IsParked 1 ∧ g.IsParked 2 ∧
      (g.poll 2 clock).1 = some (.ok .timedOut) ∧ (g.poll 2 clock).2.handles.get? 2 = none ∧
      (g.onDeadline t clock.now).registry.Over t := by
  intro t parks steps g clock
  have concluded : ∀ r ∈ Store.memory.records.values, r.Concluded := fun _ hr => absurd hr List.not_mem_nil
  obtain ⟨deadline, handles, -, -⟩ := deadline_ends_wait (Registry.openStore_memory .byText) concluded none steps
  -- with the gate under its name nothing has to be evaluated to see that both polls are the same
  change ∀ s h, g.handles.get? s = some h → _ → _ ∧ ∀ clock first, h.isDue clock = true → ∃ result,
    (g.poll s clock first).1 = some result ∧ (g.poll s clock first).2.handles.get? s = none ∧ _ at handles
  have lost : g.handles.get? 1 = some ⟨default, t, none, .lost⟩ := by decide +kernel
  have waits : g.handles.get? 2 = some ⟨default, t, some 5, .none⟩ := by decide +kernel
  have pending : g.registry.get? t = some (.ofWait (.start t default .epoch)) := by decide +kernel
  obtain ⟨one, -⟩ := handles 1 _ lost (by simp [steps, parks])
  obtain ⟨two, due⟩ := handles 2 _ waits (by simp [steps, parks])
  obtain ⟨result, answered, gone, told⟩ := due clock false rfl
  obtain ⟨sig, c, rfl⟩ := told rfl
  have expired : sig = .expired := by
    cases c with
    | expired => rfl
    | decided hr hs _ =>
      cases pending.symm.trans hr
      cases hs
    | unregistered hn => cases pending.symm.trans hn
  obtain ⟨_, _, ended, -⟩ := deadline t clock.now
  refine ⟨Registry.openStore_memory .byText, concluded, by rw [lost]; rfl, ?_, ?_, ?_, gone, ended⟩
  · rcases one with ⟨-, hm⟩ | ⟨-, sig, hm⟩ | ⟨alone, -⟩
    · cases hm
    · cases hm
    · exact alone
  · rcases two with ⟨parked, -⟩ | ⟨-, sig, hm⟩ | ⟨-, hm⟩
    · exact parked
    · cases hm
    · cases hm
  · rw [answered, expired]
    rfl

end Gate
end ApprovalGate
