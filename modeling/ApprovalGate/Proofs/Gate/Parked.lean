import ApprovalGate.Proofs.Gate.Handover
/-!
# Following a wait and its handle

Before a wait is registered nothing is at its addresses (`Vacant`); from then on its ledger and every part that is left
agree with the end it has come to (`Follows`); and a handle that is parked on it is about to be woken as soon as the
wait has ended, has mail of that end, or is done and was answered with it (`Waits`).  Every part of a step that spares
the wait and is not of its handle's going away keeps this.
-/
namespace ApprovalGate

open Registry (Operation Ending Ledger Stands)

/-! ## Following a wait through a run -/

namespace Traffic

/-- A part of a step that takes no record under a token away but by ending its wait. -/
def Keeps (t : Token) (x : Traffic) (st : Step) : Prop :=
  ∀ op, x.op? st = some op → ¬x.gate.registry.Drops t (.call op)

/-- A part of a step that takes up no wait with a token for an alias, and puts neither a wait nor a handle at the alias
of the token's own wait. -/
structure Apart (t : Token) (a? : Option Token) (x : Traffic) (st : Step) : Prop where
  takes : ∀ op, x.op? st = some op → ∀ w, x.gate.registry.taken? (.call op) = some w →
    w.aliasToken ≠ some t ∧ a? ≠ some w.token
  parks : ∀ e u deadline now, st = .begin (.attach e u deadline now) → a? = some u → u = t

structure Spares (x : Traffic) (t : Token) (a? : Option Token) (st : Step) : Prop where
  keeps : Keeps t x st
  apart : Apart t a? x st

/-- Handles that were answered had been given out. -/
def Answered (x : Traffic) : Prop := ∀ k o, (k, o) ∈ x.results → k < x.gate.nextSerial

theorem mem_step_results {x : Traffic} {st : Step} {k : Nat} {o : Outcome WaitOutcome}
    (hm : (k, o) ∈ (x.step st).results) : (k, o) ∈ x.results ∨
      ∃ now h, st = .begin (.read k now) ∧ x.gate.handles.get? k = some h ∧ (x.gate.readMail k h now).1 = some o := by
  cases st with
  | begin m =>
    rcases List.mem_append.1 hm with hm | hm
    · exact .inl hm
    · cases m with
      | read serial now =>
        rw [Gate.answers] at hm
        cases hs : x.gate.handles.get? serial with
        | none =>
          rw [hs] at hm
          cases hm
        | some h =>
          rw [hs] at hm
          obtain ⟨o', ho, heq⟩ := Option.map_eq_some_iff.1 (Option.mem_toList.1 hm)
          cases heq
          exact .inr ⟨now, h, rfl, hs, ho⟩
      | _ => cases hm
  | resume half =>
    rw [step] at hm
    split at hm <;> exact .inl hm

theorem Answered.step {x : Traffic} (a : x.Answered) (f : Fresh x.gate) (st : Step) : (x.step st).Answered := by
  intro k o hm
  refine Nat.lt_of_lt_of_le ?_ (x.step_shift st).nextSerial_le
  rcases mem_step_results hm with hm | ⟨-, h, -, hk, -⟩
  · exact a k o hm
  · exact f.handles k h hk

end Traffic

/-- Where a wait is yet to be registered. -/
structure Vacant (x : Traffic) (t : Token) (a? : Option Token) : Prop where
  sound : x.gate.registry.Sound
  off : Off x t
  first : x.gate.registry.aliases.get? t = none
  aside : ∀ a, a? = some a → a ≠ t → Off x a
  fresh : Fresh x.gate
  answered : x.Answered

/-- Where a wait is registered, and has come to an end or to none. -/
structure Follows (x : Traffic) (t : Token) (a? : Option Token) (e? : Option Ending) : Prop where
  ledger : Ledger t a? x.gate.registry e?
  fits : ∀ half ∈ x.halves, half.token = t → half.Fits e?
  aside : ∀ a, a? = some a → a ≠ t → Off x a
  fresh : Fresh x.gate
  answered : x.Answered

theorem Traffic.Spares.op {x : Traffic} {t : Token} {a? : Option Token} {st : Step} (sp : x.Spares t a? st)
    (op : Operation) (h : x.op? st = some op) : x.gate.registry.Spares t a? op :=
  ⟨sp.keeps op h, sp.apart.takes op h⟩

theorem Traffic.Spares.aside {x : Traffic} {t : Token} {a? : Option Token} {st : Step} (sp : x.Spares t a? st)
    (s : x.gate.registry.Sound) (h : ∀ a, a? = some a → a ≠ t → Off x a) :
    ∀ a, a? = some a → a ≠ t → Off (x.step st) a := by
  intro a ha hat
  refine (h a ha hat).step s (fun op hop w hw hwa => ((sp.op op hop).apart w hw).2 ?_) fun e deadline now hst => ?_
  · rw [ha, hwa]
  · exact hat (sp.apart.parks e a deadline now hst ha)

theorem Vacant.step {x : Traffic} {t : Token} {a? : Option Token} (v : Vacant x t a?) {st : Step}
    (sp : x.Spares t a? st) (ha : ∀ e deadline now, st ≠ .begin (.attach e t deadline now)) :
    Vacant (x.step st) t a? := by
  refine ⟨?_, v.off.step v.sound (fun op hop w hw => (sp.op op hop).token_ne hw) ha, ?_, sp.aside v.sound v.aside,
    (x.step_shift st).fresh v.fresh, v.answered.step v.fresh st⟩
  · rw [x.step_registry]
    exact v.sound.after _
  · rw [x.step_registry]
    cases hop : x.op? st with
    | none => exact v.first
    | some op =>
      cases ht : (x.gate.registry.perform op).aliases.get? t with
      | none => exact ht
      | some u =>
        rcases (Registry.perform_effect x.gate.registry op).aliases_or v.sound.toDistinct ht with h | ⟨w, hw, -, hwa, -⟩
        · cases v.first.symm.trans h
        · exact absurd hwa ((sp.op op hop).apart w hw).1

theorem Vacant.run {x : Traffic} {t : Token} {a? : Option Token} (v : Vacant x t a?) {steps : List Step}
    (ok : x.Along (fun x st => x.Spares t a? st ∧ ∀ e deadline now, st ≠ .begin (.attach e t deadline now)) steps) :
    Vacant (x.run steps) t a? := by
  induction steps generalizing x with
  | nil => exact v
  | cons st steps ih => exact ih (v.step ok.1.1 ok.1.2) ok.2

/-- The parts that are left after a part of a step: those that were, and new ones that tell of the wait what is so. -/
theorem Follows.tells {x : Traffic} {t : Token} {a? : Option Token} {e? : Option Ending} (f : Follows x t a? e?)
    (st : Step) : ∃ left, Tells t e? (x.ending? t st) left ∧ (∀ half ∈ left, half ∈ (x.step st).halves) ∧
      ∀ half ∈ (x.step st).halves, half ∈ x.halves ∨ half ∈ left := by
  cases st with
  | begin m =>
    refine ⟨_, Gate.onset_tells f.ledger (fun k h hk ha => ?_) m, fun half h => List.mem_append_right _ h,
      fun half h => List.mem_append.1 h⟩
    exact Classical.byContradiction fun hne => (f.aside _ ha hne).handles k h hk rfl
  | resume half =>
    rw [Traffic.ending?, Traffic.op?, Traffic.step]
    by_cases hm : half ∈ x.halves
    · rw [if_pos hm, if_pos hm]
      refine ⟨_, Gate.sequel_tells f.ledger (f.fits half hm) fun ha => ?_, fun half h => List.mem_append_right _ h,
        fun half h => (List.mem_append.1 h).imp_left List.mem_of_mem_erase⟩
      exact Classical.byContradiction fun hne => (f.aside _ ha hne).halves half hm rfl
    · rw [if_neg hm, if_neg hm]
      exact ⟨[], tells_nil t e?, fun half h => (by cases h), fun half h => .inl h⟩

theorem Follows.step {x : Traffic} {t : Token} {a? : Option Token} {e? : Option Ending} (f : Follows x t a? e?)
    {st : Step} (sp : x.Spares t a? st) : Follows (x.step st) t a? (e?.or (x.ending? t st)) := by
  refine ⟨?_, fun half hm ht => ?_, sp.aside f.ledger.sound f.aside, (x.step_shift st).fresh f.fresh,
    f.answered.step f.fresh st⟩
  · rw [x.step_registry, Traffic.ending?]
    cases hop : x.op? st with
    | none =>
      show Ledger t a? x.gate.registry (e?.or none)
      rw [Option.or_none]
      exact f.ledger
    | some op => exact f.ledger.perform (sp.op op hop)
  · obtain ⟨left, tl, -, hor⟩ := f.tells st
    rcases hor half hm with hm | hm
    · exact (f.fits half hm ht).or _
    · exact tl.fits half hm ht

theorem Follows.ended {x : Traffic} {t : Token} {a? : Option Token} {e? : Option Ending} (f : Follows x t a? e?)
    (st : Step) (he : e?.isSome = true) : x.ending? t st = none := by
  obtain ⟨e, rfl⟩ := Option.isSome_iff_exists.1 he
  rw [Traffic.ending?]
  cases x.op? st with
  | none => rfl
  | some op => exact f.ledger.ended op

theorem Follows.run {x : Traffic} {t : Token} {a? : Option Token} {e? : Option Ending} (f : Follows x t a? e?)
    {steps : List Step} (ok : x.Along (fun x st => x.Spares t a? st) steps) :
    ∃ e'?, Follows (x.run steps) t a? e'? ∧ e'?.toList = e?.toList ++ x.endings t steps :=
  ok.run (P := fun x e? => Follows x t a? e?) (fun f sp => ⟨f.step sp, f.ended _⟩) f

theorem Vacant.register {x : Traffic} {w : Wait} (v : Vacant x w.token w.aliasToken)
    (hr : (x.gate.registry.register w).1.isOk = true) :
    Follows (x.step (.begin (.register w))) w.token w.aliasToken none := by
  have taken : ∀ op, x.op? (.begin (.register w)) = some op → ∀ v, x.gate.registry.taken? (.call op) = some v →
      v = w := fun op hop v hv => by
    cases hop
    rw [Registry.taken?, if_pos hr] at hv
    exact (Option.some.inj hv).symm
  have aside : ∀ a, w.aliasToken = some a → a ≠ w.token → Off (x.step (.begin (.register w))) a := fun a ha hat => by
    refine (v.aside a ha hat).step v.sound (fun op hop u hu hua => hat ?_) fun e deadline now h => by cases h
    rw [← hua, taken op hop u hu]
  rcases hreg : x.gate.registry.register w with ⟨result, h⟩
  rw [hreg] at hr
  rcases result with f | sup
  · cases hr
  · refine ⟨?_, fun half hm ht => ?_, aside, (x.step_shift _).fresh v.fresh, v.answered.step v.fresh _⟩
    · rw [x.step_registry]
      show Ledger _ _ (x.gate.registry.register w).2 none
      rw [hreg]
      exact Registry.ledger_of_register v.sound hreg v.off.record v.first fun a ha hat => (v.aside a ha hat).record
    · rcases List.mem_append.1 hm with hm | hm
      · exact absurd ht (v.off.halves half hm)
      · rw [Gate.onset, hreg] at hm
        cases sup with
        | none => cases hm
        | some p =>
          cases List.mem_singleton.1 hm
          exact absurd ht ((Registry.registers_of_ok v.sound.toDistinct hreg).superseded p.1 p.2 rfl).1

/-! ## The handle -/

/-- What a handle answers of the end of its wait. -/
inductive Reports (e : ExecutionId) : Ending → Outcome WaitOutcome → Prop where
  | resolved {d : Decision} {o : WaitOutcome} : WaitOutcome.ofDecision? d = some o → Reports e (.resolved d) (.ok o)
  | expired : Reports e .expired (.ok .timedOut)
  | cancelled (reason : String) : Reports e .cancelled (.error (.cancelled e reason))
  | superseded (reason : String) : Reports e .superseded (.error (.cancelled e reason))

/-- Where a handle is: parked, and if its wait has ended then about to be woken; with mail of that end; or done, and
answered with it. -/
inductive Place (x : Traffic) (t : Token) (e : ExecutionId) (s : Nat) : Option Ending → Prop where
  | parked {e? : Option Ending} : (x.gate.handles.get? s).map Handle.gist = some (e, t, .none) →
      x.gate.waiters.get? t = some ⟨s, e⟩ → (∀ o, (s, o) ∉ x.results) →
      (∀ e', e? = some e' → ∃ half ∈ x.halves, half.token = t ∧ half.isPush = true) → Place x t e s e?
  | mailed {e' : Ending} {sig : Signal} : (x.gate.handles.get? s).map Handle.gist = some (e, t, .signal sig) →
      x.gate.waiters.get? t = none → (∀ o, (s, o) ∉ x.results) → Says e' sig → Place x t e s (some e')
  | done {e' : Ending} {o : Outcome WaitOutcome} : x.gate.handles.get? s = none → x.gate.waiters.get? t = none →
      (∀ o', (s, o') ∈ x.results ↔ o' = o) → Reports e e' o → Place x t e s (some e')

/-- A handle that is parked on a wait that is followed. -/
structure Waits (x : Traffic) (t : Token) (a? : Option Token) (e : ExecutionId) (s : Nat) (e? : Option Ending) : Prop
    extends Follows x t a? e? where
  given : s < x.gate.nextSerial
  owns : Owns x.gate t s
  place : Place x t e s e?

/-- A part of a step that neither parks on a token nor makes its handle go away. -/
structure Step.Stays (st : Step) (t : Token) (s : Nat) : Prop where
  attach : ∀ e deadline now, st ≠ .begin (.attach e t deadline now)
  leave : st ≠ .begin (.leave s)
  close : st ≠ .begin (.close s)

theorem Handle.of_gist {h? : Option Handle} {e : ExecutionId} {t : Token} {mail : Mail}
    (hg : h?.map Handle.gist = some (e, t, mail)) :
    ∃ h, h? = some h ∧ h.execution = e ∧ h.token = t ∧ h.mail = mail := by
  obtain ⟨h, hh, hg⟩ := Option.map_eq_some_iff.1 hg
  cases hg
  exact ⟨h, hh, rfl, rfl, rfl⟩

theorem Says.reports {e' : Ending} {sig : Signal} (h : Says e' sig) {r? : Option WaitRecord}
    (st : Stands (some e') r?) (g : Gate) (s : Nat) {hd : Handle} (now : Instant) :
    Reports hd.execution e' (g.finish s hd sig now).1 := by
  cases h with
  | resolved d =>
    cases st with
    | resolved _ _ hv =>
      simp only [Gate.finish]
      cases ho : WaitOutcome.ofDecision? d with
      | some o => exact .resolved ho
      | none =>
        rw [WaitOutcome.ofDecision?] at ho
        cases hd : d.verdict <;> rw [hd] at ho hv <;> cases ho
        cases hv
  | expired => exact .expired
  | cancelled reason => exact .cancelled reason
  | superseded reason => exact .superseded reason

theorem read_parked {x : Traffic} {s : Nat} {h : Handle} (hs : x.gate.handles.get? s = some h) (hm : h.mail = .none)
    (now : Instant) : x.step (.begin (.read s now)) = x := by
  have hr : x.gate.readMail s h now = (none, x.gate) := by rw [Gate.readMail, hm]
  rw [Traffic.step, Gate.onset, Gate.answers, hs]
  simp only [hr, Option.map_none, Option.toList_none, List.append_nil]

theorem read_done {x : Traffic} {s : Nat} (hs : x.gate.handles.get? s = none) (now : Instant) :
    x.step (.begin (.read s now)) = x := by
  rw [Traffic.step, Gate.onset, Gate.answers, hs]
  simp only [List.append_nil]

theorem read_mailed {x : Traffic} {s : Nat} {h : Handle} {sig : Signal} (hs : x.gate.handles.get? s = some h)
    (hm : h.mail = .signal sig) (now : Instant) :
    (x.step (.begin (.read s now))).gate.handles.get? s = none ∧
    (x.step (.begin (.read s now))).gate.waiters = x.gate.waiters ∧
    (x.step (.begin (.read s now))).results = x.results ++ [(s, (x.gate.finish s h sig now).1)] := by
  have hr : x.gate.readMail s h now = (some (x.gate.finish s h sig now).1, (x.gate.finish s h sig now).2) := by
    rw [Gate.readMail, hm]
  have hg : (x.gate.finish s h sig now).2.handles = x.gate.handles.erase s ∧
      (x.gate.finish s h sig now).2.waiters = x.gate.waiters := by
    cases sig with
    | decision d =>
      simp only [Gate.finish]
      cases WaitOutcome.ofDecision? d <;> exact ⟨rfl, rfl⟩
    | expired => exact ⟨rfl, rfl⟩
    | cancelled reason => exact ⟨rfl, rfl⟩
  rw [Traffic.step, Gate.onset, Gate.answers, hs]
  simp only [hr, Option.map_some, Option.toList_some, and_true]
  refine ⟨?_, hg.2⟩
  rw [hg.1, Table.get?_erase, if_pos rfl]

theorem Traffic.ending?_read (x : Traffic) (t : Token) (s : Nat) (now : Instant) :
    x.ending? t (.begin (.read s now)) = none := by
  rw [ending?, op?, Gate.op?]
  cases x.gate.handles.get? s with
  | none => rfl
  | some h =>
    simp only [Option.bind_some]
    split
    · rename_i d _
      cases WaitOutcome.ofDecision? d <;> rfl
    · rfl

theorem Traffic.ending?_wake (x : Traffic) (t u : Token) (sig : Signal) :
    x.ending? t (.resume (.wake u sig)) = none := by
  rw [ending?, op?]
  split <;> rfl

/-- A continuation that is woken, by whomever, gets the end of its wait for mail. -/
theorem Waits.wake {x : Traffic} {t : Token} {a? : Option Token} {e : ExecutionId} {s : Nat} {e? : Option Ending}
    (w : Waits x t a? e s e?) (sig : Signal) : Place (x.step (.resume (.wake t sig))) t e s e? := by
  rw [Traffic.step]
  split
  · rename_i hm
    obtain ⟨e', rfl, hsay⟩ := w.fits _ hm rfl
    have gone : x.gate.waiters.get? t = none → (x.gate.sequel (.wake t sig)).1 = x.gate := fun hn => by
      rw [Gate.sequel, Gate.signal, hn]
    cases w.place with
    | parked hh hw hr _ =>
      refine .mailed ?_ ?_ hr hsay
      · show ((x.gate.signal t sig).2.handles.get? s).map Handle.gist = _
        rw [Gate.signal_handles, hw, Option.map_some, if_pos rfl]
        obtain ⟨h, hs, rfl, rfl, -⟩ := Handle.of_gist hh
        rw [hs]
        rfl
      · show (x.gate.signal t sig).2.waiters.get? t = none
        rw [Gate.signal_waiters, if_pos rfl]
    | mailed hh hw hr hs =>
      rw [gone hw]
      exact .mailed hh hw hr hs
    | done hh hw hr ho =>
      rw [gone hw]
      exact .done hh hw hr ho
  · exact w.place

/-- A handle that reads its mail answers the end of its wait. -/
theorem Waits.read {x : Traffic} {t : Token} {a? : Option Token} {e : ExecutionId} {s : Nat} {e? : Option Ending}
    (w : Waits x t a? e s e?) (now : Instant) : Place (x.step (.begin (.read s now))) t e s e? := by
  cases w.place with
  | parked hh hw hr hp =>
    obtain ⟨h, hs, -, -, hm⟩ := Handle.of_gist hh
    rw [read_parked hs hm]
    exact w.place
  | mailed hh hw hr hsay =>
    obtain ⟨h, hs, rfl, -, hm⟩ := Handle.of_gist hh
    obtain ⟨hh', hw', hr'⟩ := read_mailed hs hm now
    refine .done hh' (by rw [hw', hw]) (fun o => ?_) (hsay.reports w.ledger.stands x.gate s now)
    rw [hr', List.mem_append, List.mem_singleton]
    constructor
    · rintro (hm | hm)
      · exact absurd hm (hr o)
      · exact congrArg Prod.snd hm
    · rintro rfl
      exact .inr rfl
  | done hh hw hr ho =>
    rw [read_done hh]
    exact w.place

/-- A part that is to wake a continuation goes on to be left, or leaves another one, until it does. -/
theorem Follows.push {x : Traffic} {t : Token} {a? : Option Token} {e' : Ending} (f : Follows x t a? (some e'))
    {st : Step} (hw : ∀ sig, st ≠ .resume (.wake t sig))
    (hp : ∃ half ∈ x.halves, half.token = t ∧ half.isPush = true) :
    ∃ half ∈ (x.step st).halves, half.token = t ∧ half.isPush = true := by
  obtain ⟨half, hm, ht, hpush⟩ := hp
  cases st with
  | begin m => exact ⟨half, List.mem_append_left _ hm, ht, hpush⟩
  | resume half' =>
    rw [Traffic.step]
    split
    · by_cases heq : half = half'
      · subst heq
        obtain ⟨next, hn, hnt, hnp⟩ := Gate.sequel_pushes f.ledger (f.fits half hm ht) ht hpush fun sig h =>
          hw sig (by rw [h])
        exact ⟨next, List.mem_append_right _ hn, hnt, hnp⟩
      · exact ⟨half, List.mem_append_left _ ((List.mem_erase_of_ne heq).2 hm), ht, hpush⟩
    · exact ⟨half, hm, ht, hpush⟩

/-- Whatever passes a handle by leaves it where it is. -/
theorem Waits.passed {x : Traffic} {t : Token} {a? : Option Token} {e : ExecutionId} {s : Nat} {e? : Option Ending}
    (w : Waits x t a? e s e?) {st : Step} (p : st.Passes t s) :
    Place (x.step st) t e s (e?.or (x.ending? t st)) := by
  obtain ⟨hwaiter, hhandle⟩ := (x.step_shift st).untouched w.owns w.given p
  have hres : ∀ o, (s, o) ∈ (x.step st).results ↔ (s, o) ∈ x.results := fun o => by
    constructor
    · intro hm
      rcases Traffic.mem_step_results hm with hm | ⟨now, h, hst, -⟩
      · exact hm
      · exact absurd (hst ▸ .read s now) p.closes
    · intro hm
      cases st with
      | begin m => exact List.mem_append_left _ hm
      | resume half =>
        rw [Traffic.step]
        split <;> exact hm
  cases w.place with
  | parked hh hw hr hp =>
    refine .parked (hhandle.trans hh) (hwaiter.trans hw) (fun o ho => hr o ((hres o).1 ho)) fun e' he' => ?_
    cases e? with
    | none =>
      -- the part that ends the wait leaves one that is to wake its continuation
      obtain ⟨left, tl, hin, -⟩ := w.tells st
      obtain ⟨half, hm, h⟩ := tl.pushes e' he'
      exact ⟨half, hin half hm, h⟩
    | some e'' => exact w.push p.wake (hp e'' rfl)
  | mailed hh hw hr hs => exact .mailed (hhandle.trans hh) (hwaiter.trans hw) (fun o ho => hr o ((hres o).1 ho)) hs
  | done hh hw hr ho =>
    refine .done ?_ (hwaiter.trans hw) (fun o => (hres o).trans (hr o)) ho
    rw [hh] at hhandle
    exact Option.map_eq_none_iff.1 hhandle

theorem Waits.step {x : Traffic} {t : Token} {a? : Option Token} {e : ExecutionId} {s : Nat} {e? : Option Ending}
    (w : Waits x t a? e s e?) {st : Step} (sp : x.Spares t a? st) (h : st.Stays t s) :
    Waits (x.step st) t a? e s (e?.or (x.ending? t st)) := by
  refine ⟨w.toFollows.step sp, Nat.lt_of_lt_of_le w.given (x.step_shift st).nextSerial_le,
    (x.step_shift st).owns w.owns w.given h.attach, ?_⟩
  by_cases hwake : ∃ sig, st = .resume (.wake t sig)
  · obtain ⟨sig, rfl⟩ := hwake
    rw [x.ending?_wake, Option.or_none]
    exact w.wake sig
  · by_cases hread : ∃ now, st = .begin (.read s now)
    · obtain ⟨now, rfl⟩ := hread
      rw [x.ending?_read, Option.or_none]
      exact w.read now
    · refine w.passed ⟨h.attach, fun sig hst => hwake ⟨sig, hst⟩, h.leave, fun hc => ?_⟩
      cases hc with
      | read _ now => exact hread ⟨now, rfl⟩
      | close _ => exact h.close rfl

theorem Waits.run {x : Traffic} {t : Token} {a? : Option Token} {e : ExecutionId} {s : Nat} {e? : Option Ending}
    (w : Waits x t a? e s e?) {steps : List Step} (ok : x.Along (fun x st => x.Spares t a? st ∧ st.Stays t s) steps) :
    ∃ e'?, Waits (x.run steps) t a? e s e'? ∧ e'?.toList = e?.toList ++ x.endings t steps :=
  ok.run (P := fun x e? => Waits x t a? e s e?) (fun w h => ⟨w.step h.1 h.2, w.ended _⟩) w

theorem Follows.attach {x : Traffic} {t : Token} {a? : Option Token} {e? : Option Ending} (f : Follows x t a? e?)
    (e : ExecutionId) (deadline : Option Nat) (now : Instant) :
    Waits (x.step (.begin (.attach e t deadline now))) t a? e x.gate.nextSerial e? := by
  have sp : x.Spares t a? (.begin (.attach e t deadline now)) :=
    ⟨fun op h => (by cases h), fun op h => (by cases h), fun e' u deadline' now' h _ => by (cases h; rfl)⟩
  have f' := f.step sp
  rw [show x.ending? t (.begin (.attach e t deadline now)) = none from rfl, Option.or_none] at f'
  refine ⟨f', Nat.lt_succ_self _, fun u w hw => ?_, .parked ?_ ?_ (fun o ho => ?_) fun e' _ => ?_⟩
  · have hw : (x.gate.park e t deadline now).waiters.get? u = some w := hw
    rw [Gate.park_waiters] at hw
    split at hw
    · rename_i htu
      cases hw
      exact ⟨fun _ => htu.symm, fun _ => rfl⟩
    · rename_i htu
      have := f.fresh.waiters u w hw
      exact ⟨fun h => absurd h (Nat.ne_of_lt this), fun h => absurd h.symm htu⟩
  · show ((x.gate.park e t deadline now).handles.get? x.gate.nextSerial).map Handle.gist = _
    rw [Gate.park_handles, if_pos rfl]
    rfl
  · show (x.gate.park e t deadline now).waiters.get? t = _
    rw [Gate.park_waiters, if_pos rfl]
  · rcases Traffic.mem_step_results ho with ho | ⟨now', h, hst, -⟩
    · exact absurd (f.answered _ o ho) (Nat.lt_irrefl _)
    · cases hst
  · exact ⟨.look t, List.mem_append_right _ (List.mem_singleton_self _), rfl, rfl⟩

end ApprovalGate
