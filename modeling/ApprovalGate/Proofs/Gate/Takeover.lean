import ApprovalGate.Proofs.Gate.Cancelled
import ApprovalGate.Proofs.Gate.Reattach
import ApprovalGate.Proofs.Gate.Reopened
import ApprovalGate.Proofs.Registry.Jobs
import ApprovalGate.Proofs.Submission.Accepted
/-!
# Taking a job over

A run whose submission is accepted takes its job over: its execution is parked on the new wait, and the job's wait
before is over (`Gate.TakesOver`).  An execution whose wait is over is aborted, and one that is aborted is taken for
one that was cancelled while its request was out.  So a run that takes the job over from a wait of its own execution
gives up the wait that was just accepted (`own_wait_taken_for_cancellation`), and so does one whose execution lost
another wait meanwhile.  The job is taken over exactly when nothing of that kind is in the way (`Gate.Clear`,
`job_taken_over_iff`).
-/
namespace ApprovalGate

/-! ## The submission is accepted -/

namespace Registry

theorem register_ok {g : Registry} {w : Wait} (hv : ∀ r, g.records.get? w.token = some r → r.isPending = false)
    (hput : (g.store.put (fresh w)).1 = .ok ()) : ∃ s h, g.register w = (.ok s, h) := by
  rcases register_cases g w with ⟨r, hr, hp, -⟩ | ⟨f, store, hput', -⟩ | ⟨store, -, -, heq⟩
  · rw [hv r hr] at hp
    cases hp
  · rw [hput'] at hput
    cases hput
  · exact ⟨_, _, heq⟩

end Registry

/-- An accepted answer registers the wait, if nothing pending and no store is in the way. -/
theorem Issuer.complete_accepted {g : Registry} (distinct : g.Distinct) {d : Draft} {reply : Reply} {body : Json}
    (accepted : Issuer.accepted d reply = .ok body) {e : ExecutionId} {now : Instant}
    (vacant : ∀ q, g.records.get? (address d reply).1 = some q → q.isPending = false)
    (stored : (g.store.put (Registry.fresh (waitFor d reply e now))).1 = .ok ()) :
    ∃ s h, complete g d e now (.ok reply) = (.ok s, h) ∧ s.token = (waitFor d reply e now).token ∧
      Registry.Registers g (waitFor d reply e now) s.superseded h := by
  obtain ⟨ht, -, -, -⟩ := waitFor_fields d reply e now
  obtain ⟨sup, h, hr⟩ := Registry.register_ok (ht ▸ vacant) stored
  refine ⟨{ token := (waitFor d reply e now).token, callbackUrl := d.callbackUrl, timeout := d.timeout
            response := body, superseded := sup }, h, ?_, rfl, Registry.registers_of_ok distinct hr⟩
  simp only [complete, accepted, hr]

namespace Gate

theorem beginRun_ok {g g' : Gate} {e : ExecutionId} {r : ChangeRequest} {random : Uuid} {now : Instant} {d : Draft}
    (h : g.beginRun e r random now = (.ok d, g')) :
    d.request = r ∧ g' = { g with executions := g.executions.insert e (.start e (some r.job) now) } := by
  rcases Course.beginRun_cases g e r random now with ⟨f, heq⟩ | ⟨f, heq⟩ | ⟨i, d', hd, heq⟩
  · cases heq.symm.trans h
  · cases heq.symm.trans h
  · cases heq.symm.trans h
    exact ⟨(Issuer.draft_ok hd).1, rfl⟩

/-! ## Taking over -/

/-- What it is for a run of an execution to take a job over, from one gate to the next, with its wait under a token. -/
structure TakesOver (g : Gate) (e : ExecutionId) (job : JobId) (t : Token) (result : Outcome Nat) (g' : Gate) :
    Prop where
  /-- The answer is a handle that nothing has come to, and it is the one that is parked on the token. -/
  handle : ∃ s deadline, result = .ok s ∧ g'.handles.get? s = some ⟨e, t, deadline, .none⟩ ∧
    g'.waiters.get? t = some ⟨s, e⟩
  wait : ∃ q, g'.registry.records.get? t = some q ∧ q.isPending = true ∧ q.wait.execution = e ∧
    q.wait.job = some job
  current : g'.registry.jobToken? job = some t
  waiting : g'.state? e = some .waiting
  /-- Every wait of the job that was pending is gone, and so is the one that the job led to; what was parked there is
  woken as cancelled. -/
  ended : ∀ p q, g.registry.records.get? p = some q → q.isPending = true →
    q.wait.job = some job ∨ g.registry.jobToken? job = some p →
    g'.registry.records.get? p = none ∧ g'.waiters.get? p = none ∧
      ∀ w h, g.waiters.get? p = some w → g.handles.get? w.serial = some h →
        g'.handles.get? w.serial = some { h with mail := .signal (.cancelled supersession) } ∧
        ∀ clock first, (g'.poll w.serial clock first).1 = some (.error (.cancelled h.execution supersession))

/-- What has to be so when the answer to a run comes in, for the job to be taken over. -/
structure Clear (g : Gate) (e : ExecutionId) (job : JobId) : Prop where
  /-- The execution has not ended since the run began. -/
  running : ∀ s, g.state? e = some s → s.isTerminal = false
  /-- The pending wait that the job leads to is not its own. -/
  other : ∀ p q, g.registry.jobToken? job = some p → g.registry.records.get? p = some q → q.isPending = true →
    q.wait.execution ≠ e
  /-- The job leads to whatever pending wait it has. -/
  single : ∀ p q, g.registry.records.get? p = some q → q.isPending = true → q.wait.job = some job →
    g.registry.jobToken? job = some p

section

variable {g : Gate} {e : ExecutionId} {d : Draft} {reply : Reply} {clock : Clock} {s : Submission} {h : Registry}

/-- The gate once the answer is registered and the job's wait before is over. -/
abbrev registered (g : Gate) (s : Submission) (h : Registry) (now : Instant) : Gate :=
  supersede { g with registry := h } s.superseded now

theorem finishRun_accepted (hc : Issuer.complete g.registry d e clock.now (.ok reply) = (.ok s, h)) :
    (g.registered s h clock.now).state? e = some .aborted ∧
      (g.finishRun e d (.ok reply) clock).1 = .error (.cancelled e "cancelled during submission") ∨
    (g.registered s h clock.now).state? e ≠ some .aborted ∧ g.finishRun e d (.ok reply) clock =
      (.ok (g.registered s h clock.now).nextSerial,
        ((g.registered s h clock.now).park e s.token (s.timeout.map fun timeout => clock.elapsed + timeout.nanos)
          clock.now).settle s.token) := by
  unfold finishRun
  rw [hc]
  dsimp only
  by_cases hs : (g.registered s h clock.now).state? e = some .aborted
  · exact .inl ⟨hs, by rw [if_pos hs]⟩
  · exact .inr ⟨hs, by rw [if_neg hs]; rfl⟩

end

section

variable {g : Gate} {e : ExecutionId} {job : JobId} {t p : Token} {q : WaitRecord} {w : Wait} {sup : Superseded}
  {h : Registry} {deadline : Option Nat} {now : Instant}

/-- Which wait a registration puts an end to. -/
theorem superseded_iff (rg : Registry.Registers g.registry w sup h) (hj : w.job = some job)
    (hq : g.registry.records.get? p = some q) (hp : q.isPending = true) :
    sup = some (p, q.wait.execution) ↔ g.registry.jobToken? job = some p := by
  constructor
  · intro hs
    obtain ⟨-, -, job', -, -, -, hj', hcur⟩ := rg.superseded _ _ hs
    cases hj.symm.trans hj'
    exact hcur
  · intro hcur
    refine rg.current job p q hj hcur ?_ hq hp
    rintro rfl
    rw [rg.vacant q hq] at hp
    cases hp

/-- The new wait is pending, so what is parked on it stays parked. -/
theorem park_settled {g : Gate} (hr : g.registry.records.get? t = some q) (hp : q.isPending = true) :
    (g.park e t deadline now).settle t = g.park e t deadline now := by
  have find : (g.park e t deadline now).registry.get? t = some q := by
    rw [park_registry, Registry.get?, Registry.find?_eq_some.2 ⟨hr, .inl rfl⟩, Option.map_some]
  exact settle_pending find hp

/-- What was parked where a registration put an end to a wait is woken, and the handle that is parked on the new wait is
another one. -/
theorem supersede_wakes (o : g.Orderly) (h : Registry) (e : ExecutionId) (deadline : Option Nat) (now : Instant)
    (hs : sup.map Prod.fst = some p) (hne : p ≠ t) :
    let g' := (supersede { g with registry := h } sup now).park e t deadline now
    g'.waiters.get? p = none ∧ ∀ v hd, g.waiters.get? p = some v → g.handles.get? v.serial = some hd →
      g'.handles.get? v.serial = some { hd with mail := .signal (.cancelled supersession) } ∧
        ∀ u v', g'.waiters.get? u = some v' → v'.serial ≠ v.serial := by
  intro g'
  refine ⟨?_, fun v hd hv hhd => ?_⟩
  · rw [park_waiters, if_neg hne.symm, supersede_waiters, if_pos hs]
  · have given : v.serial < g.nextSerial := o.fresh.waiters p v hv
    have alone {u : Token} {v' : Waiter}
        (hv' : (supersede { g with registry := h } sup now).waiters.get? u = some v') : v'.serial ≠ v.serial := by
      intro hsv
      rw [supersede_waiters] at hv'
      split at hv'
      · cases hv'
      · rename_i hn
        exact hn ((o.sole p v hv u v' hv').1 hsv ▸ hs)
    constructor
    · rw [park_handles, supersede_nextSerial, if_neg (Nat.ne_of_gt given), if_neg]
      · refine (supersede_handles { g with registry := h } sup now hv o.sole).trans ?_
        rw [if_pos hs]
        exact congrArg (Option.map _) hhd
      · intro hm
        obtain ⟨v', hv', hsv⟩ := Option.map_eq_some_iff.1 hm
        exact alone hv' hsv
    · intro u v' hv'
      rw [park_waiters, supersede_nextSerial] at hv'
      split at hv'
      · cases hv'
        exact Nat.ne_of_gt given
      · exact alone hv'

theorem park_waiting (hr : ∀ s, g.state? e = some s → s.isTerminal = false) :
    (g.park e t deadline now).state? e = some .waiting := by
  rw [park_state?, if_pos rfl, moved_of_running hr]

/-- **When nothing is in the way the job is taken over.** -/
theorem takesOver_of_clear (o : g.Orderly) (c : g.Clear e job) (rg : Registry.Registers g.registry w sup h)
    (he : w.execution = e) (hj : w.job = some job) (now : Instant) :
    let g0 := supersede { g with registry := h } sup now
    g0.state? e ≠ some .aborted ∧ ∀ deadline,
      g.TakesOver e job w.token (.ok g0.nextSerial) ((g0.park e w.token deadline now).settle w.token) := by
  intro g0
  have own : h.records.get? w.token = some (Registry.fresh w) := (rg.records _).trans (if_pos rfl)
  have reg : g0.registry = h := supersede_registry _ _ _
  -- the execution that is aborted is another one
  have state : g0.state? e = g.state? e := by
    refine (supersede_state? _ _ _ e).trans (if_neg fun hs => ?_)
    obtain ⟨⟨p, owner⟩, hsup, rfl⟩ := Option.map_eq_some_iff.1 hs
    obtain ⟨-, q, job', hq, hp, hqe, hj', hcur⟩ := rg.superseded p _ hsup
    cases hj.symm.trans hj'
    exact c.other p q hcur hq hp hqe
  refine ⟨fun hs => ?_, fun deadline => ?_⟩
  · rw [state] at hs
    cases c.running _ hs
  · rw [park_settled (by rw [reg]; exact own) rfl]
    exact {
      handle := ⟨_, deadline, rfl, by rw [park_handles, if_pos rfl], by rw [park_waiters, if_pos rfl]⟩
      wait := ⟨_, by rw [park_registry, reg]; exact own, rfl, he, hj⟩
      current := by
        rw [park_registry, reg, Registry.jobToken?, rg.jobs, if_pos hj]
      waiting := park_waiting (state ▸ c.running)
      ended := by
        intro p q hq hp hjob
        have hcur : g.registry.jobToken? job = some p := hjob.elim (c.single p q hq hp) id
        have hsup := (superseded_iff rg hj hq hp).2 hcur
        have hs : sup.map Prod.fst = some p := by rw [hsup, Option.map_some]
        have hne : p ≠ w.token := (rg.superseded _ _ hsup).1
        obtain ⟨waiters, woken⟩ := supersede_wakes o h e deadline now hs hne
        refine ⟨?_, waiters, fun v hd hv hhd => ?_⟩
        · rw [park_registry, reg, rg.records, if_neg hne, if_pos hs]
        · obtain ⟨hmail, alone⟩ := woken v hd hv hhd
          exact ⟨hmail, fun clock first => poll_cancelled hmail rfl (alone hd.token) clock first⟩ }

/-- **A job that is taken over was free to be.** -/
theorem clear_of_takesOver (rg : Registry.Registers g.registry w sup h) (hj : w.job = some job)
    (hs : (supersede { g with registry := h } sup now).state? e ≠ some .aborted) {result : Outcome Nat}
    (taken : g.TakesOver e job w.token result
      (((supersede { g with registry := h } sup now).park e w.token deadline now).settle w.token)) :
    g.Clear e job := by
  have own : h.records.get? w.token = some (Registry.fresh w) := (rg.records _).trans (if_pos rfl)
  have reg : (supersede { g with registry := h } sup now).registry = h := supersede_registry _ _ _
  rw [park_settled (by rw [reg]; exact own) rfl] at taken
  rw [supersede_state?] at hs
  -- a terminal state would still be there, and not be waiting
  have running : ∀ s, g.state? e = some s → s.isTerminal = false := by
    intro s hgs
    by_contra ht
    have ht : s.isTerminal = true := by simpa using ht
    have stays : (supersede { g with registry := h } sup now).state? e = some s := by
      rw [supersede_state?]
      split
      · exact congrArg some (moved_of_terminal hgs ht _)
      · exact hgs
    have waiting := taken.waiting
    rw [park_state?, if_pos rfl, moved_of_terminal stays ht] at waiting
    cases waiting
    cases ht
  refine ⟨running, fun p q hcur hq hp hqe => hs ?_, fun p q hq hp hqj => ?_⟩
  · have hsup := (superseded_iff rg hj hq hp).2 hcur
    rw [hsup, Option.map_some, hqe, if_pos rfl]
    exact congrArg some (moved_of_running running .aborted)
  · -- a registration spares what the job does not lead to
    by_contra hcur
    obtain ⟨gone, -⟩ := taken.ended p q hq hp (.inl hqj)
    have hne : p ≠ w.token := by
      rintro rfl
      rw [rg.vacant q hq] at hp
      cases hp
    have stays : h.records.get? p = g.registry.records.get? p := rg.others hne fun job' q' hj' hcur' _ => by
      cases hj.symm.trans hj'
      exact absurd hcur' hcur
    rw [park_registry, reg, stays, hq] at gone
    cases gone

/-- **What is in the way decides whether an accepted answer takes the job over.** -/
theorem finishRun_takesOver_iff (o : g.Orderly) {d : Draft} {reply : Reply} {body : Json} {clock : Clock}
    (accepted : Issuer.accepted d reply = .ok body)
    (vacant : ∀ q, g.registry.records.get? (Issuer.address d reply).1 = some q → q.isPending = false)
    (stored : (g.registry.store.put (Registry.fresh (Issuer.waitFor d reply e clock.now))).1 = .ok ()) :
    g.TakesOver e d.request.job (Issuer.address d reply).1 (g.finishRun e d (.ok reply) clock).1
      (g.finishRun e d (.ok reply) clock).2 ↔ g.Clear e d.request.job := by
  obtain ⟨s, h, hc, hst, rg⟩ := Issuer.complete_accepted o.registry.toDistinct accepted vacant stored
  obtain ⟨ht, -, he, hj⟩ := Issuer.waitFor_fields d reply e clock.now
  have clears (c : g.Clear e d.request.job) := takesOver_of_clear o c rg he hj clock.now
  rw [← ht]
  rcases finishRun_accepted hc with ⟨hs, hresult⟩ | ⟨hs, hfinish⟩
  · constructor
    · intro taken
      obtain ⟨k, -, hk, -⟩ := taken.handle
      cases hresult.symm.trans hk
    · exact fun c => absurd hs (clears c).1
  · rw [hfinish, hst]
    exact ⟨clear_of_takesOver rg hj hs, fun c => (clears c).2 _⟩

end

/-! ## Whole runs -/

/-- Every pending wait stays the one that its job leads to. -/
theorem pendingCurrent_run {x : Traffic} (s : x.gate.registry.Sound) (hc : x.gate.registry.PendingCurrent)
    (steps : List Step) : (x.run steps).gate.registry.PendingCurrent := by
  rw [Traffic.run_registry]
  exact Registry.PendingCurrent.run _ s hc

/-- **A run whose submission is accepted takes its job over exactly when nothing is in the way**: its execution has not
ended meanwhile, the pending wait that the job leads to is not its own, and the job has no pending wait that it does not
lead to.  An execution does not end while nothing else happens, and a job leads to its pending wait if every job did
where the gate was opened. -/
theorem job_taken_over_iff {store : Store} {ttl : Span} {happens : TokenOrder} {registry : Registry}
    (opened : Registry.openStore store ttl happens = (.ok (), registry)) (issuer : Option Issuer) (before : List Step)
    {e : ExecutionId} {r : ChangeRequest} {random : Uuid} {now : Instant} {d : Draft} {g : Gate}
    (begun : ((Traffic.idle (.start registry issuer)).run before).gate.beginRun e r random now = (.ok d, g))
    (between : List Step) {reply : Reply} {body : Json} (accepted : Issuer.accepted d reply = .ok body)
    (clock : Clock) :
    let x := Traffic.run { (Traffic.idle (.start registry issuer)).run before with gate := g } between
    let t := (Issuer.address d reply).1
    (∀ q, x.gate.registry.records.get? t = some q → q.isPending = false) →
    (x.gate.registry.store.put (Registry.fresh (Issuer.waitFor d reply e clock.now))).1 = .ok () →
    (x.gate.TakesOver e r.job t (x.gate.finishRun e d (.ok reply) clock).1
        (x.gate.finishRun e d (.ok reply) clock).2 ↔ x.gate.Clear e r.job) ∧
      (between = [] → ∀ s, x.gate.state? e = some s → s.isTerminal = false) ∧
      (registry.PendingCurrent → ∀ p q, x.gate.registry.records.get? p = some q → q.isPending = true →
        q.wait.job = some r.job → x.gate.registry.jobToken? r.job = some p) := by
  intro x t vacant stored
  obtain ⟨hreq, hg⟩ := beginRun_ok begun
  have sound := Registry.openStore_sound opened
  have o₀ : ((Traffic.idle (.start registry issuer)).run before).gate.Orderly :=
    Orderly.run before (orderly_start sound issuer)
  -- what is noted of executions is nothing that the order of a gate depends on
  have o₁ : g.Orderly := by
    rw [hg]
    exact ⟨o₀.registry, ⟨o₀.fresh.waiters, o₀.fresh.handles⟩, o₀.sole⟩
  have o : x.gate.Orderly := Orderly.run between o₁
  refine ⟨?_, fun hb s hs => ?_, fun hc p q hq hp hqj => ?_⟩
  · have decided := finishRun_takesOver_iff o accepted vacant stored
    rwa [hreq] at decided
  · subst hb
    have hs : g.state? e = some s := hs
    rw [hg, state?_insert, if_pos rfl] at hs
    cases hs
    rfl
  · have current : g.registry.PendingCurrent := by
      rw [hg]
      exact pendingCurrent_run (x := .idle (.start registry issuer)) sound hc before
    have sound₁ : g.registry.Sound := o₁.registry
    exact pendingCurrent_run (x := { (Traffic.idle (.start registry issuer)).run before with gate := g }) sound₁
      current between p q r.job hq hp hqj

/-- A job passes from one execution to another one, and while the request is out a wait for another job is
registered. -/
theorem job_passed_on :
    let i : Issuer := ⟨⟨some ⟨"https://cm.example/changes", .none⟩, []⟩, "http://gate", "ci", none⟩
    let r : ChangeRequest := ⟨"deploy", "7", "roll out", none, none, [], none⟩
    let ours := Token.mint "ci" "deploy" default
    let d : Draft := ⟨r, ⟨"https://cm.example/changes", .none⟩, ours, i.callbackUrl ours, none,
      r.toPayload "ci" (i.callbackUrl ours)⟩
    let reply : Reply := ⟨201, .obj [("status", .str "success")]⟩
    let e : ExecutionId := ⟨⟨List.replicate 32 (Text.nibble 1), List.length_replicate⟩⟩
    let waits (job : String) (t : Token) : Step :=
      .begin (.register { Wait.start t default .epoch with job := some job })
    let before : List Step := [waits "deploy" default, .begin (.attach default default none .epoch)]
    let x₀ := (Traffic.idle (.start .empty (some i))).run before
    let g := (x₀.gate.beginRun e r default .epoch).2
    let x := Traffic.run { x₀ with gate := g } [waits "build" (Token.mint "ci" "build" default)]
    Registry.openStore .memory Registry.defaultTtl .byText = (.ok (), .empty) ∧
      x₀.gate.beginRun e r default .epoch = (.ok d, g) ∧ Issuer.accepted d reply = .ok reply.body ∧
      x.gate.registry.records.get? (Issuer.address d reply).1 = none ∧
      x.gate.registry.jobToken? "deploy" = some default ∧
      x.gate.TakesOver e "deploy" ours (x.gate.finishRun e d (.ok reply) ⟨.epoch, 0⟩).1
        (x.gate.finishRun e d (.ok reply) ⟨.epoch, 0⟩).2 := by
  intro i r ours d reply e waits before x₀ g x
  have begun : x₀.gate.beginRun e r default .epoch = (.ok d, g) := by
    decide +kernel
  have accepted : Issuer.accepted d reply = .ok reply.body := by
    decide +kernel
  have vacant : x.gate.registry.records.get? (Issuer.address d reply).1 = none := by
    decide +kernel
  have stored : (x.gate.registry.store.put (Registry.fresh (Issuer.waitFor d reply e .epoch))).1 = .ok () := by
    decide +kernel
  have current : x.gate.registry.jobToken? "deploy" = some default := by
    decide +kernel
  have owner : (x.gate.registry.records.get? default).map (fun q => q.wait.execution) = some default := by
    decide +kernel
  have state : x.gate.state? e = some .submitting := by
    decide +kernel
  obtain ⟨taken, -, single⟩ := job_taken_over_iff (Registry.openStore_memory .byText) (some i) before begun
    [waits "build" (Token.mint "ci" "build" default)] accepted ⟨.epoch, 0⟩
    (fun q hq => by cases vacant.symm.trans hq) stored
  refine ⟨Registry.openStore_memory .byText, begun, accepted, vacant, current, taken.2 ⟨fun s hs => ?_, ?_, ?_⟩⟩
  · cases state.symm.trans hs
    rfl
  · intro p q hcur hq _
    cases current.symm.trans hcur
    rw [hq] at owner
    have owner : q.wait.execution = default := Option.some.inj owner
    rw [owner]
    decide
  · exact single fun p q job hq => by cases hq

/-- An execution that is parked on the wait for one build runs the same job for the next one.  The submission is
accepted, nothing was cancelled, and the answer is that it was cancelled; the job has no wait any more. -/
theorem own_wait_taken_for_cancellation :
    let i : Issuer := ⟨⟨some ⟨"https://cm.example/changes", .none⟩, []⟩, "http://gate", "ci", none⟩
    let r : ChangeRequest := ⟨"deploy", "7", "roll out", none, none, [], none⟩
    let ours := Token.mint "ci" "deploy" default
    let d : Draft := ⟨r, ⟨"https://cm.example/changes", .none⟩, ours, i.callbackUrl ours, none,
      r.toPayload "ci" (i.callbackUrl ours)⟩
    let reply : Reply := ⟨201, .obj [("status", .str "success")]⟩
    let e : ExecutionId := default
    let before : List Step := [.begin (.register { Wait.start default e .epoch with job := some "deploy" }),
      .begin (.attach e default none .epoch)]
    let x := (Traffic.idle (.start .empty (some i))).run before
    let g := (x.gate.beginRun e r default .epoch).2
    let result := (g.finishRun e d (.ok reply) ⟨.epoch, 0⟩).1
    let g' := (g.finishRun e d (.ok reply) ⟨.epoch, 0⟩).2
    (Registry.openStore .memory Registry.defaultTtl .byText = (.ok (), .empty) ∧
      x.gate.beginRun e r default .epoch = (.ok d, g) ∧ Issuer.accepted d reply = .ok reply.body ∧
      (Issuer.address d reply).1 = ours ∧ g.registry.records.get? ours = none ∧
      (g.registry.store.put (Registry.fresh (Issuer.waitFor d reply e .epoch))).1 = .ok ()) ∧
    ¬g.TakesOver e "deploy" ours result g' ∧ result = .error (.cancelled e "cancelled during submission") ∧
      g'.registry.jobToken? "deploy" = none ∧ g'.state? e = some .aborted := by
  intro i r ours d reply e before x g result g'
  have failed : result = .error (.cancelled e "cancelled during submission") := by
    decide +kernel
  refine ⟨⟨Registry.openStore_memory .byText, by decide +kernel, by decide +kernel, by decide +kernel,
    by decide +kernel, by decide +kernel⟩, fun taken => ?_, failed, by decide +kernel, by decide +kernel⟩
  obtain ⟨s, -, hs, -⟩ := taken.handle
  cases failed.symm.trans hs

end Gate
end ApprovalGate
