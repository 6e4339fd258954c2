import ApprovalGate.Proofs.Gate.Later
import ApprovalGate.Proofs.Gate.Takeover
/-!
# Requested timeouts

A timeout is told as a span, kept as a time of day and waited for on the running clock, and none of these steps loses or
shifts the deadline: the wait is due exactly as long after the submission as was asked for, a run waits until then, and
so does whoever is parked on the wait later, in this process or in one after it (`requested_deadline_stays`).
-/
namespace ApprovalGate
namespace Gate

/-- Whether a handle waits for an execution on a token until a time of day, told in nanoseconds by the clocks, or
without a deadline. -/
def WaitsUntil (g : Gate) (serial : Nat) (e : ExecutionId) (t : Token) (clock : Clock) (due? : Option Int) : Prop :=
  ∃ h, g.handles.get? serial = some h ∧ h.execution = e ∧ h.token = t ∧ h.deadline.map clock.timeAt = due?

/-- **A run whose submission is accepted waits as long from then on as the timeout says**, unless its execution was
cancelled meanwhile. -/
theorem finishRun_waitsUntil {g : Gate} (distinct : g.registry.Distinct) {e : ExecutionId} {d : Draft} {reply : Reply}
    {clock : Clock} {s : Submission} {h : Registry}
    (hc : Issuer.complete g.registry d e clock.now (.ok reply) = (.ok s, h)) :
    (g.finishRun e d (.ok reply) clock).1 = .error (.cancelled e "cancelled during submission") ∨
      ∃ serial g', g.finishRun e d (.ok reply) clock = (.ok serial, g') ∧ g'.registry = h ∧
        g'.WaitsUntil serial e s.token clock (s.timeout.map fun timeout => clock.now.nanos + timeout.nanos) := by
  obtain ⟨hr, htoken, -⟩ := Issuer.complete_ok hc
  have own := (Registry.registers_of_ok distinct hr).records s.token
  rw [if_pos htoken] at own
  have reg : (g.registered s h clock.now).registry = h := supersede_registry _ _ _
  rcases finishRun_accepted hc with ⟨-, hcancelled⟩ | ⟨-, hfinish⟩
  · exact .inl hcancelled
  · rw [park_settled (reg.symm ▸ own) rfl] at hfinish
    refine .inr ⟨_, _, hfinish, (park_registry _ _ _ _ _).trans reg, _, (park_handles _ _ _ _ _ _).trans (if_pos rfl),
      rfl, rfl, ?_⟩
    rw [Option.map_map]
    refine congrArg (fun f => s.timeout.map f) (funext fun timeout => ?_)
    show clock.now.nanos + (((clock.elapsed + timeout.nanos : Nat) : Int) - clock.elapsed) = _
    omega

/-- **Whoever is parked again on a wait waits until it is due**, under either address. -/
theorem reattach_waitsUntil {g : Gate} {x : Token} {r : WaitRecord} (hx : g.registry.get? x = some r) (clock : Clock) :
    ∃ g', g.reattach r.wait.execution x clock = (.ok g.nextSerial, g') ∧
      g'.WaitsUntil g.nextSerial r.wait.execution x clock ((r.wait.dueOn clock).map clock.timeAt) := by
  obtain ⟨executions, hpark⟩ := reattach_eq g r clock
  refine ⟨_, hpark x hx, ?_⟩
  -- whatever it is told at once, it is told in its mail
  have same := settle_keeps (f := fun h => (h.execution, h.token, h.deadline)) (fun _ _ => rfl)
    (Gate.park { g with executions } r.wait.execution x (r.wait.dueOn clock) clock.now) x g.nextSerial
  rw [park_handles, if_pos rfl] at same
  obtain ⟨h, hh, heq⟩ := Option.map_eq_some_iff.1 same
  simp only [Prod.mk.injEq] at heq
  obtain ⟨he, ht, hd⟩ := heq
  exact ⟨h, hh, he, ht, hd ▸ rfl⟩

end Gate

/-- **No requested deadline is lost or shifted**, away from leap seconds and up to the year 262000.  The timeout is the
request's own, or else the issuer's.  The wait for an accepted submission is due that long after it was made, and its
run, if it was not cancelled meanwhile, waits until then.  Later, in the same process or after restarts, the wait is due
when it was, as long as no other one is made under its token, and whoever is parked on it again waits until then, or
until the present if that is later.  Without a timeout there is no deadline anywhere. -/
theorem requested_deadline_stays {store : Store} (made : store.Made) {ttl : Span} {happens : TokenOrder} {g : Registry}
    (opened : Registry.openStore store ttl happens = (.ok (), g)) {issuer : Option Issuer} {x : Traffic}
    (before : (Traffic.idle (.start g issuer)).Later (fun _ _ => True) x) {i : Issuer} {r : ChangeRequest}
    {random : Uuid} {d : Draft} (drafted : i.draft r random = .ok d) {e : ExecutionId} {clock : Clock}
    (regular : clock.now.Regular) (year : (Date.ofDay clock.now.day).year ≤ 262000) {reply : Reply} {s : Submission}
    {h : Registry} (accepted : Issuer.complete x.gate.registry d e clock.now (.ok reply) = (.ok s, h)) :
    let timeout? := r.timeout <|> i.defaultTimeout
    let due? := timeout?.map fun timeout => clock.now.nanos + timeout.nanos
    (∃ q, h.records.get? s.token = some q ∧ q.isPending = true ∧ q.wait.execution = e ∧
      q.wait.DueAfter timeout? clock.now) ∧
    ((x.gate.finishRun e d (.ok reply) clock).1 = .error (.cancelled e "cancelled during submission") ∨
      ∃ serial g', x.gate.finishRun e d (.ok reply) clock = (.ok serial, g') ∧ g'.registry = h ∧
        g'.WaitsUntil serial e s.token clock due?) ∧
    ∀ (y z : Traffic) (a : Token) (q : WaitRecord), y.gate.registry = h → y.Later (Traffic.Undisputed s.token) z →
      z.gate.registry.find? a = some (s.token, q) →
      q.wait.DueAfter timeout? clock.now ∧
      (∀ now : Instant, now.Regular →
        (q.wait.isExpiredAt now = true ↔ ∃ due, due? = some due ∧ due ≤ now.nanos)) ∧
      ∀ clock' : Clock, clock'.now.Regular → ∃ serial g', z.gate.reattach e a clock' = (.ok serial, g') ∧
        g'.WaitsUntil serial e a clock' (due?.map fun due => max due clock'.now.nanos) := by
  intro timeout? due?
  have sound := before.sound made opened
  obtain ⟨-, htimeout, checked⟩ := Issuer.draft_route drafted
  obtain ⟨hr, htoken, hs⟩ := Issuer.complete_ok accepted
  -- what is registered is due as was asked
  have due := Issuer.dueAfter_waitFor regular year checked reply e
  rw [htimeout] at due
  have owner := (Issuer.waitFor_fields d reply e clock.now).2.2.1
  generalize Issuer.waitFor d reply e clock.now = w at hr htoken due owner
  refine ⟨⟨Registry.fresh w, ?_, rfl, owner, due.same (.status w .pending)⟩, ?_, fun y z a q hy l hq => ?_⟩
  · rw [htoken]
    exact ((Registry.registers_of_ok sound.sound.toDistinct hr).records _).trans (if_pos rfl)
  · have waits := Gate.finishRun_waitsUntil sound.sound.toDistinct accepted
    rwa [hs, htimeout] at waits
  · rw [htoken] at l hq
    have same : w.Same q.wait := Traffic.same_later sound hr hy l (Registry.find?_records hq)
    have due' := due.same same
    refine ⟨due', fun now hn => due'.isExpiredAt_iff hn, fun clock' hn => ?_⟩
    have hx : z.gate.registry.get? a = some q := by rw [Registry.get?, hq, Option.map_some]
    obtain ⟨g', hg, waits⟩ := Gate.reattach_waitsUntil hx clock'
    have owner' : q.wait.execution = e := by rw [same, owner]
    rw [owner'] at hg waits
    rw [due'.timeAt_dueOn hn] at waits
    exact ⟨_, g', hg, waits⟩

/-- The wait for a submission is read again as it was written, whatever was submitted. -/
theorem Issuer.written_waitFor (d : Draft) (reply : Reply) (e : ExecutionId) (now : Instant) :
    let r := Registry.fresh (waitFor d reply e now)
    r.Held ∧ r.Steady ∧ r.Shallow := by
  intro r
  have carries {M P : Json → Prop} (hM : M (waitFor d reply e now).metadata) : r.Carries M P :=
    ⟨hM, by rintro p (hp | hp) <;> cases hp⟩
  refine ⟨carries (held_metadata d reply e now), carries ?_, carries ?_⟩ <;> rw [waitFor_metadata]
  · exact ⟨trivial, trivial, trivial, trivial⟩
  · simp [Json.depth, Json.depthMembers, Json.maxDepth]

/-- A run on a new file asks for a minute and a half and a nanosecond, and its handle waits that long.  When the file is
opened again, whoever is parked on the wait waits until then, or until now if it is later. -/
theorem deadline_kept_over_restart :
    let i : Issuer := ⟨⟨some ⟨"https://cm.example/changes", .none⟩, []⟩, "http://gate", "ci", some (.ofSeconds 60)⟩
    let r : ChangeRequest := ⟨"deploy", "7", "roll out", none, none, [], some ⟨90000000001⟩⟩
    let ours := Token.mint "ci" "deploy" default
    let d : Draft := ⟨r, ⟨"https://cm.example/changes", .none⟩, ours, i.callbackUrl ours, r.timeout,
      r.toPayload "ci" (i.callbackUrl ours)⟩
    let reply : Reply := ⟨201, .obj [("status", .str "success")]⟩
    let e : ExecutionId := default
    let clock : Clock := ⟨.epoch, 5⟩
    let g := Gate.start .onNewFile (some i)
    let s : Submission := ⟨ours, d.callbackUrl, d.timeout, reply.body, none⟩
    let h := (Issuer.complete g.registry d e clock.now (.ok reply)).2
    i.draft r default = .ok d ∧ Issuer.complete g.registry d e clock.now (.ok reply) = (.ok s, h) ∧
      (∃ serial g', g.finishRun e d (.ok reply) clock = (.ok serial, g') ∧
        g'.WaitsUntil serial e ours clock (some 90000000001)) ∧
      ∃ store after, h.store.reopen = .ok store ∧
        Registry.openStore store Registry.defaultTtl .byText = (.ok (), after) ∧
        ∀ clock' : Clock, clock'.now.Regular → ∃ serial g',
          (Gate.start after none).reattach e ours clock' = (.ok serial, g') ∧
            g'.WaitsUntil serial e ours clock' (some (max 90000000001 clock'.now.nanos)) := by
  intro i r ours d reply e clock g s h
  let w := Issuer.waitFor d reply e clock.now
  have drafted : i.draft r default = .ok d := by decide +kernel
  have accepted : Issuer.complete g.registry d e clock.now (.ok reply) = (.ok s, h) :=
    Prod.ext (by decide +kernel) rfl
  obtain ⟨-, waits, later⟩ := requested_deadline_stays (.file _ Registry.file_onNewFile) Registry.open_onNewFile .now
    drafted (by decide) (by decide) accepted
  have due : (r.timeout <|> i.defaultTimeout).map (fun timeout => clock.now.nanos + timeout.nanos) = some 90000000001 :=
    by decide
  rw [due] at waits later
  refine ⟨drafted, accepted, ?_, ?_⟩
  · have runs : (g.finishRun e d (.ok reply) clock).1.isOk = true := by decide +kernel
    rcases waits with cancelled | ⟨serial, g', hf, -, until'⟩
    · cases (congrArg Except.isOk cancelled).symm.trans runs
    · exact ⟨serial, g', hf, until'⟩
  · -- the file opens again, and the wait is in it
    have hput : Registry.onNewFile.store.put (Registry.fresh w) = (.ok (), h.store) :=
      Registry.register_put (Issuer.complete_ok accepted).1
    obtain ⟨store, hopen, opens⟩ := Registry.reopens_put Registry.reliable_onNewFile
      (Store.rooted_of_openFile Registry.file_onNewFile {}) (Store.Made.file _ Registry.file_onNewFile).sound rfl
      (Registry.fresh w) fun q hq => by
        cases List.mem_singleton.1 (List.mem_mergeSort.1 hq)
        exact Issuer.written_waitFor d reply e clock.now
    obtain ⟨after, ho, found⟩ := opens Registry.defaultTtl .byText
    rw [hput] at hopen
    refine ⟨store, after, hopen, ho, fun clock' hn => ?_⟩
    have again : (Traffic.idle { g with registry := h }).Later (Traffic.Undisputed ours) (.idle (.start after none)) :=
      .restart none .now hopen ho
    exact (later _ _ ours (Registry.fresh w) rfl again
      (Registry.find?_eq_some.2 ⟨found ours _ rfl nofun, .inl rfl⟩)).2.2 clock' hn

end ApprovalGate
