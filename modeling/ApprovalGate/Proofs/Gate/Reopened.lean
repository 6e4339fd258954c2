import ApprovalGate.Callback.Receiver
import ApprovalGate.Proofs.Callback
import ApprovalGate.Proofs.Gate.Traffic
import ApprovalGate.Proofs.Registry.Reopened
/-!
# Opening the file of a gate again

What others say comes into a gate as the bodies of callbacks, and a body is kept whole, four levels deep in the
snapshot.  Bodies are read to the same depth as snapshots are, 127, so a gate that keeps a body which nests deeper than
123 has written a file that it cannot open again (`opens_again_iff_shallow`); one that took in none always can
(`shallow_of_bodies`).
-/
namespace ApprovalGate

open Registry (Operation)

/-! ## The operations in a run -/

/-- The decision that a move brings along. -/
def Move.decision? : Move → Option Decision
  | .deliver _ d => some d
  | .upkeep op _ => op.decision?
  | _ => none

/-- A move that brings along what has certain properties: `M` what is known of a wait, and `P` the payload of a
decision. -/
structure Move.Carries (M P : Json → Prop) (m : Move) : Prop where
  metadata : ∀ w, m = .register w → M w.metadata
  payload : ∀ d, m.decision? = some d → P d.payload

namespace Traffic

variable {M P : Json → Prop}

theorem carries_move {g : Gate} {m : Move} (h : m.Carries M P) {op : Operation} (hop : g.op? m = some op) :
    op.Carries M P := by
  unfold Gate.op? at hop
  cases m with
  | deliver x d =>
    cases hop
    exact ⟨(by intro w hw; cases hw), h.payload⟩
  | cancel e reason =>
    cases hop
    exact Operation.carries_of_isBare rfl
  | register w =>
    cases hop
    refine ⟨fun v hv => ?_, (by intro d hd; cases hd)⟩
    cases hv
    exact h.metadata w rfl
  | upkeep op' hq =>
    cases hop
    refine ⟨?_, h.payload⟩
    rintro w rfl
    cases hq
  | fire serial now =>
    obtain ⟨handle, -, rfl⟩ := Option.map_eq_some_iff.1 hop
    exact Operation.carries_of_isBare rfl
  | read serial now =>
    obtain ⟨handle, -, hop⟩ := Option.bind_eq_some_iff.1 hop
    split at hop
    · obtain ⟨result, -, rfl⟩ := Option.map_eq_some_iff.1 hop
      exact Operation.carries_of_isBare rfl
    · cases hop
  | _ => cases hop

theorem carries_half {half : Half} {op : Operation} (hop : half.op? = some op) : op.Carries M P := by
  cases half <;> cases hop <;> exact Operation.carries_of_isBare rfl

theorem carries_op {x : Traffic} {st : Step} (h : ∀ m, .begin m = st → m.Carries M P) {op : Operation}
    (hop : x.op? st = some op) : op.Carries M P := by
  cases st with
  | begin m => exact carries_move (h m rfl) hop
  | resume half =>
    rw [op?] at hop
    split at hop
    · exact carries_half hop
    · cases hop

/-- The operations of the registry that a run comes to. -/
def ops (x : Traffic) : List Step → List Operation
  | [] => []
  | st :: steps => (x.op? st).toList ++ (x.step st).ops steps

theorem run_registry : ∀ (steps : List Step) (x : Traffic),
    (x.run steps).gate.registry = x.gate.registry.run ((x.ops steps).map .call)
  | [], _ => rfl
  | st :: steps, x => by
    rw [run_cons, run_registry steps, step_registry, ops]
    cases x.op? st <;> rfl

theorem carries_ops : ∀ {steps : List Step} {x : Traffic}, (∀ m, .begin m ∈ steps → m.Carries M P) →
    ∀ op ∈ x.ops steps, op.Carries M P
  | [], _, _, op, hop => absurd hop List.not_mem_nil
  | st :: steps, x, h, op, hop => by
    rcases List.mem_append.1 hop with hop | hop
    · exact carries_op (fun m hm => h m (List.mem_cons.2 (.inl hm))) (Option.mem_toList.1 hop)
    · exact carries_ops (fun m hm => h m (List.mem_cons_of_mem _ hm)) op hop

end Traffic

/-! ## Opening again -/

/-- A move of a gate that hears of decisions through callbacks only: a decision is one that was read from a body, and
what is known of a wait is held as values are. -/
structure Move.Received (m : Move) : Prop where
  metadata : ∀ w, m = .register w → w.metadata.Held
  decision : ∀ d, m.decision? = some d →
    ∃ t body contentType now, Callback.parseDecision t body contentType now = .ok d

theorem Move.Received.carries {m : Move} (h : m.Received) : m.Carries Json.Held Json.Held where
  metadata := h.metadata
  payload d hd := by
    obtain ⟨t, body, contentType, now, hp⟩ := h.decision d hd
    exact Callback.held_parseDecision hp

/-- A body that is read as a decision which ends the wait at its address is accepted. -/
theorem Gate.receive_resolved {g : Gate} {address : String} {x : Token} {body : ByteArray} {contentType : Option String}
    {now : Instant} {d d' : Decision} {e : ExecutionId} {registry : Registry} (hx : Token.parse? address = some x)
    (ht : takesDelivery (g.registry.get? (g.registry.canonical x)) = true)
    (hd : Callback.parseDecision (g.registry.canonical x) body contentType now = .ok d)
    (hr : g.registry.resolve (g.registry.canonical x) d = (.resolved e d', registry)) :
    g.receive address body contentType now =
      (.accepted e d'.verdict, ({ g with registry }.deliver (g.registry.canonical x) d').2) := by
  unfold receive record
  simp only [hx, ht, hd, hr, Bool.not_true, Bool.false_eq_true, if_false]

namespace Traffic

variable {path : String} {disk : Disk} {medium : Medium} {ttl : Span} {happens : TokenOrder} {g : Registry}
  {steps : List Step}

/-- **As long as no payload nests deeper than 123 and nothing known of a wait deeper than 124, all records are
shallow**, whatever was found at first. -/
theorem shallow_of_bodies (hm : Store.openFile path disk = .ok medium)
    (ho : Registry.openStore ⟨medium, {}⟩ ttl happens = (.ok (), g)) (issuer : Option Issuer)
    (hsteps : ∀ m, .begin m ∈ steps →
      m.Carries (fun v => v.depth ≤ Json.maxDepth - 3) fun v => v.depth ≤ Json.maxDepth - 4) :
    ∀ r ∈ ((idle (.start g issuer)).run steps).gate.registry.records.sorted, r.Shallow := by
  rw [run_registry]
  exact Registry.carries_run ho (fun r hr => (Store.held_of_openFile hm {} r hr).2) (carries_ops hsteps)

/-- **A gate that heard of decisions through callbacks opens its file again exactly as long as all its records are
shallow**, and then it loads them all; with a record that is not, the file is corrupt.  Doubles that are read as others
than were written are left out. -/
theorem opens_again_iff_shallow (hm : Store.openFile path disk = .ok medium) (hr : Store.Reliable ⟨medium, {}⟩)
    (ho : Registry.openStore ⟨medium, {}⟩ ttl happens = (.ok (), g)) (issuer : Option Issuer)
    (hsteps : ∀ m, .begin m ∈ steps → m.Received) :
    let h := ((idle (.start g issuer)).run steps).gate.registry
    (∀ r ∈ h.records.sorted, r.Steady) →
      ((∃ s, h.store.reopen = .ok s ∧ ∀ happens', s.load happens' = .ok h.records.sorted) ↔
          ∀ r ∈ h.records.sorted, r.Shallow) ∧
        ((¬∀ r ∈ h.records.sorted, r.Shallow) →
          h.store.reopen = .error (.store path Snapshot.Fault.corrupt.message)) := by
  intro h hsteady
  have hops : h = g.run (((idle (.start g issuer)).ops steps).map .call) := run_registry steps _
  have carries := carries_ops (x := idle (.start g issuer)) fun m hb => (hsteps m hb).carries
  obtain ⟨hgood, hbad⟩ := Registry.reopen_run hm hr ho carries (hops ▸ hsteady)
  rw [← hops] at hgood hbad
  refine ⟨⟨?_, hgood⟩, hbad⟩
  -- a file that opens is not corrupt
  rintro ⟨s, hs, -⟩
  by_contra hn
  rw [hbad hn] at hs
  cases hs

end Traffic

/-- The registry on a new file. -/
def Registry.onNewFile : Registry :=
  ⟨Table.empty, Table.empty, Table.empty, ⟨.file "waits.json" Table.empty .empty, {}⟩, defaultTtl⟩

theorem Registry.file_onNewFile : Store.openFile "waits.json" .empty = .ok onNewFile.store.medium := rfl

theorem Registry.open_onNewFile : openStore onNewFile.store defaultTtl .byText = (.ok (), onNewFile) :=
  openStore_empty rfl rfl _ _

theorem Registry.reliable_onNewFile : onNewFile.store.Reliable :=
  Store.reliable_of_writable ⟨rfl, rfl⟩ rfl ⟨by decide, by decide, by decide⟩

theorem Registry.carries_onNewFile {M P : Json → Prop} {ops : List Operation} (h : ∀ op ∈ ops, op.Carries M P) :
    ∀ r ∈ (onNewFile.run (ops.map .call)).records.sorted, r.Carries M P :=
  carries_run open_onNewFile (fun _ hr => absurd (List.mem_mergeSort.1 hr) List.not_mem_nil) h

/-- A wait is registered and then decided. -/
def deliverySteps (w : Wait) (d : Decision) : List Step := [.begin (.register w), .begin (.deliver w.token d)]

theorem mem_deliverySteps {w : Wait} {d : Decision} {m : Move} (h : .begin m ∈ deliverySteps w d) :
    m = .register w ∨ m = .deliver w.token d := by
  simpa [deliverySteps] using h

theorem carries_deliverySteps {M P : Json → Prop} {w : Wait} {d : Decision} (hM : M w.metadata) (hP : P d.payload) :
    ∀ m, .begin m ∈ deliverySteps w d → m.Carries M P := by
  intro m hm
  rcases mem_deliverySteps hm with rfl | rfl
  · refine ⟨fun v hv => ?_, (by intro d hd; cases hd)⟩
    cases hv
    exact hM
  · refine ⟨(by intro v hv; cases hv), fun d hd => ?_⟩
    cases hd
    exact hP

/-- An approval in a new file is there when the file is opened again. -/
theorem approval_opens_again :
    let w := Wait.start default default .epoch
    let body := "\x7b\"result\":\"approved\"\x7d".toUTF8
    let yes : Decision := ⟨w.token, .obj [("result", .str "approved")], .approved, none, .epoch⟩
    let h := ((Traffic.idle (.start .onNewFile none)).run (deliverySteps w yes)).gate.registry
    Callback.parseDecision w.token body none .epoch = .ok yes ∧
      (h.records.get? w.token).bind WaitRecord.decision = some yes ∧
      ∃ s, h.store.reopen = .ok s ∧ ∀ happens, s.load happens = .ok h.records.sorted := by
  intro w body yes h
  have read : Callback.parseDecision w.token body none .epoch = .ok yes := by decide +kernel
  have received : ∀ m, .begin m ∈ deliverySteps w yes → m.Received := by
    intro m hm
    rcases mem_deliverySteps hm with rfl | rfl
    · refine ⟨fun v hv => ?_, (by intro d hd; cases hd)⟩
      cases hv
      exact ⟨rfl, trivial⟩
    · refine ⟨(by intro v hv; cases hv), fun d hd => ?_⟩
      cases hd
      exact ⟨_, _, _, _, read⟩
  have steady : ∀ r ∈ h.records.sorted, r.Steady := by
    rw [show h = _ from Traffic.run_registry _ _]
    exact Registry.carries_onNewFile (Traffic.carries_ops (carries_deliverySteps trivial ⟨trivial, trivial⟩))
  have shallow : ∀ r ∈ h.records.sorted, r.Shallow :=
    Traffic.shallow_of_bodies Registry.file_onNewFile Registry.open_onNewFile none
      (carries_deliverySteps (by decide) (by decide))
  exact ⟨read, by decide, (Traffic.opens_again_iff_shallow Registry.file_onNewFile Registry.reliable_onNewFile
    Registry.open_onNewFile none received steady).1.2 shallow⟩

/-- Arrays in arrays, and an empty one in the innermost. -/
def Json.brackets : Nat → Json
  | 0 => .arr []
  | n + 1 => .arr [brackets n]

theorem Json.every_brackets {P : Json → Prop} : ∀ n, (brackets n).Every P
  | 0 => trivial
  | n + 1 => ⟨every_brackets n, trivial⟩

/-- **An approval whose body nests 124 deep is accepted, and the file that it is written to is corrupt.** -/
theorem deep_approval_is_corrupt :
    let w := Wait.start default default .epoch
    let text := "\x7b\"result\":\"approved\",\"x\":".toList ++ List.replicate 123 '[' ++ List.replicate 123 ']' ++
      ['\x7d']
    let g := Gate.start (Registry.onNewFile.perform (.register w)) none
    let answer := g.receive w.token.text (String.ofList text).toUTF8 none .epoch
    answer.1 = .accepted w.execution .approved ∧
      answer.2.registry.store.reopen = .error (.store "waits.json" Snapshot.Fault.corrupt.message) := by
  intro w text g answer
  let yes : Decision :=
    ⟨w.token, .obj [("result", .str "approved"), ("x", .brackets 122)], .approved, none, .epoch⟩
  have parsed : Json.parse? (String.ofList text) = some yes.payload := by
    rw [Json.parse?, Json.read?, String.toList_ofList]
    decide +kernel
  have read : Callback.parseDecision w.token (String.ofList text).toUTF8 none .epoch = .ok yes :=
    Callback.parseDecision_json (by decide +kernel) (by decide +kernel) parsed (by decide +kernel)
  let x := Traffic.idle (.start .onNewFile none)
  have hanswer : answer = _ := Gate.receive_resolved (x := w.token) (by decide) (by decide) read rfl
  have hreg : answer.2.registry = Registry.onNewFile.run ((x.ops (deliverySteps w yes)).map .call) := by
    rw [hanswer]
    exact Gate.signal_registry _ _ _
  have held : ∀ op ∈ x.ops (deliverySteps w yes), op.Carries Json.Held Json.Held :=
    Traffic.carries_ops (carries_deliverySteps ⟨rfl, trivial⟩ (Callback.held_parseDecision read))
  have steady : ∀ r ∈ answer.2.registry.records.sorted, r.Steady := by
    rw [hreg]
    exact Registry.carries_onNewFile (Traffic.carries_ops (carries_deliverySteps trivial
      ⟨trivial, Json.every_brackets 122, trivial⟩))
  have deep : ¬∀ r ∈ answer.2.registry.records.sorted, r.Shallow := by
    intro shallow
    have sound : (answer.2.registry).Sound := hreg ▸ (Registry.openStore_sound Registry.open_onNewFile).run _
    let r : WaitRecord := { (WaitRecord.ofWait w).finish .resolved .epoch with decision := some yes }
    have hrec : answer.2.registry.records.get? r.token = some r := by
      rw [hreg]
      decide +kernel
    have hle := (shallow r ((Records.mem_sortedBy ⟨sound.records, sound.keyed⟩).2 hrec)).payload yes (.inl rfl)
    exact absurd hle (by decide +kernel)
  refine ⟨congrArg Prod.fst hanswer, ?_⟩
  rw [hreg] at steady deep ⊢
  exact (Registry.reopen_run Registry.file_onNewFile Registry.reliable_onNewFile Registry.open_onNewFile held
    steady).2 deep

end ApprovalGate
