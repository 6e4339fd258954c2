import ApprovalGate.Proofs.Gate.Traffic
import ApprovalGate.Proofs.Registry.Shown
/-!
# What a gate comes to later, restarts included

A process takes parts of steps, and when it has stopped, for whatever reason and wherever it was, another one opens what
it left (`Traffic.Later`).  What holds of all waits that its registry shows holds on through all of that
(`Later.shows`).  So a wait that is registered is the one that is found under its token later, up to its status and
what is known of it, as long as no other wait is made under the token (`same_later`).
-/
namespace ApprovalGate

open Registry (Operation)

namespace Traffic

/-- What a process comes to, and the processes after it: every part of a step is as it should be where it is done, the
outside of the store can change in between, and at any time a process can end and the next one start on the store. -/
inductive Later (ok : Traffic → Step → Prop) (x : Traffic) : Traffic → Prop where
  | now : Later ok x x
  | step {y : Traffic} (st : Step) : Later ok x y → ok y st → Later ok x (y.step st)
  | aside {y : Traffic} {store : Store} : Later ok x y → y.gate.registry.store.Aside store →
      Later ok x { y with gate := { y.gate with registry := { y.gate.registry with store } } }
  | restart {y : Traffic} {store : Store} {ttl : Span} {happens : TokenOrder} {g : Registry} (issuer : Option Issuer) :
      Later ok x y → y.gate.registry.store.reopen = .ok store → Registry.openStore store ttl happens = (.ok (), g) →
      Later ok x (.idle (.start g issuer))

/-- A part of a step that registers no wait under a token, or one that a pending wait there turns down.  What only the
store turns down could be there after a restart. -/
def Undisputed (t : Token) (x : Traffic) (st : Step) : Prop :=
  ∀ w, x.op? st = some (.register w) → w.token = t →
    ∃ r, x.gate.registry.records.get? t = some r ∧ r.isPending = true

variable {P : Wait → Prop} {ok : Traffic → Step → Prop} {x y z : Traffic}

/-- A run of parts that are as they should be comes later. -/
theorem Later.run : ∀ {steps : List Step} {y : Traffic}, x.Later ok y → y.Along ok steps → x.Later ok (y.run steps)
  | [], _, l, _ => l
  | st :: _, _, l, along => (l.step st along.1).run along.2

/-- **A property of all waits that come in is one of all that is shown, now and later.** -/
theorem Later.shows (l : x.Later ok z) (keeps : ∀ {w w' : Wait}, w.Same w' → P w → P w')
    (admits : ∀ y st, ok y st → ∀ op, y.op? st = some op → op.Admits P y.gate.registry)
    (h : x.gate.registry.Shows P) : z.gate.registry.Shows P := by
  induction l with
  | now => exact h
  | @step y st _ hok ih =>
    rw [y.step_registry]
    cases hop : y.op? st with
    | none => exact ih
    | some op => exact ih.perform keeps (admits y st hok op hop)
  | aside _ ha ih => exact ⟨{ ih.sound with }, ih.held, ih.stored.aside ha⟩
  | restart _ _ hr ho ih => exact Registry.shows_of_openStore keeps ho (ih.stored.reopen hr)

/-- **What every operation keeps of records, and writing and reading, holds on.** -/
theorem Later.bears (l : x.Later ok z) {Q : WaitRecord → Prop}
    (same : ∀ {r r' : WaitRecord}, r.Same r' → Q r → Q r') (keeps : ∀ op : Operation, op.Keeps Q)
    (h : x.gate.registry.Bears Q) : z.gate.registry.Bears Q := by
  induction l with
  | now => exact h
  | @step y st _ _ ih =>
    rw [y.step_registry]
    cases y.op? st with
    | none => exact ih
    | some op => exact ih.perform same (keeps op)
  | aside _ ha ih => exact ih.aside ha
  | restart _ _ hr ho ih => exact Registry.bears_of_openStore same ho (ih.stored.reopen hr)

/-- Whatever is opened on a store, and whatever it comes to, its registry and its store are sound. -/
theorem Later.sound {store : Store} (made : store.Made) {ttl : Span} {happens : TokenOrder} {g : Registry}
    (opened : Registry.openStore store ttl happens = (.ok (), g)) {issuer : Option Issuer}
    (l : (idle (.start g issuer)).Later ok z) : z.gate.registry.Shows fun _ => True := by
  have keeps : ∀ {w w' : Wait}, w.Same w' → True → True := fun _ _ => trivial
  have first : store.Shows fun _ => True := ⟨made.sound, fun _ _ _ => trivial, fun _ _ _ _ _ _ _ _ _ _ => trivial⟩
  exact l.shows keeps (fun _ _ _ _ _ _ _ => .inl trivial) (Registry.shows_of_openStore keeps opened first)

/-- **A wait that is registered is the one that is found under its token later.** -/
theorem same_later (sound : x.gate.registry.Shows fun _ => True) {w : Wait} {s : Superseded} {h : Registry}
    (hr : x.gate.registry.register w = (.ok s, h)) (hy : y.gate.registry = h) (l : y.Later (Undisputed w.token) z)
    {q : WaitRecord} (hq : z.gate.registry.records.get? w.token = some q) : w.Same q.wait := by
  let P (w' : Wait) : Prop := w'.token = w.token → w.Same w'
  have keeps : ∀ {w₁ w₂ : Wait}, w₁.Same w₂ → P w₁ → P w₂ := by
    intro w₁ w₂ hs hw ht
    refine (hw ?_).trans hs
    rw [← ht, hs]
  have first : y.gate.registry.Shows P := hy ▸ Registry.shows_of_register keeps sound.sound sound.stored.sound hr
    (fun w' hne ht => absurd ht hne) fun _ => rfl
  have later := l.shows keeps (fun y st undisputed op hop w' hw => ?_) first
  · exact later.held _ q hq (later.sound.keyed hq)
  · subst hw
    by_cases ht : w'.token = w.token
    · obtain ⟨r, hr, hp⟩ := undisputed w' hop ht
      exact .inr ⟨r, ht ▸ hr, hp⟩
    · exact .inl fun h => absurd h ht

end Traffic
end ApprovalGate
