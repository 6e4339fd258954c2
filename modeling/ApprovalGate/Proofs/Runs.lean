/-!
# What holds along a run

A run is a fold of events.  Something holds at each of its points exactly as long as no event of it is of the kind that
spoils it, if it holds at first, the other events keep it, and those of the kind spoil it at once
(`always_iff_never`).
-/
namespace ApprovalGate.Run

variable {σ ε : Type} {f : σ → ε → σ}

/-- Whether every event of a run is as it should be where it happens. -/
def Along (f : σ → ε → σ) (C : σ → ε → Prop) : σ → List ε → Prop
  | _, [] => True
  | s, e :: es => C s e ∧ Along f C (f s e) es

instance decidableAlong {C : σ → ε → Prop} [∀ s e, Decidable (C s e)] : ∀ s es, Decidable (Along f C s es)
  | _, [] => isTrue trivial
  | s, e :: es => @instDecidableAnd _ _ _ (decidableAlong (f s e) es)

theorem along_iff {C : σ → ε → Prop} {es : List ε} : ∀ {s : σ},
    Along f C s es ↔ ∀ p e, p ++ [e] <+: es → C (p.foldl f s) e := by
  induction es with
  | nil => exact ⟨fun _ p e hp => by simp at hp, fun _ => trivial⟩
  | cons e es ih =>
    intro s
    rw [Along, ih]
    constructor
    · rintro ⟨h, hs⟩ p e' hp
      cases p with
      | nil =>
        obtain ⟨rfl, -⟩ := List.cons_prefix_cons.1 hp
        exact h
      | cons a p =>
        obtain ⟨rfl, hp'⟩ := List.cons_prefix_cons.1 hp
        exact hs p e' hp'
    · intro h
      exact ⟨h [] e (List.cons_prefix_cons.2 ⟨rfl, List.nil_prefix⟩), fun p e' hp =>
        h (e :: p) e' (List.cons_prefix_cons.2 ⟨rfl, hp⟩)⟩

theorem along_of_forall {C : σ → ε → Prop} {es : List ε} (h : ∀ e ∈ es, ∀ s, C s e) (s : σ) : Along f C s es :=
  along_iff.2 fun p e hp => h e (hp.subset (List.mem_append_right p (List.mem_singleton_self e))) _

/-- **What only events of one kind spoil holds all along a run exactly when no event is of that kind.**  What the other
events keep may say more than what is spoilt, and they need keep it only where they are as they should be. -/
theorem always_iff_never {P Q : σ → Prop} {C B : σ → ε → Prop} (shows : ∀ {s}, Q s → P s)
    (keeps : ∀ {s e}, Q s → C s e → ¬B s e → Q (f s e)) (spoils : ∀ {s e}, Q s → C s e → B s e → ¬P (f s e))
    {es : List ε} : ∀ {s : σ}, Q s → Along f C s es →
      ((∀ p, p <+: es → P (p.foldl f s)) ↔ ∀ p e, p ++ [e] <+: es → ¬B (p.foldl f s) e) := by
  induction es with
  | nil =>
    refine fun hs _ => ⟨fun _ p e hp => by simp at hp, fun _ p hp => ?_⟩
    rw [List.prefix_nil.1 hp]
    exact shows hs
  | cons e es ih =>
    rintro s hs ⟨hc, hcs⟩
    rw [← along_iff (C := fun s e => ¬B s e), Along]
    by_cases hb : B s e
    · refine ⟨fun h => ?_, fun h => absurd hb h.1⟩
      exact absurd (h [e] (List.cons_prefix_cons.2 ⟨rfl, List.nil_prefix⟩)) (spoils hs hc hb)
    · rw [along_iff, ← ih (keeps hs hc hb) hcs]
      constructor
      · exact fun h => ⟨hb, fun p hp => h (e :: p) (List.cons_prefix_cons.2 ⟨rfl, hp⟩)⟩
      · rintro ⟨-, h⟩ p hp
        cases p with
        | nil => exact shows hs
        | cons a p =>
          obtain ⟨rfl, hp'⟩ := List.cons_prefix_cons.1 hp
          exact h p hp'

/-- What every event keeps that is as it should be holds all along a run. -/
theorem always_of_keeps {Q : σ → Prop} {C : σ → ε → Prop} (keeps : ∀ {s e}, Q s → C s e → Q (f s e)) {es : List ε}
    {s : σ} (hs : Q s) (along : Along f C s es) (p : List ε) (hp : p <+: es) : Q (p.foldl f s) :=
  (always_iff_never (P := Q) (B := fun _ _ => False) id (fun h hc _ => keeps h hc) (fun _ _ hb => hb.elim) hs along).2
    (fun _ _ _ => id) p hp

end ApprovalGate.Run
