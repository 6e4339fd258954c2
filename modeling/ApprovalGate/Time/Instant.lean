import ApprovalGate.Time.Calendar
import ApprovalGate.Time.Span
/-!
# Instants

A point in time on the UTC clock, to the nanosecond, within the years -262143 to 262142.  A leap second is the second
before it prolonged: its nanoseconds run from `10 ^ 9` up to `2 · 10 ^ 9`.
-/
namespace ApprovalGate

/-- A second since 1970 and the nanoseconds past it.  Only the last second of a minute can be prolonged. -/
structure Instant where
  second : Int
  nano : Nat
  valid : -8334601228800 ≤ second ∧ second ≤ 8210266876799 ∧
    (nano < 1000000000 ∨ (nano < 2000000000 ∧ second % 60 = 59))
deriving DecidableEq, Repr

namespace Instant

def ofParts? (second : Int) (nano : Nat) : Option Instant :=
  if h : -8334601228800 ≤ second ∧ second ≤ 8210266876799 ∧
      (nano < 1000000000 ∨ (nano < 2000000000 ∧ second % 60 = 59)) then
    some ⟨second, nano, h⟩
  else none

def epoch : Instant := ⟨0, 0, by decide⟩

instance : Inhabited Instant := ⟨epoch⟩

instance : LE Instant := ⟨fun a b => a.second < b.second ∨ (a.second = b.second ∧ a.nano ≤ b.nano)⟩
instance : LT Instant := ⟨fun a b => a.second < b.second ∨ (a.second = b.second ∧ a.nano < b.nano)⟩
instance (a b : Instant) : Decidable (a ≤ b) :=
  inferInstanceAs (Decidable (a.second < b.second ∨ (a.second = b.second ∧ a.nano ≤ b.nano)))
instance (a b : Instant) : Decidable (a < b) :=
  inferInstanceAs (Decidable (a.second < b.second ∨ (a.second = b.second ∧ a.nano < b.nano)))

def isLeap (t : Instant) : Bool := 1000000000 ≤ t.nano

def day (t : Instant) : Int := t.second / 86400

def secondOfDay (t : Instant) : Nat := (t.second % 86400).toNat

/-- A later instant, if there is one so late.  From within a leap second a span that stays within it moves inside it,
a longer one counts from its start as from the second before. -/
def add? (t : Instant) (d : Span) : Option Instant :=
  let carry (nano : Nat) : Option Instant :=
    let sum := nano + d.subNanos
    if sum < 1000000000 then ofParts? (t.second + d.seconds) sum
    else ofParts? (t.second + d.seconds + 1) (sum - 1000000000)
  if t.isLeap then
    if 0 < d.seconds ∨ 2000000000 ≤ t.nano + d.subNanos then carry (t.nano - 1000000000)
    else ofParts? t.second (t.nano + d.subNanos)
  else carry t.nano

/-- The nanoseconds from `b` to `a`.  A leap second counts when it comes before the other time of day. -/
def since (a b : Instant) : Int :=
  let leap : Int :=
    if b.secondOfDay < a.secondOfDay ∧ b.isLeap then 1
    else if a.secondOfDay < b.secondOfDay ∧ a.isLeap then -1
    else 0
  (a.second - b.second + leap) * 1000000000 + ((a.nano : Int) - b.nano)

def since? (a b : Instant) : Option Span := if 0 ≤ a.since b then some ⟨(a.since b).toNat⟩ else none

end Instant
end ApprovalGate
