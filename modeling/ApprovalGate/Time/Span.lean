import ApprovalGate.Text.Digit
/-!
# Spans of time

A length of time in whole nanoseconds, never negative.
-/
namespace ApprovalGate

structure Span where
  nanos : Nat
deriving DecidableEq, Repr, Inhabited

namespace Span

def ofSeconds (s : Nat) : Span := ⟨s * 1000000000⟩

def ofMillis (ms : Nat) : Span := ⟨ms * 1000000⟩

def seconds (d : Span) : Nat := d.nanos / 1000000000

def subNanos (d : Span) : Nat := d.nanos % 1000000000

instance : LE Span := ⟨fun a b => a.nanos ≤ b.nanos⟩
instance : LT Span := ⟨fun a b => a.nanos < b.nanos⟩
instance (a b : Span) : Decidable (a ≤ b) := inferInstanceAs (Decidable (a.nanos ≤ b.nanos))
instance (a b : Span) : Decidable (a < b) := inferInstanceAs (Decidable (a.nanos < b.nanos))

/-- A number with the fraction `part / 10 ^ places` after the point, without trailing zeros. -/
def withFraction (whole part places : Nat) : List Char :=
  let ds := (Text.decimalPadded places part).reverse.dropWhile (· == '0') |>.reverse
  Text.decimal whole ++ if ds.isEmpty then [] else '.' :: ds

/-- The span in its largest unit of seconds, milli-, micro- and nanoseconds that gives a whole number. -/
def text (d : Span) : String := String.ofList <|
  if 1000000000 ≤ d.nanos then withFraction d.seconds d.subNanos 9 ++ ['s']
  else if 1000000 ≤ d.nanos then withFraction (d.nanos / 1000000) (d.nanos % 1000000) 6 ++ ['m', 's']
  else if 1000 ≤ d.nanos then withFraction (d.nanos / 1000) (d.nanos % 1000) 3 ++ ['µ', 's']
  else Text.decimal d.nanos ++ ['n', 's']

end Span
end ApprovalGate
