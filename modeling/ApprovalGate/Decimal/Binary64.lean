/-!
# Double precision numbers

Binary floating point numbers as exact data: a sign and a magnitude `mantissa · 2 ^ exponent`.  Products, quotients
and integers are rounded once, to the nearest number, a tie to the even mantissa.

A decimal `significand · 10 ^ exponent` becomes a double by rounding the significand and then multiplying or dividing
by powers of ten up to `10 ^ 308`, with a rounding at each step.
-/
namespace ApprovalGate

/-- A magnitude of double precision: the mantissa is below `2 ^ 53`, and it is at least `2 ^ 52` unless the exponent
is the least one, `-1074`. -/
structure Magnitude where
  mantissa : Nat
  exponent : Int
deriving DecidableEq, Repr, Inhabited

structure Binary64 where
  negative : Bool
  magnitude : Magnitude
deriving DecidableEq, Repr, Inhabited

namespace Magnitude

def zero : Magnitude := ⟨0, -1074⟩

def isZero (x : Magnitude) : Bool := x.mantissa == 0

/-- `num / den · 2 ^ (-e)` as a fraction of natural numbers. -/
def shifted (num den : Nat) (e : Int) : Nat × Nat :=
  if 0 ≤ e then (num, den * Nat.pow 2 e.toNat) else (num * Nat.pow 2 (-e).toNat, den)

/-- The nearest integer to a fraction, a tie to the even one. -/
def roundDiv (num den : Nat) : Nat :=
  let q := num / den
  let r := num % den
  if 2 * r < den then q else if den < 2 * r then q + 1 else if q % 2 = 0 then q else q + 1

/-- The exponent at which a positive fraction has a mantissa of 53 bits, or the least exponent. -/
def exponentOf (num den : Nat) : Int :=
  let e : Int := (Nat.log2 num : Int) - (Nat.log2 den : Int) - 52
  let (n, d) := shifted num den e
  let e := if n < d * Nat.pow 2 52 then e - 1 else e
  if e < -1074 then -1074 else e

/-- The magnitude nearest to a fraction; none when the fraction is too large. -/
def ofRatio? (num den : Nat) : Option Magnitude :=
  if num = 0 then some zero
  else
    let e := exponentOf num den
    let (n, d) := shifted num den e
    let m := roundDiv n d
    let (m, e) := if m = Nat.pow 2 53 then (Nat.pow 2 52, e + 1) else (m, e)
    if 971 < e then none else some ⟨m, e⟩

def toRatio (x : Magnitude) : Nat × Nat := shifted x.mantissa 1 (-x.exponent)

def mul? (x y : Magnitude) : Option Magnitude :=
  let (n, d) := shifted (x.mantissa * y.mantissa) 1 (-(x.exponent + y.exponent))
  ofRatio? n d

def div? (x y : Magnitude) : Option Magnitude :=
  let (n, d) := shifted x.mantissa y.mantissa (y.exponent - x.exponent)
  ofRatio? n d

/-! ## Decimals -/

def tenPow? (k : Nat) : Option Magnitude := if k ≤ 308 then ofRatio? (Nat.pow 10 k) 1 else none

/-- Divides by `10 ^ k`, by steps of `10 ^ 308`; `steps` bounds their number, and after a few the result is zero. -/
def divTenPow? : (steps : Nat) → Magnitude → Nat → Option Magnitude
  | 0, _, _ => some zero
  | steps + 1, x, k =>
    if x.isZero then some x
    else if k ≤ 308 then (tenPow? k).bind x.div?
    else ((tenPow? 308).bind x.div?).bind fun y => divTenPow? steps y (k - 308)

/-- The magnitude of a decimal; none when it is too large. -/
def ofDecimal? (significand : Nat) (exponent : Int) : Option Magnitude :=
  (ofRatio? significand 1).bind fun x =>
    if x.isZero then some x
    else if 0 ≤ exponent then (tenPow? exponent.toNat).bind x.mul?
    else divTenPow? 4 x (-exponent).toNat

end Magnitude
end ApprovalGate
