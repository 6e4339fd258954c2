import ApprovalGate.Decimal.Binary64
import ApprovalGate.Text.Digit
/-!
# Shortest decimals

The fewest decimal digits that still lie nearer to a double than to any other, and of those the nearest to it.  The
text writes them positionally between `10 ^ -5` and `10 ^ 16` and with an exponent elsewhere.
-/
namespace ApprovalGate.Magnitude

/-- The fractions that round to a magnitude: its two ends over one denominator, and whether the ends belong to it. -/
structure RoundingInterval where
  low : Nat
  value : Nat
  high : Nat
  den : Nat
  closed : Bool

/-- Half the distance to each neighbour.  Below a power of two the neighbour is twice as close. -/
def roundingInterval (x : Magnitude) : RoundingInterval :=
  let (n, d) := x.toRatio
  let (u, e) := shifted 1 1 (-x.exponent)
  let narrow := x.mantissa == Nat.pow 2 52 && decide (-1074 < x.exponent)
  -- over the denominator `4 · d · e` the value is `4 · n · e` and one unit of the mantissa `4 · u · d`
  let unit := u * d
  { low := 4 * n * e - (if narrow then unit else 2 * unit), value := 4 * n * e, high := 4 * n * e + 2 * unit
    den := 4 * d * e, closed := x.mantissa % 2 == 0 }

def RoundingInterval.contains (i : RoundingInterval) (num den : Nat) : Bool :=
  if i.closed then i.low * den ≤ num * i.den && num * i.den ≤ i.high * den
  else i.low * den < num * i.den && num * i.den < i.high * den

/-- The decimal `digits · 10 ^ exponent` as a fraction. -/
def decimalRatio (digits : Nat) (exponent : Int) : Nat × Nat :=
  if 0 ≤ exponent then (digits * Nat.pow 10 exponent.toNat, 1) else (digits, Nat.pow 10 (-exponent).toNat)

/-- The exponent of the leading decimal digit of a positive fraction. -/
def leadingExponent (num den : Nat) : Int :=
  if den ≤ num then ((Text.decimal (num / den)).length : Int) - 1
  else -((List.range 400).find? fun j => den ≤ num * Nat.pow 10 j).getD 400

/-- The decimal with the grid `10 ^ exponent` that lies in the interval, the one nearer to the value of the two beside
it. -/
def RoundingInterval.onGrid? (i : RoundingInterval) (exponent : Int) : Option Nat :=
  let (n, d) := decimalRatio 1 exponent
  -- the value in units of the grid is `value · d / (den · n)`
  let below := i.value * d / (i.den * n)
  let inside (k : Nat) : Bool := let (a, b) := decimalRatio k exponent; i.contains a b
  let rest := 2 * (i.value * d % (i.den * n))
  let nearer := if rest < i.den * n ∨ (rest = i.den * n ∧ below % 2 = 0) then below else below + 1
  let other := if nearer = below then below + 1 else below
  if inside nearer then some nearer else if inside other then some other else none

/-- The shortest decimal for a magnitude other than zero, as digits and an exponent of ten. -/
def shortest (x : Magnitude) : Nat × Int :=
  let i := x.roundingInterval
  let lead := leadingExponent i.value i.den
  ((List.range 17).findSome? fun (k : Nat) =>
    (i.onGrid? (lead - k)).map fun digits => (digits, lead - (k : Int))).getD (0, 0)

/-- Digits and exponent without trailing zeros in the digits. -/
def stripZeros (digits : List Char) (exponent : Int) : List Char × Int :=
  let zeros := (digits.reverse.takeWhile (· == '0')).length
  (digits.take (digits.length - zeros), exponent + zeros)

/-- Writes `digits · 10 ^ exponent`: positionally, always with a fraction, when the point falls within sixteen digits
and at most four zeros follow it, else with an exponent. -/
def writeDecimal (digits : List Char) (exponent : Int) : List Char :=
  let point : Int := digits.length + exponent
  if 0 ≤ exponent ∧ point ≤ 16 then digits ++ List.replicate exponent.toNat '0' ++ ['.', '0']
  else if 0 < point ∧ point ≤ 16 then digits.take point.toNat ++ ['.'] ++ digits.drop point.toNat
  else if -5 < point ∧ point ≤ 0 then ['0', '.'] ++ List.replicate (-point).toNat '0' ++ digits
  else
    let mantissa := match digits with
      | [] => []
      | [d] => [d]
      | d :: ds => d :: '.' :: ds
    let e := point - 1
    mantissa ++ ['e', if e < 0 then '-' else '+'] ++ Text.decimal e.natAbs

def write (x : Magnitude) : List Char :=
  if x.isZero then ['0', '.', '0']
  else
    let (digits, exponent) := x.shortest
    let (digits, exponent) := stripZeros (Text.decimal digits) exponent
    writeDecimal digits exponent

end ApprovalGate.Magnitude

namespace ApprovalGate.Binary64

def write (x : Binary64) : List Char := (if x.negative then ['-'] else []) ++ x.magnitude.write

end ApprovalGate.Binary64
