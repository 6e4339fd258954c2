import ApprovalGate.Text.Digit
import ApprovalGate.Text.Split
import ApprovalGate.Time.Instant
/-!
# Timestamps

The written form of an instant: date, `T`, time of day and offset.  Writing gives the fewest fraction digits of 0, 3,
6 and 9 that are exact.  Reading is lenient about blanks, about digits left out and about the offset's form.
-/
namespace ApprovalGate.Instant

/-- A year of four digits, or with a sign when it needs more or is negative. -/
def writeYear (y : Int) : List Char :=
  if 0 ≤ y ∧ y ≤ 9999 then Text.decimalPadded 4 y.toNat
  else (if y < 0 then '-' else '+') :: Text.decimalPadded 4 y.natAbs

def writeFraction (nano : Nat) : List Char :=
  if nano = 0 then []
  else if nano % 1000000 = 0 then '.' :: Text.decimalPadded 3 (nano / 1000000)
  else if nano % 1000 = 0 then '.' :: Text.decimalPadded 6 (nano / 1000)
  else '.' :: Text.decimalPadded 9 nano

/-- The timestamp with the text that stands for the offset zero. -/
def writeWith (zero : List Char) (t : Instant) : List Char :=
  let date := Date.ofDay t.day
  let s := t.secondOfDay
  let second := s % 60 + t.nano / 1000000000
  writeYear date.year ++ '-' :: Text.decimalPadded 2 date.month ++ '-' :: Text.decimalPadded 2 date.day ++
    'T' :: Text.decimalPadded 2 (s / 3600) ++ ':' :: Text.decimalPadded 2 (s / 60 % 60) ++
    ':' :: Text.decimalPadded 2 second ++ writeFraction (t.nano % 1000000000) ++ zero

def write (t : Instant) : String := String.ofList (t.writeWith ['Z'])

def writeNumeric (t : Instant) : String := String.ofList (t.writeWith ['+', '0', '0', ':', '0', '0'])

/-! ## Reading -/

def skipBlank (cs : List Char) : List Char := cs.dropWhile Text.isBlank

def readNumber? (width : Nat) (cs : List Char) : Option (Nat × List Char) :=
  match (cs.take width).takeWhile Char.isDigit with
  | [] => none
  | ds => some (Nat.ofDigitChars 10 ds 0, cs.drop ds.length)

/-- A number from `low` to `high`, blanks before it. -/
def readField? (width low high : Nat) (cs : List Char) : Option (Nat × List Char) :=
  (readNumber? width (skipBlank cs)).filter fun (n, _) => low ≤ n && n ≤ high

/-- A year: with a sign any number of digits, without one at most four. -/
def readYear? (cs : List Char) : Option (Int × List Char) :=
  match skipBlank cs with
  | '-' :: rest => (readNumber? rest.length rest).map fun (n, rest) => (-(n : Int), rest)
  | '+' :: rest => (readNumber? rest.length rest).map fun (n, rest) => ((n : Int), rest)
  | cs => (readNumber? 4 cs).map fun (n, rest) => ((n : Int), rest)

/-- A separator, blanks before it. -/
def readMark? (mark : Char) (cs : List Char) : Option (List Char) :=
  match skipBlank cs with
  | c :: rest => if c = mark then some rest else none
  | [] => none

/-- The nanoseconds after a point, none when there is no point.  Digits past the ninth are dropped. -/
def readFraction? : List Char → Option (Nat × List Char)
  | '.' :: rest =>
    match (rest.take 9).takeWhile Char.isDigit with
    | [] => none
    | ds => some (Nat.ofDigitChars 10 ds 0 * Nat.pow 10 (9 - ds.length), rest.dropWhile Char.isDigit)
  | cs => some (0, cs)

def readPair? : List Char → Option (Nat × List Char)
  | a :: b :: rest =>
    if a.isDigit ∧ b.isDigit then some ((a.toNat - 48) * 10 + (b.toNat - 48), rest) else none
  | _ => none

/-- The offset in seconds east: `Z`, `UTC`, or a sign, hours and minutes. -/
def readOffset? (cs : List Char) : Option (Int × List Char) :=
  if (cs.take 3).map Char.toUpper = ['U', 'T', 'C'] then some (0, cs.drop 3)
  else match cs with
    | [] => none
    | sign :: rest =>
      if sign = 'Z' ∨ sign = 'z' then some (0, rest)
      else if sign = '+' ∨ sign = '-' ∨ sign = '\u2212' then do
        let (hours, rest) ← readPair? rest
        let (minutes, rest) ← readPair? (rest.dropWhile fun c => c == ':' || Text.isBlank c)
        if 59 < minutes ∨ 24 ≤ hours then none
        else
          let seconds : Int := hours * 3600 + minutes * 60
          return (if sign = '+' then seconds else -seconds, rest)
      else none

def readChars? (cs : List Char) : Option Instant := do
  let (year, cs) ← readYear? cs
  let cs ← readMark? '-' cs
  let (month, cs) ← readField? 2 1 12 cs
  let cs ← readMark? '-' cs
  let (day, cs) ← readField? 2 1 31 cs
  let cs ← match cs with
    | c :: rest => if c = 'T' ∨ c = 't' ∨ c = ' ' then some rest else none
    | [] => none
  let (hour, cs) ← readField? 2 0 23 cs
  let cs ← readMark? ':' cs
  let (minute, cs) ← readField? 2 0 59 cs
  let cs ← readMark? ':' cs
  let (second, cs) ← readField? 2 0 60 cs
  let (nano, cs) ← readFraction? cs
  let (offset, cs) ← readOffset? (skipBlank cs)
  let date : Date := ⟨year, month, day⟩
  if !(skipBlank cs).isEmpty ∨ !date.isValid ∨ year < -262143 ∨ 262142 < year then none
  else
    let (second, nano) := if second = 60 then (59, nano + 1000000000) else (second, nano)
    ofParts? (date.toDay * 86400 + (hour * 3600 + minute * 60 + second : Nat) - offset) nano

def read? (s : String) : Option Instant := readChars? s.toList

end ApprovalGate.Instant
