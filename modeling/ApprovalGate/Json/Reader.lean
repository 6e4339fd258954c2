import ApprovalGate.Decimal.Binary64
import ApprovalGate.Json.Basic
import ApprovalGate.Text.Digit
/-!
# Reading JSON

A text is read as one value with blanks around it.  Arrays and objects nest at most 127 deep, escapes must name
characters, and a number must not be too large for a double.
-/
namespace ApprovalGate.Json

def maxDepth : Nat := 127

def isJsonBlank (c : Char) : Bool := c == ' ' || c == '\n' || c == '\t' || c == '\r'

def skipBlank (cs : List Char) : List Char := cs.dropWhile isJsonBlank

/-- The code unit written by four hexadecimal digits. -/
def readUnit? : List Char → Option (Nat × List Char)
  | a :: b :: c :: d :: rest => do
    let a ← Text.hexValue? a
    let b ← Text.hexValue? b
    let c ← Text.hexValue? c
    let d ← Text.hexValue? d
    return (((a.val * 16 + b.val) * 16 + c.val) * 16 + d.val, rest)
  | _ => none

/-- The character of an escape by code unit.  A unit above the surrogates or below stands alone, a leading surrogate
needs an escaped trailing one after it. -/
def readUnicode? (cs : List Char) : Option (Char × List Char) :=
  match readUnit? cs with
  | none => none
  | some (n, rest) =>
    if 0xDC00 ≤ n ∧ n ≤ 0xDFFF then none
    else if 0xD800 ≤ n ∧ n ≤ 0xDBFF then
      match rest with
      | '\\' :: 'u' :: rest =>
        match readUnit? rest with
        | some (m, rest) =>
          if 0xDC00 ≤ m ∧ m ≤ 0xDFFF then some (Char.ofNat (0x10000 + (n - 0xD800) * 0x400 + (m - 0xDC00)), rest)
          else none
        | none => none
      | _ => none
    else some (Char.ofNat n, rest)

def readEscape? : List Char → Option (Char × List Char)
  | '"' :: rest => some ('"', rest)
  | '\\' :: rest => some ('\\', rest)
  | '/' :: rest => some ('/', rest)
  | 'b' :: rest => some ('\x08', rest)
  | 'f' :: rest => some ('\x0c', rest)
  | 'n' :: rest => some ('\n', rest)
  | 'r' :: rest => some ('\r', rest)
  | 't' :: rest => some ('\t', rest)
  | 'u' :: rest => readUnicode? rest
  | _ => none

/-- The rest of a string after its opening quote: the characters up to the closing one, reversed in `done`.  Each step
uses up a character, so `fuel` is the length of the text. -/
def readChars? : (fuel : Nat) → (done : List Char) → List Char → Option (String × List Char)
  | 0, _, _ => none
  | _, _, [] => none
  | fuel + 1, done, c :: rest =>
    if c = '"' then some (String.ofList done.reverse, rest)
    else if c = '\\' then
      match readEscape? rest with
      | some (d, rest) => readChars? fuel (d :: done) rest
      | none => none
    else if c.toNat < 0x20 then none
    else readChars? fuel (c :: done) rest

def readString? (cs : List Char) : Option (String × List Char) := readChars? (cs.length + 1) [] cs

/-- The digits of a number without its sign: before the point, after it, and the exponent. -/
structure NumberText where
  whole : List Char
  fraction : List Char
  exponent : Option Int
deriving Repr

def takeDigits (cs : List Char) : List Char × List Char := (cs.takeWhile Char.isDigit, cs.dropWhile Char.isDigit)

def readExponent? : List Char → Option (Option Int × List Char)
  | [] => some (none, [])
  | e :: rest =>
    if e = 'e' ∨ e = 'E' then
      let (negative, rest) := match rest with
        | '-' :: rest => (true, rest)
        | '+' :: rest => (false, rest)
        | rest => (false, rest)
      match takeDigits rest with
      | ([], _) => none
      | (ds, rest) =>
        let n := Nat.ofDigitChars 10 ds 0
        some (some (if negative then -(n : Int) else n), rest)
    else some (none, e :: rest)

/-- The digits of a number: no leading zero before another digit, and at least one digit around a point. -/
def readNumberText? (cs : List Char) : Option (NumberText × List Char) :=
  match takeDigits cs with
  | ([], _) => none
  | ('0' :: _ :: _, _) => none
  | (whole, '.' :: rest) =>
    match takeDigits rest with
    | ([], _) => none
    | (fraction, rest) => (readExponent? rest).map fun (e, rest) => (⟨whole, fraction, e⟩, rest)
  | (whole, rest) => (readExponent? rest).map fun (e, rest) => (⟨whole, [], e⟩, rest)

/-- Takes digits into a significand of 64 bits.  The digits from the first that does not fit are left over. -/
def fitDigits : (significand : Nat) → List Char → Nat × List Char
  | m, [] => (m, [])
  | m, d :: ds =>
    let m' := m * 10 + (d.toNat - 48)
    if m' < Nat.pow 2 64 then fitDigits m' ds else (m, d :: ds)

/-- The number written by digits.  An integer that fits in 64 bits stays one; else the digits on either side of the
point that do not fit in the significand are dropped, and the rest is scaled by its power of ten. -/
def NumberText.value? (negative : Bool) (t : NumberText) : Option Json :=
  let (m, dropped) := fitDigits 0 t.whole
  if dropped.isEmpty ∧ t.fraction.isEmpty ∧ t.exponent.isNone then
    if !negative then some (.int m)
    else if 0 < m ∧ m ≤ Nat.pow 2 63 then some (.int (-m))
    else (Magnitude.ofDecimal? m 0).map fun x => .real ⟨true, x⟩
  else
    let (m, rest) := fitDigits m t.fraction
    let places := t.fraction.length - rest.length
    let e : Int := (dropped.length : Int) - places + t.exponent.getD 0
    (Magnitude.ofDecimal? m e).map fun x => .real ⟨negative, x⟩

def readNumber? (cs : List Char) : Option (Json × List Char) :=
  let (negative, cs) := match cs with
    | '-' :: rest => (true, rest)
    | cs => (false, cs)
  match readNumberText? cs with
  | some (t, rest) => (t.value? negative).map (·, rest)
  | none => none

mutual
/-- A value without blanks before it.  `depth` is how deep arrays and objects may still nest.  No two calls in a row
leave the text as it is, so twice its length and two more is fuel enough. -/
def readValue? : (fuel depth : Nat) → List Char → Option (Json × List Char)
  | 0, _, _ => none
  | fuel + 1, depth, cs => match cs with
    | 'n' :: 'u' :: 'l' :: 'l' :: rest => some (.null, rest)
    | 't' :: 'r' :: 'u' :: 'e' :: rest => some (.bool true, rest)
    | 'f' :: 'a' :: 'l' :: 's' :: 'e' :: rest => some (.bool false, rest)
    | '"' :: rest => (readString? rest).map fun (s, rest) => (.str s, rest)
    | '[' :: rest =>
      if depth = 0 then none
      else match skipBlank rest with
        | ']' :: rest => some (.arr [], rest)
        | rest => (readItems? fuel (depth - 1) rest).map fun (xs, rest) => (.arr xs, rest)
    | '\x7b' :: rest =>
      if depth = 0 then none
      else match skipBlank rest with
        | '\x7d' :: rest => some (.obj [], rest)
        | rest => (readMembers? fuel (depth - 1) rest).map fun (ms, rest) => (.obj ms, rest)
    | cs => readNumber? cs

def readItems? : (fuel depth : Nat) → List Char → Option (List Json × List Char)
  | 0, _, _ => none
  | fuel + 1, depth, cs => match readValue? fuel depth (skipBlank cs) with
    | none => none
    | some (x, rest) => match skipBlank rest with
      | ']' :: rest => some ([x], rest)
      | ',' :: rest => (readItems? fuel depth rest).map fun (xs, rest) => (x :: xs, rest)
      | _ => none

def readMembers? : (fuel depth : Nat) → List Char → Option (List (String × Json) × List Char)
  | 0, _, _ => none
  | fuel + 1, depth, cs => match skipBlank cs with
    | '"' :: rest => match readString? rest with
      | none => none
      | some (k, rest) => match skipBlank rest with
        | ':' :: rest => match readValue? fuel depth (skipBlank rest) with
          | none => none
          | some (v, rest) => match skipBlank rest with
            | '\x7d' :: rest => some ([(k, v)], rest)
            | ',' :: rest => (readMembers? fuel depth rest).map fun (ms, rest) => ((k, v) :: ms, rest)
            | _ => none
        | _ => none
    | _ => none
end

/-- The value written by a whole text, members as written. -/
def read? (s : String) : Option Json :=
  let cs := s.toList
  match readValue? (2 * cs.length + 2) maxDepth (skipBlank cs) with
  | some (v, rest) => if (skipBlank rest).isEmpty then some v else none
  | none => none

/-- The value written by a whole text, in normal form. -/
def parse? (s : String) : Option Json := (read? s).map normal

end ApprovalGate.Json
