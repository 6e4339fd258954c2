import ApprovalGate.Text.Digit
import ApprovalGate.Text.Split
/-!
# Network addresses

Addresses of Internet hosts, read and written.  An address of eight groups is written without its longest run of zero
groups.
-/
namespace ApprovalGate

inductive IpAddress where
  | v4 (bytes : List Nat)
  | v6 (groups : List Nat)
deriving DecidableEq, Repr

namespace IpAddress

/-! ## Reading -/

def readByte? (cs : List Char) : Option (Nat × List Char) :=
  let ds := cs.takeWhile Char.isDigit
  match Text.decimal? ds with
  | none => none
  | some n =>
    if ds.length ≤ 3 ∧ n < 256 ∧ (ds.length = 1 ∨ ds.head? ≠ some '0') then some (n, cs.dropWhile Char.isDigit)
    else none

/-- What stands before the item at an index: nothing before the first, the mark before every other. -/
def readSeparator? (mark : Char) (index : Nat) (cs : List Char) : Option (List Char) :=
  if index = 0 then some cs
  else match cs with
    | c :: rest => if c = mark then some rest else none
    | [] => none

def readBytes? : (n index : Nat) → List Char → Option (List Nat × List Char)
  | 0, _, cs => some ([], cs)
  | n + 1, index, cs => do
    let cs ← readSeparator? '.' index cs
    let (b, cs) ← readByte? cs
    let (bs, cs) ← readBytes? n (index + 1) cs
    return (b :: bs, cs)

def isHexDigit (c : Char) : Bool := (Text.hexValue? c).isSome

def readGroup? (cs : List Char) : Option (Nat × List Char) :=
  let ds := cs.takeWhile isHexDigit
  if ds.isEmpty ∨ 4 < ds.length then none
  else (ds.mapM Text.hexValue?).map fun values =>
    (values.foldl (fun n d => n * 16 + d.val) 0, cs.dropWhile isHexDigit)

/-- As many groups as there are, up to a limit, joined by colons; four bytes may stand for the last two.  Whether they
did is part of the answer. -/
def readGroups : (limit index : Nat) → List Char → List Nat × Bool × List Char
  | 0, _, cs => ([], false, cs)
  | limit + 1, index, cs =>
    let bytes := if limit = 0 then none else (readSeparator? ':' index cs).bind (readBytes? 4 0)
    match bytes with
    | some ([a, b, c, d], rest) => ([a * 256 + b, c * 256 + d], true, rest)
    | _ => match (readSeparator? ':' index cs).bind readGroup? with
      | none => ([], false, cs)
      | some (g, rest) =>
        let (gs, mixed, rest) := readGroups limit (index + 1) rest
        (g :: gs, mixed, rest)

/-- Eight groups, of which two colons may stand for one or more zero groups. -/
def readV6? (cs : List Char) : Option (List Nat × List Char) :=
  match readGroups 8 0 cs with
  | (front, mixed, rest) =>
    if front.length = 8 then some (front, rest)
    else if mixed then none
    else match rest with
      | ':' :: ':' :: rest =>
        let (back, _, rest) := readGroups (7 - front.length) 0 rest
        some (front ++ List.replicate (8 - front.length - back.length) 0 ++ back, rest)
      | _ => none

def read? (s : String) : Option IpAddress :=
  match readBytes? 4 0 s.toList with
  | some (bytes, []) => some (.v4 bytes)
  | _ => match readV6? s.toList with
    | some (groups, []) => some (.v6 groups)
    | _ => none

/-! ## Writing -/

def join (mark : Char) : List (List Char) → List Char
  | [] => []
  | [part] => part
  | part :: parts => part ++ mark :: join mark parts

def writeBytes (bytes : List Nat) : List Char := join '.' (bytes.map Text.decimal)

def writeGroups (groups : List Nat) : List Char := join ':' (groups.map Text.hex)

def zeros (groups : List Nat) : Nat := (groups.takeWhile (· == 0)).length

/-- The place and the length of the first longest run of zero groups. -/
def longestZeros : (index : Nat) → List Nat → Nat × Nat
  | _, [] => (0, 0)
  | index, g :: gs =>
    let (start, length) := longestZeros (index + 1) gs
    let here := zeros (g :: gs)
    if length ≤ here then (index, here) else (start, length)

def writeV6 (groups : List Nat) : List Char :=
  match groups with
  | [0, 0, 0, 0, 0, 0xFFFF, a, b] => "::ffff:".toList ++ writeBytes [a / 256, a % 256, b / 256, b % 256]
  | _ =>
    let (start, length) := longestZeros 0 groups
    if 1 < length then writeGroups (groups.take start) ++ ':' :: ':' :: writeGroups (groups.drop (start + length))
    else writeGroups groups

def unspecified : IpAddress := v4 [0, 0, 0, 0]

def withPort (a : IpAddress) (port : Nat) : String := String.ofList <|
  (match a with
   | v4 bytes => writeBytes bytes
   | v6 groups => '[' :: (writeV6 groups ++ [']'])) ++ ':' :: Text.decimal port

end IpAddress

def listenAddress (host : String) (port : Nat) : String :=
  ((IpAddress.read? host).getD IpAddress.unspecified).withPort port

end ApprovalGate
