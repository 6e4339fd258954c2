import ApprovalGate.Text.Digit
/-!
# Identifiers

An identifier of 128 bits is 32 hexadecimal digits.  It is written in lower case, in five groups joined by hyphens, and
read in four forms.  The name of an execution is one of them, shown to people with `exec_` in front.
-/
namespace ApprovalGate

structure Uuid where
  digits : List (Fin 16)
  length_digits : digits.length = 32
deriving DecidableEq, Repr

namespace Uuid

instance : Inhabited Uuid := ⟨⟨List.replicate 32 (Text.nibble 0), by simp⟩⟩

def simple (u : Uuid) : List Char := u.digits.map Text.hexDigit

def hyphenated (u : Uuid) : List Char :=
  let ds := u.simple
  ds.take 8 ++ '-' :: (ds.drop 8).take 4 ++ '-' :: (ds.drop 12).take 4 ++ '-' :: (ds.drop 16).take 4 ++
    '-' :: ds.drop 20

def text (u : Uuid) : String := String.ofList u.hyphenated

def ofDigits? (ds : List (Fin 16)) : Option Uuid := if h : ds.length = 32 then some ⟨ds, h⟩ else none

def readSimple? (cs : List Char) : Option Uuid := (cs.mapM Text.hexValue?).bind ofDigits?

def readHyphenated? (cs : List Char) : Option Uuid :=
  let groups := [cs.take 8, (cs.drop 9).take 4, (cs.drop 14).take 4, (cs.drop 19).take 4, cs.drop 24]
  if cs.length = 36 ∧ cs[8]? = some '-' ∧ cs[13]? = some '-' ∧ cs[18]? = some '-' ∧ cs[23]? = some '-' then
    readSimple? groups.flatten
  else none

/-- Reads the digits in a row, or hyphenated, then also in braces or after `urn:uuid:`. -/
def read? (s : String) : Option Uuid :=
  let cs := s.toList
  if cs.length = 32 then readSimple? cs
  else if cs.length = 36 then readHyphenated? cs
  else if cs.head? = some '\x7b' ∧ cs.getLast? = some '\x7d' then readHyphenated? cs.tail.dropLast
  else if ['u', 'r', 'n', ':', 'u', 'u', 'i', 'd', ':'].isPrefixOf cs then readHyphenated? (cs.drop 9)
  else none

/-- The identifier that writes a number in decimal, zeros before it. -/
def numbered (n : Nat) : Uuid :=
  (((Text.decimalPadded 32 n).mapM Text.hexValue?).bind ofDigits?).getD default

end Uuid

/-- The name of a suspended unit of work. -/
structure ExecutionId where
  uuid : Uuid
deriving DecidableEq, Repr, Inhabited

namespace ExecutionId

/-- What stands in front of an identifier that is shown. -/
def mark : List Char := ['e', 'x', 'e', 'c', '_']

def text (e : ExecutionId) : String := String.ofList (mark ++ e.uuid.hyphenated)

def parse? (s : String) : Option ExecutionId :=
  let cs := s.toList
  (Uuid.read? (if mark.isPrefixOf cs then String.ofList (cs.drop 5) else s)).map ExecutionId.mk

end ExecutionId
end ApprovalGate
