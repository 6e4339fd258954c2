import ApprovalGate.Text.Digit
/-!
# Percent-encoding

Texts as they stand in URLs: every byte of a character that is not unreserved becomes a percent sign and two
hexadecimal digits.  Decoding leaves a percent sign alone that no two digits follow.
-/
namespace ApprovalGate.Text.Percent

/-- The characters that need no escape: ASCII letters and digits and four marks. -/
def isUnreserved (c : Char) : Bool := c.isAlphanum || c == '.' || c == '_' || c == '~' || c == '-'

def escapeByte (b : UInt8) : List Char :=
  ['%', hexDigitUpper (nibble (b.toNat / 16)), hexDigitUpper (nibble b.toNat)]

def escapeChar (c : Char) : List Char := (String.utf8EncodeChar c).flatMap escapeByte

def encodeChars (cs : List Char) : List Char := cs.flatMap fun c => if isUnreserved c then [c] else escapeChar c

def encode (s : String) : String := String.ofList (encodeChars s.toList)

def decodeBytes : List Char → List UInt8
  | [] => []
  | '%' :: a :: b :: rest =>
    match hexValue? a, hexValue? b with
    | some x, some y => UInt8.ofNat (16 * x.val + y.val) :: decodeBytes rest
    | _, _ => 0x25 :: decodeBytes (a :: b :: rest)
  | c :: rest => String.utf8EncodeChar c ++ decodeBytes rest

/-- The text that a text stands for, if its bytes are one. -/
def decodeChars? (cs : List Char) : Option String := String.fromUTF8? (decodeBytes cs).toByteArray

def decode? (s : String) : Option String := decodeChars? s.toList

end ApprovalGate.Text.Percent
