import ApprovalGate.Decimal.Shortest
import ApprovalGate.Json.Basic
/-!
# JSON text

Two printed forms of a value: compact, without blanks, and pretty, with one item a line and two blanks for each level.
Both escape only what must be escaped.
-/
namespace ApprovalGate.Json

/-- One character inside a JSON text.  The quote, the backslash and the controls are escaped, all else stands for
itself. -/
def escapeChar (c : Char) : List Char :=
  if c = '"' then ['\\', '"']
  else if c = '\\' then ['\\', '\\']
  else if c = '\n' then ['\\', 'n']
  else if c = '\r' then ['\\', 'r']
  else if c = '\t' then ['\\', 't']
  else if c = '\x08' then ['\\', 'b']
  else if c = '\x0c' then ['\\', 'f']
  else if c.toNat < 0x20 then
    ['\\', 'u', '0', '0', Text.hexDigit (Text.nibble (c.toNat / 16)), Text.hexDigit (Text.nibble c.toNat)]
  else [c]

def writeString (s : String) : List Char := '"' :: (s.toList.flatMap escapeChar ++ ['"'])

def writeInt (n : Int) : List Char := if n < 0 then '-' :: Text.decimal n.natAbs else Text.decimal n.natAbs

mutual
def write : Json → List Char
  | .null => ['n', 'u', 'l', 'l']
  | .bool true => ['t', 'r', 'u', 'e']
  | .bool false => ['f', 'a', 'l', 's', 'e']
  | .int n => writeInt n
  | .real x => x.write
  | .str s => writeString s
  | .arr [] => ['[', ']']
  | .arr (x :: xs) => '[' :: (write x ++ writeItems xs)
  | .obj [] => ['\x7b', '\x7d']
  | .obj ((k, v) :: rest) => '\x7b' :: (writeString k ++ ':' :: (write v ++ writeMembers rest))

def writeItems : List Json → List Char
  | [] => [']']
  | x :: xs => ',' :: (write x ++ writeItems xs)

def writeMembers : List (String × Json) → List Char
  | [] => ['\x7d']
  | (k, v) :: rest => ',' :: (writeString k ++ ':' :: (write v ++ writeMembers rest))
end

def newline (level : Nat) : List Char := '\n' :: List.replicate (2 * level) ' '

mutual
def writePretty (level : Nat) : Json → List Char
  | .null => ['n', 'u', 'l', 'l']
  | .bool true => ['t', 'r', 'u', 'e']
  | .bool false => ['f', 'a', 'l', 's', 'e']
  | .int n => writeInt n
  | .real x => x.write
  | .str s => writeString s
  | .arr [] => ['[', ']']
  | .arr (x :: xs) => '[' :: (newline (level + 1) ++ (writePretty (level + 1) x ++ writePrettyItems level xs))
  | .obj [] => ['\x7b', '\x7d']
  | .obj ((k, v) :: rest) =>
    '\x7b' :: (newline (level + 1) ++
      (writeString k ++ ':' :: ' ' :: (writePretty (level + 1) v ++ writePrettyMembers level rest)))

def writePrettyItems (level : Nat) : List Json → List Char
  | [] => newline level ++ [']']
  | x :: xs => ',' :: (newline (level + 1) ++ (writePretty (level + 1) x ++ writePrettyItems level xs))

def writePrettyMembers (level : Nat) : List (String × Json) → List Char
  | [] => newline level ++ ['\x7d']
  | (k, v) :: rest =>
    ',' :: (newline (level + 1) ++
      (writeString k ++ ':' :: ' ' :: (writePretty (level + 1) v ++ writePrettyMembers level rest)))
end

def compact (v : Json) : String := String.ofList v.write

def pretty (v : Json) : String := String.ofList (v.writePretty 0)

end ApprovalGate.Json
