import ApprovalGate.Text.Digit
import ApprovalGate.Yaml.Cursor
/-!
# Tags and directives

The words that start with an exclamation mark, which name a node's type, and the lines that start with a percent sign.
-/
namespace ApprovalGate.Yaml

/-- The marks that a tag may hold besides name characters and escapes. -/
def tagMarks : List Char := ";/?:@&=+$.!~*'()".toList

/-- The bytes of a tag from here on, and how many characters they take.  Commas and brackets belong to it if
`bracketed`. -/
def tagBytes? (bracketed : Bool) : List Char → Option (List UInt8 × Nat)
  | '%' :: a :: b :: rest =>
    match Text.hexValue? a, Text.hexValue? b with
    | some x, some y =>
      (tagBytes? bracketed rest).map fun (bytes, n) => (UInt8.ofNat (16 * x.val + y.val) :: bytes, n + 3)
    | _, _ => none
  | c :: rest =>
    if c = '%' then none
    else if isNameChar c || tagMarks.contains c || (bracketed && [',', '[', ']'].contains c) then
      (tagBytes? bracketed rest).map fun (bytes, n) => (String.utf8EncodeChar c ++ bytes, n + 1)
    else some ([], 0)
  | [] => some ([], 0)

def readTagText? (bracketed : Bool) (c : Cursor) : Option (String × Cursor) := do
  let (bytes, n) ← tagBytes? bracketed c.rest
  let text ← String.fromUTF8? bytes.toByteArray
  return (text, c.skip n)

def readHandle? (c : Cursor) : Option (String × Cursor) :=
  match c.rest with
  | '!' :: rest =>
    let name := rest.takeWhile isNameChar
    let c := c.skip (name.length + 1)
    match c.rest with
    | '!' :: _ => some (String.ofList ('!' :: name ++ ['!']), c.skip 1)
    | _ => some (String.ofList ('!' :: name), c)
  | _ => none

def isClosed (handle : String) : Bool := handle != "!" && handle.toList.getLast? == some '!'

def readTag? (flow : Bool) (c : Cursor) : Option (String × String × Cursor) := do
  let (handle, suffix, c) ← match c.rest with
    | _ :: '<' :: _ => do
      let (text, c) ← readTagText? true (c.skip 2)
      if text = "" ∨ c.rest.head? ≠ some '>' then failure
      pure ("", text, c.skip 1)
    | _ => do
      let (handle, past) ← readHandle? c
      if isClosed handle then
        let (text, c) ← readTagText? false past
        if text = "" then failure
        pure (handle, text, c)
      else
        let (text, c) ← readTagText? false past
        let suffix := String.ofList handle.toList.tail ++ text
        pure (if suffix = "" then ("", "!", c) else ("!", suffix, c))
  if endsWord c.rest ∨ (flow ∧ c.rest.head? = some ',') then return (handle, suffix, c) else failure

inductive Directive where
  | version (major minor : Nat)
  | tagHandle (handle expansion : String)
deriving DecidableEq, Repr

/-- A number of at most nine digits. -/
def readVersionNumber? (c : Cursor) : Option (Nat × Cursor) :=
  let ds := c.rest.takeWhile Char.isDigit
  if ds.length ≤ 9 then (Text.decimal? ds).map fun n => (n, c.skip ds.length) else none

def readVersion? (c : Cursor) : Option (Directive × Cursor) := do
  let (major, c) ← readVersionNumber? c
  if c.rest.head? ≠ some '.' then failure
  let (minor, c) ← readVersionNumber? (c.skip 1)
  return (.version major minor, c)

def readTagDirective? (c : Cursor) : Option (Directive × Cursor) := do
  let (handle, c) ← readHandle? c
  if handle ≠ "!" ∧ !isClosed handle then failure
  if !c.rest.head?.any isSpace then failure
  let (expansion, c) ← readTagText? true (c.skipWhile isSpace)
  if expansion = "" ∨ !endsWord c.rest then failure
  return (.tagHandle handle expansion, c)

/-- Reads a directive with its line, after the percent sign. -/
def readDirective? (c : Cursor) : Option (Directive × Cursor) := do
  let name := c.rest.takeWhile isNameChar
  let c := c.skip name.length
  if name.isEmpty ∨ !endsWord c.rest then failure
  let c := c.skipWhile isSpace
  let (directive, c) ←
    if name = "YAML".toList then readVersion? c
    else if name = "TAG".toList then readTagDirective? c
    else failure
  let c := c.skipWhile isSpace
  let c := if c.rest.head? = some '#' then c.skipWhile fun d => !isBreak d else c
  if !endsLine c.rest then failure
  return (directive, c.takeBreak.2)

end ApprovalGate.Yaml
