import ApprovalGate.Text.Digit
import ApprovalGate.Yaml.Folding
/-!
# Scalars

The texts of a YAML document: plain ones, quoted ones and blocks of lines.
-/
namespace ApprovalGate.Yaml

/-! ## Plain scalars -/

/-- The marks that end a plain scalar within brackets. -/
def isFlowMark (c : Char) : Bool := c == ',' || c == '[' || c == ']' || c == '\x7b' || c == '\x7d'

/-- The word of a plain scalar that starts here.  Within brackets a colon must not stand before a mark. -/
def plainWord? (flow : Bool) : List Char → Option (List Char)
  | [] => some []
  | c :: rest =>
    if isSpace c || isBreak c then some []
    else if flow && c == ':' && rest.head?.any (fun d => d == '?' || isFlowMark d) then none
    else if (c == ':' && endsWord rest) || (flow && isFlowMark c) then some []
    else (plainWord? flow rest).map (c :: ·)

/-- A plain scalar's text, whether a line break came after it, and the place past both. -/
def readPlainWithin (flow : Bool) (margin : Nat) :
    (fuel : Nat) → (text : List Char) → Option Gap → Cursor → Option (List Char × Bool × Cursor)
  | 0, _, _, _ => none
  | fuel + 1, text, gap, c =>
    let broken (gap : Option Gap) : Bool := gap.any Gap.broken
    if c.atDocument ∨ c.rest.head? = some '#' then some (text, broken gap, c)
    else match plainWord? flow c.rest with
      | none => none
      | some word =>
        let text := if word.isEmpty then text else text ++ (gap.map Gap.text).getD [] ++ word
        let gap := if word.isEmpty then gap else none
        let c := c.skip word.length
        if c.rest.isEmpty ∨ !endsWord c.rest then some (text, broken gap, c)
        else match Gap.read margin false c with
          | none => none
          | some (gap, c) =>
            if !flow ∧ c.column < margin then some (text, gap.broken, c)
            else readPlainWithin flow margin fuel text (some gap) c

/-- Reads a plain scalar whose further lines must reach `margin`. -/
def readPlain (flow : Bool) (margin : Nat) (c : Cursor) : Option (List Char × Bool × Cursor) :=
  readPlainWithin flow margin (c.rest.length + 1) [] none c

/-! ## Quoted scalars -/

/-- The character of an escape by code point, written in `width` hexadecimal digits. -/
def codePoint? (width : Nat) (cs : List Char) : Option Char := do
  let values ← (cs.take width).mapM Text.hexValue?
  let n := values.foldl (fun n d => n * 16 + d.val) 0
  if values.length = width ∧ n.isValidChar then some (Char.ofNat n) else none

/-- The character that an escape stands for, and the length of the escape after its backslash. -/
def escaped? : List Char → Option (Char × Nat)
  | [] => none
  | c :: rest => match c with
    | '0' => some ('\x00', 1)
    | 'a' => some ('\x07', 1)
    | 'b' => some ('\x08', 1)
    | 't' | '\t' => some ('\t', 1)
    | 'n' => some ('\n', 1)
    | 'v' => some ('\x0b', 1)
    | 'f' => some ('\x0c', 1)
    | 'r' => some ('\r', 1)
    | 'e' => some ('\x1b', 1)
    | ' ' | '"' | '/' | '\\' => some (c, 1)
    | 'N' => some ('\u0085', 1)
    | '_' => some ('\u00a0', 1)
    | 'L' => some ('\u2028', 1)
    | 'P' => some ('\u2029', 1)
    | 'x' => (codePoint? 2 rest).map (·, 3)
    | 'u' => (codePoint? 4 rest).map (·, 5)
    | 'U' => (codePoint? 8 rest).map (·, 9)
    | _ => none

/-- What a quoted scalar goes on with. -/
inductive QuotedPart where
  | close
  /-- Some characters of the text that take up so many of the line. -/
  | chars (cs : List Char) (width : Nat)
  /-- A line break that is escaped, after so many characters. -/
  | hiddenBreak
  | gap
deriving DecidableEq, Repr

/-- The next part of a quoted scalar, unless it breaks off or has a bad escape. -/
def quotedPart? (single : Bool) : List Char → Option QuotedPart
  | [] => none
  | c :: rest =>
    if isSpace c || isBreak c then some .gap
    else if single then
      if c = '\'' then (if rest.head? = some '\'' then some (.chars [c] 2) else some .close) else some (.chars [c] 1)
    else if c = '"' then some .close
    else if c = '\\' then
      if rest.head?.any isBreak then some .hiddenBreak
      else (escaped? rest).map fun (d, n) => .chars [d] (n + 1)
    else some (.chars [c] 1)

/-- A quoted scalar's text up to its closing quote. -/
def readQuotedWithin (single : Bool) : (fuel : Nat) → (text : List Char) → Cursor → Option (List Char × Cursor)
  | 0, _, _ => none
  | fuel + 1, text, c =>
    if c.atDocument then none
    else match quotedPart? single c.rest with
      | none => none
      | some .close => some (text, c.skip 1)
      | some (.chars cs n) => readQuotedWithin single fuel (text ++ cs) (c.skip n)
      | some .hiddenBreak => (Gap.read 0 true (c.skip 1).takeBreak.2).bind fun (g, c) =>
        readQuotedWithin single fuel (text ++ g.text) c
      | some .gap => (Gap.read 0 false c).bind fun (g, c) => readQuotedWithin single fuel (text ++ g.text) c

/-- Reads a quoted scalar after its opening quote. -/
def readQuoted (single : Bool) (c : Cursor) : Option (List Char × Cursor) :=
  readQuotedWithin single (c.rest.length + 1) [] c

/-! ## Block scalars -/

/-- What a block does with the line breaks at its end. -/
inductive Chomping where
  | strip
  | clip
  | keep
deriving DecidableEq, Repr

/-- How a block says that it is to be read: its chomping, and its indentation if that is not to be found out. -/
structure BlockHeader where
  chomping : Chomping
  indentation : Option Nat
deriving DecidableEq, Repr

def chompingMark? : Char → Option Chomping
  | '+' => some .keep
  | '-' => some .strip
  | _ => none

/-- The indentation that a digit gives, which is not zero. -/
def indentationMark? (c : Char) : Option Nat := if c.isDigit ∧ c ≠ '0' then some (c.toNat - 48) else none

/-- The header of a block and its length: chomping and indentation in either order, both optional. -/
def readHeader? (cs : List Char) : Option (BlockHeader × Nat) :=
  let chomping := cs.head?.bind chompingMark?
  let rest := if chomping.isSome then cs.tail else cs
  match rest with
  | d :: rest =>
    if d.isDigit then
      (indentationMark? d).map fun n =>
        match chomping, rest.head?.bind chompingMark? with
        | some chomping, _ => (⟨chomping, some n⟩, 2)
        | none, some chomping => (⟨chomping, some n⟩, 2)
        | none, none => (⟨.clip, some n⟩, 1)
    else some (⟨chomping.getD .clip, none⟩, if chomping.isSome then 1 else 0)
  | [] => some (⟨chomping.getD .clip, none⟩, if chomping.isSome then 1 else 0)

/-- The empty lines from here on: the breaks that they stand for, the largest column that was reached, and the place at
the next line that is not empty.  With an indentation, blanks past it belong to the line.  A tab must not stand for
indentation. -/
def readEmptyLines (indentation : Option Nat) :
    (fuel : Nat) → (breaks : List Char) → (widest : Nat) → Cursor → Option (List Char × Nat × Cursor)
  | 0, _, _, _ => none
  | fuel + 1, breaks, widest, c =>
    let blanks := (c.rest.takeWhile (· == ' ')).length
    let c := c.skip (match indentation with
      | some n => min blanks (n - c.column)
      | none => blanks)
    let widest := max widest c.column
    match c.rest with
    | [] => some (breaks, widest, c)
    | d :: _ =>
      if d = '\t' ∧ indentation.all (fun n => c.column < n) then none
      else if isBreak d then
        let (stands, c) := c.takeBreak
        readEmptyLines indentation fuel (breaks ++ stands) widest c
      else some (breaks, widest, c)

/-- A block's text so far, the break after its last line, the breaks of empty lines after that, and whether its last
line began with white space. -/
structure BlockText where
  text : List Char
  last : List Char
  empty : List Char
  spaced : Bool
deriving DecidableEq, Repr

/-- The text with one more line; between two lines that begin with a word a break is folded. -/
def BlockText.addLine (b : BlockText) (literal : Bool) (line stands : List Char) : BlockText :=
  let spaced := line.head?.any isSpace
  let joint := match literal, b.last with
    | false, '\n' :: _ => if b.spaced || spaced then b.last else if b.empty.isEmpty then [' '] else []
    | _, last => last
  { text := b.text ++ joint ++ b.empty ++ line, last := stands, empty := [], spaced }

def BlockText.finish (b : BlockText) (chomping : Chomping) : List Char :=
  match chomping with
  | .strip => b.text
  | .clip => b.text ++ b.last
  | .keep => b.text ++ b.last ++ b.empty

/-- The lines of a block with a known indentation. -/
def readLines (literal : Bool) (indentation : Nat) : (fuel : Nat) → BlockText → Cursor → Option (BlockText × Cursor)
  | 0, _, _ => none
  | fuel + 1, b, c =>
    if c.column = indentation ∧ !c.rest.isEmpty then
      let line := c.rest.takeWhile fun d => !isBreak d
      let (stands, c) := (c.skip line.length).takeBreak
      match readEmptyLines (some indentation) (c.rest.length + 1) [] 0 c with
      | none => none
      | some (empty, _, c) => readLines literal indentation fuel { b.addLine literal line stands with empty } c
    else some (b, c)

/-- Reads a block scalar after its mark.  `parent` is the indentation of what it stands in, if it stands in anything;
its own is greater than that. -/
def readBlock (literal : Bool) (parent : Option Nat) (c : Cursor) : Option (List Char × Cursor) := do
  let (header, width) ← readHeader? c.rest
  let c := (c.skip width).skipWhile isSpace
  let c := if c.rest.head? = some '#' then c.skipWhile fun d => !isBreak d else c
  if !endsLine c.rest then failure
  let c := c.takeBreak.2
  let given := header.indentation.map fun n => (parent.getD 0) + n
  let (empty, widest, c) ← readEmptyLines given (c.rest.length + 1) [] 0 c
  let least := match parent with
    | some p => p + 1
    | none => 1
  let indentation := given.getD (max widest least)
  let (b, c) ← readLines literal indentation (c.rest.length + 1) ⟨[], [], empty, false⟩ c
  return (b.finish header.chomping, c)

end ApprovalGate.Yaml
