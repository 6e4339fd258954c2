import ApprovalGate.Yaml.Tag
import ApprovalGate.Yaml.Token
/-!
# Reading YAML tokens

One token after the other, with the collections that indentation opens and closes.  What turns out to be a key when its
colon comes, on the same line and within 1024 characters, gets its mark put in front.
-/
namespace ApprovalGate.Yaml

/-- Where a key may have begun. -/
structure KeyPlace where
  /-- Whether it must be a key, for want of anything else that could stand there. -/
  required : Bool
  /-- How many tokens stand before it. -/
  before : Nat
  index : Nat
  line : Nat
  column : Nat
deriving DecidableEq, Repr

structure Lexer where
  cursor : Cursor
  /-- The tokens so far, the last one first. -/
  done : List Token
  /-- The columns of the open block collections, the innermost first. -/
  indents : List Nat
  /-- Where a key may have begun at each level of brackets, the innermost first; the last is outside all of them. -/
  keys : List (Option KeyPlace)
  /-- Whether a key may begin here. -/
  keyAllowed : Bool
deriving DecidableEq, Repr

namespace Lexer

def start (cs : List Char) : Lexer := ⟨.start cs, [], [], [none], true⟩

def inFlow (l : Lexer) : Bool := 1 < l.keys.length

/-- Whether a column lies right of the innermost block collection. -/
def isDeeper (l : Lexer) (column : Nat) : Bool := l.indents.head?.all fun i => i < column

def push (l : Lexer) (t : Token) : Lexer := { l with done := t :: l.done }

/-- Puts a token before which `before` others stand. -/
def putAt (l : Lexer) (before : Nat) (t : Token) : Lexer :=
  let later := l.done.length - before
  { l with done := l.done.take later ++ t :: l.done.drop later }

/-! ## Keys -/

/-- The place of a key that can still come, or none; a key that was required must not be given up. -/
def stillKey? (c : Cursor) : Option KeyPlace → Option (Option KeyPlace)
  | none => some none
  | some k =>
    if k.line < c.line ∨ k.index + 1024 < c.index then (if k.required then none else some none)
    else some (some k)

/-- Gives up the places whose colon can no longer come. -/
def dropStale? (l : Lexer) : Option Lexer := (l.keys.mapM (stillKey? l.cursor)).map fun keys => { l with keys }

def dropKey? (l : Lexer) : Option Lexer :=
  match l.keys with
  | some k :: keys => if k.required then none else some { l with keys := none :: keys }
  | _ => some l

def noteKey? (l : Lexer) : Option Lexer :=
  if !l.keyAllowed then some l
  else do
    let l ← l.dropKey?
    let place : KeyPlace := {
      required := !l.inFlow && l.indents.head? == some l.cursor.column
      before := l.done.length, index := l.cursor.index, line := l.cursor.line, column := l.cursor.column }
    return { l with keys := some place :: l.keys.tail }

/-! ## Block collections -/

/-- Opens a block collection at a column, unless one is open there. -/
def openBlock (l : Lexer) (column before : Nat) (t : Token) : Lexer :=
  if l.inFlow ∨ !l.isDeeper column then l else { l.putAt before t with indents := column :: l.indents }

/-- The columns and the tokens after the block collections right of a column are closed. -/
def closeInto (isRight : Nat → Bool) : (indents : List Nat) → List Token → List Nat × List Token
  | [], done => ([], done)
  | i :: indents, done => if isRight i then closeInto isRight indents (.blockEnd :: done) else (i :: indents, done)

/-- Closes the block collections right of a column, or all of them. -/
def closeBlocks (l : Lexer) (column : Option Nat) : Lexer :=
  if l.inFlow then l
  else
    let (indents, done) := closeInto (fun i => column.all fun n => n < i) l.indents l.done
    { l with indents, done }

/-! ## Single tokens -/

def mark (l : Lexer) (t : Token) (width : Nat) : Lexer := { l.push t with cursor := l.cursor.skip width }

def documentMark? (l : Lexer) (t : Token) : Option Lexer := do
  let l ← (l.closeBlocks none).dropKey?
  return { l with keyAllowed := false }.mark t 3

def directive? (l : Lexer) : Option Lexer := do
  let l ← (l.closeBlocks none).dropKey?
  let (directive, cursor) ← readDirective? (l.cursor.skip 1)
  let token : Token := match directive with
    | .version major minor => .version major minor
    | .tagHandle handle expansion => .tagHandle handle expansion
  return { l.push token with cursor, keyAllowed := false }

def openFlow? (l : Lexer) (t : Token) : Option Lexer := do
  let l ← l.noteKey?
  return { l with keys := none :: l.keys, keyAllowed := true }.mark t 1

def closeFlow? (l : Lexer) (t : Token) : Option Lexer := do
  let l ← l.dropKey?
  let keys := if l.inFlow then l.keys.tail else l.keys
  return { l with keys, keyAllowed := false }.mark t 1

def flowEntry? (l : Lexer) : Option Lexer := do
  let l ← l.dropKey?
  return { l with keyAllowed := true }.mark .flowEntry 1

/-- Opens a block collection for an entry or a key that may stand here. -/
def openHere? (l : Lexer) (t : Token) : Option Lexer :=
  if l.inFlow then some l
  else if l.keyAllowed then some (l.openBlock l.cursor.column l.done.length t)
  else none

def entry? (l : Lexer) : Option Lexer := do
  let l ← (← l.openHere? .blockSequence).dropKey?
  return { l with keyAllowed := true }.mark .entry 1

def key? (l : Lexer) : Option Lexer := do
  let l ← (← l.openHere? .blockMapping).dropKey?
  return { l with keyAllowed := !l.inFlow }.mark .key 1

/-- A colon.  What began at the noted place is its key; else its key was marked, or is empty. -/
def value? (l : Lexer) : Option Lexer :=
  match l.keys with
  | some k :: keys =>
    let l := (l.putAt k.before .key).openBlock k.column k.before .blockMapping
    some ({ l with keys := none :: keys, keyAllowed := false }.mark .value 1)
  | _ => do
    let l ← l.openHere? .blockMapping
    return { l with keyAllowed := !l.inFlow }.mark .value 1

def endsName (cs : List Char) : Bool :=
  endsWord cs || cs.head?.any ['?', ':', ',', ']', '\x7d', '%', '@', '\x60'].contains

def name? (l : Lexer) (t : String → Token) : Option Lexer := do
  let l ← l.noteKey?
  let name := l.cursor.rest.tail.takeWhile isNameChar
  let cursor := l.cursor.skip (name.length + 1)
  if name.isEmpty ∨ !endsName cursor.rest then failure
  return { l.push (t (String.ofList name)) with cursor, keyAllowed := false }

def tag? (l : Lexer) : Option Lexer := do
  let l ← l.noteKey?
  let (handle, suffix, cursor) ← readTag? l.inFlow l.cursor
  return { l.push (.tag handle suffix) with cursor, keyAllowed := false }

def block? (l : Lexer) (literal : Bool) : Option Lexer := do
  let l ← l.dropKey?
  let (text, cursor) ← readBlock literal l.indents.head? (l.cursor.skip 1)
  let style : ScalarStyle := if literal then .literal else .folded
  return { l.push (.scalar style (String.ofList text)) with cursor, keyAllowed := true }

def quoted? (l : Lexer) (single : Bool) : Option Lexer := do
  let l ← l.noteKey?
  let (text, cursor) ← readQuoted single (l.cursor.skip 1)
  let style : ScalarStyle := if single then .singleQuoted else .doubleQuoted
  return { l.push (.scalar style (String.ofList text)) with cursor, keyAllowed := false }

def plain? (l : Lexer) : Option Lexer := do
  let l ← l.noteKey?
  let margin := match l.indents.head? with
    | some i => i + 1
    | none => 0
  let (text, broken, cursor) ← readPlain l.inFlow margin l.cursor
  return { l.push (.scalar .plain (String.ofList text)) with cursor, keyAllowed := broken }

/-! ## The whole text -/

/-- Past a mark of byte order at the start of a line. -/
def skipOrderMark (c : Cursor) : Cursor := if c.column = 0 ∧ c.rest.head? = some '\ufeff' then c.skip 1 else c

/-- Past white space, comments and line breaks.  Where a key may begin, tabs are no white space; after a line break one
may, outside brackets. -/
def skipToToken : (fuel : Nat) → Lexer → Lexer
  | 0, l => l
  | fuel + 1, l =>
    let c := (skipOrderMark l.cursor).skipWhile fun d => d == ' ' || (d == '\t' && (l.inFlow || !l.keyAllowed))
    let c := if c.rest.head? = some '#' then c.skipWhile fun d => !isBreak d else c
    if c.rest.head?.any isBreak then
      skipToToken fuel { l with cursor := c.takeBreak.2, keyAllowed := l.keyAllowed || !l.inFlow }
    else { l with cursor := c }

def startsPlain (flow : Bool) : List Char → Bool
  | [] => false
  | c :: rest =>
    if c = '-' then !rest.head?.any isSpace
    else if c = '?' ∨ c = ':' then !flow && !endsWord rest
    else !(isSpace c || isBreak c || isFlowMark c ||
      ['#', '&', '*', '!', '|', '>', '\'', '"', '%', '@', '\x60'].contains c)

/-- The next token; the text is not over. -/
def next? (l : Lexer) : Option Lexer :=
  let flow := l.inFlow
  let lone : Bool := endsWord l.cursor.rest.tail
  if l.cursor.column = 0 ∧ l.cursor.rest.head? = some '%' then l.directive?
  else if l.cursor.atMarks '-' then l.documentMark? .documentStart
  else if l.cursor.atMarks '.' then l.documentMark? .documentEnd
  else match l.cursor.rest with
    | '[' :: _ => l.openFlow? .flowSequence
    | '\x7b' :: _ => l.openFlow? .flowMapping
    | ']' :: _ => l.closeFlow? .flowSequenceEnd
    | '\x7d' :: _ => l.closeFlow? .flowMappingEnd
    | ',' :: _ => l.flowEntry?
    | '*' :: _ => l.name? .aliasOf
    | '&' :: _ => l.name? .anchor
    | '!' :: _ => l.tag?
    | '\'' :: _ => l.quoted? true
    | '"' :: _ => l.quoted? false
    | cs =>
      if cs.head? = some '-' ∧ lone then l.entry?
      else if cs.head? = some '?' ∧ (flow ∨ lone) then l.key?
      else if cs.head? = some ':' ∧ (flow ∨ lone) then l.value?
      else if cs.head? = some '|' ∧ !flow then l.block? true
      else if cs.head? = some '>' ∧ !flow then l.block? false
      else if startsPlain flow cs then l.plain?
      else none

/-- The tokens of a text, in order.  Every step but the last uses up a character, so `fuel` is its length. -/
def run : (fuel : Nat) → Lexer → Option (List Token)
  | 0, _ => none
  | fuel + 1, l => do
    let l ← (skipToToken (l.cursor.rest.length + 1) l).dropStale?
    if l.cursor.rest.isEmpty then
      let l ← (l.closeBlocks none).dropKey?
      return l.done.reverse
    else
      let l ← (l.closeBlocks (some l.cursor.column)).next?
      run fuel l

end Lexer

/-- The tokens of a text, unless one of its characters or words is not YAML. -/
def Token.read? (s : String) : Option (List Token) :=
  let cs := s.toList
  if cs.all isAllowed then Lexer.run (cs.length + 1) (.start cs) else none

end ApprovalGate.Yaml
