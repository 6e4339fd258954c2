import ApprovalGate.Yaml.Token
/-!
# YAML nodes

The tree that the tokens of a document write.  An alias is replaced by the node that its anchor names.
-/
namespace ApprovalGate.Yaml

inductive Node where
  | scalar (tag : Option String) (style : ScalarStyle) (text : String)
  | sequence (tag : Option String) (items : List Node)
  | mapping (tag : Option String) (pairs : List (Node × Node))
  /-- An alias of a node within that node itself. -/
  | enclosing
deriving Repr, Inhabited

namespace Node

/-- What stands where no node is written. -/
def absent : Node := scalar none .plain ""

end Node

/-! ## Reading tokens -/

/-- The tokens that are left of a document, what its tag handles stand for, and its anchors in order of appearance, each
with its node once that is complete. -/
structure Source where
  tokens : List Token
  handles : List (String × String)
  anchors : List (String × Option Node)
deriving Repr

namespace Source

/-- What handles stand for that no directive defines. -/
def commonHandles : List (String × String) := [("", ""), ("!", "!"), ("!!", "tag:yaml.org,2002:")]

/-- What an alias stands for: the node of the latest anchor of its name. -/
def named? (s : Source) (name : String) : Option Node :=
  (s.anchors.reverse.lookup name).map fun node => node.getD .enclosing

def takeAnchor (s : Source) : Option String × Source :=
  match s.tokens with
  | .anchor name :: rest => (some name, { s with tokens := rest })
  | _ => (none, s)

/-- A tag, if one comes next, with its handle expanded. -/
def takeTag? (s : Source) : Option (Option String × Source) :=
  match s.tokens with
  | .tag handle suffix :: rest =>
    ((s.handles ++ commonHandles).lookup handle).map fun expansion =>
      (some (expansion ++ suffix), { s with tokens := rest })
  | _ => some (none, s)

/-- An anchor and a tag in either order, both optional. -/
def takeProperties? (s : Source) : Option (Option String × Option String × Source) := do
  let (anchor, s) := s.takeAnchor
  let (tag, s) ← s.takeTag?
  let (anchor, s) := if anchor.isSome then (anchor, s) else s.takeAnchor
  return (anchor, tag, s)

def declare (s : Source) (anchor : Option String) : Source :=
  match anchor with
  | some name => { s with anchors := s.anchors ++ [(name, none)] }
  | none => s

def complete (s : Source) (anchor : Option String) (place : Nat) (node : Node) : Source :=
  match anchor with
  | some name => { s with anchors := s.anchors.set place (name, some node) }
  | none => s

/-- A node, or none where the next token says that none is written. -/
def orAbsent (ends : Token → Bool) (read : Source → Option (Node × Source)) (s : Source) : Option (Node × Source) :=
  if s.tokens.head?.any ends then some (.absent, s) else read s

def valueOrAbsent (ends : Token → Bool) (read : Source → Option (Node × Source)) (s : Source) :
    Option (Node × Source) :=
  match s.tokens with
  | .value :: rest => orAbsent ends read { s with tokens := rest }
  | _ => some (.absent, s)

/-- Past the comma between two items within brackets. -/
def skipComma? (s : Source) : Option Source :=
  match s.tokens with
  | .flowEntry :: rest => some { s with tokens := rest }
  | _ => none

end Source

namespace Node

/-- Whether an entry of a block sequence is left empty. -/
def endsEntry (indentless : Bool) : Token → Bool
  | .entry | .blockEnd => true
  | .key | .value => indentless
  | _ => false

/-- Whether a key or a value of a block mapping is left empty. -/
def endsBlockPart : Token → Bool
  | .key | .value | .blockEnd => true
  | _ => false

/-- Whether a key of a pair within brackets is left empty; `close` is the closing bracket. -/
def endsFlowKey (close : Token) (t : Token) : Bool := t == .value || t == .flowEntry || t == close

/-- Whether a value of a pair within brackets is left empty. -/
def endsFlowValue (close : Token) (t : Token) : Bool := t == .flowEntry || t == close

mutual

/-- Reads a node.  Block collections stand only in block context; where `indentless`, the entries of a sequence may
stand at the column of the mapping around it.  An anchor or a tag may stand alone.  Three steps at most lie between one
token and the next, so `fuel` is three times the number of tokens. -/
def read? : (fuel : Nat) → (block indentless : Bool) → Source → Option (Node × Source)
  | 0, _, _, _ => none
  | fuel + 1, block, indentless, s =>
    match s.tokens with
    | .aliasOf name :: rest => (s.named? name).map fun node => (node, { s with tokens := rest })
    | _ => do
      let (anchor, tag, s) ← s.takeProperties?
      let place := s.anchors.length
      let s := s.declare anchor
      let (node, s) ← readContent? fuel block indentless anchor.isSome tag s
      return (node, s.complete anchor place node)

def readContent? : (fuel : Nat) → (block indentless anchored : Bool) → (tag : Option String) → Source →
    Option (Node × Source)
  | 0, _, _, _, _, _ => none
  | fuel + 1, block, indentless, anchored, tag, s =>
    let alone := if anchored ∨ tag.isSome then some (scalar tag .plain "", s) else none
    match s.tokens with
    | [] => alone
    | token :: rest =>
      let past := { s with tokens := rest }
      match token, block with
      | .scalar style text, _ => some (scalar (tag.filter (· != "!")) style text, past)
      | .flowSequence, _ => (readFlowItems? fuel true past).map fun (items, s) => (sequence tag items, s)
      | .flowMapping, _ => (readFlowPairs? fuel true past).map fun (pairs, s) => (mapping tag pairs, s)
      | .blockSequence, true => (readEntries? fuel false past).map fun (items, s) => (sequence tag items, s)
      | .blockMapping, true => (readPairs? fuel past).map fun (pairs, s) => (mapping tag pairs, s)
      | .entry, _ =>
        if indentless then (readEntries? fuel true s).map fun (items, s) => (sequence tag items, s) else alone
      | _, _ => alone

/-- Reads the entries of a block sequence to its end. -/
def readEntries? : (fuel : Nat) → (indentless : Bool) → Source → Option (List Node × Source)
  | 0, _, _ => none
  | fuel + 1, indentless, s =>
    match s.tokens with
    | .entry :: rest => do
      let (item, s) ← Source.orAbsent (endsEntry indentless) (read? fuel true false) { s with tokens := rest }
      let (items, s) ← readEntries? fuel indentless s
      return (item :: items, s)
    | .blockEnd :: rest => some ([], if indentless then s else { s with tokens := rest })
    | _ => if indentless then some ([], s) else none

/-- Reads the pairs of a block mapping to its end. -/
def readPairs? : (fuel : Nat) → Source → Option (List (Node × Node) × Source)
  | 0, _ => none
  | fuel + 1, s =>
    match s.tokens with
    | .key :: rest => do
      let (key, s) ← Source.orAbsent endsBlockPart (read? fuel true true) { s with tokens := rest }
      let (value, s) ← Source.valueOrAbsent endsBlockPart (read? fuel true true) s
      let (pairs, s) ← readPairs? fuel s
      return ((key, value) :: pairs, s)
    | .blockEnd :: rest => some ([], { s with tokens := rest })
    | _ => none

/-- Reads the items of a sequence within brackets to its end.  A key makes a pair of its own, a mapping; where that key
is left empty the token after it is passed over. -/
def readFlowItems? : (fuel : Nat) → (first : Bool) → Source → Option (List Node × Source)
  | 0, _, _ => none
  | fuel + 1, first, s =>
    match s.tokens with
    | .flowSequenceEnd :: rest => some ([], { s with tokens := rest })
    | _ => do
      let s ← if first then some s else s.skipComma?
      match s.tokens with
      | .flowSequenceEnd :: rest => return ([], { s with tokens := rest })
      | .key :: rest =>
        let (key, s) ←
          if rest.head?.any (endsFlowKey .flowSequenceEnd) then some (absent, { s with tokens := rest.tail })
          else read? fuel false false { s with tokens := rest }
        let (value, s) ← s.valueOrAbsent (endsFlowValue .flowSequenceEnd) (read? fuel false false)
        let (items, s) ← readFlowItems? fuel false s
        return (mapping none [(key, value)] :: items, s)
      | _ =>
        let (item, s) ← read? fuel false false s
        let (items, s) ← readFlowItems? fuel false s
        return (item :: items, s)

/-- Reads the pairs of a mapping within brackets to its end.  A node that is not marked as a key is one without a
value. -/
def readFlowPairs? : (fuel : Nat) → (first : Bool) → Source → Option (List (Node × Node) × Source)
  | 0, _, _ => none
  | fuel + 1, first, s =>
    match s.tokens with
    | .flowMappingEnd :: rest => some ([], { s with tokens := rest })
    | _ => do
      let s ← if first then some s else s.skipComma?
      match s.tokens with
      | .flowMappingEnd :: rest => return ([], { s with tokens := rest })
      | .key :: rest =>
        let (key, s) ←
          Source.orAbsent (endsFlowKey .flowMappingEnd) (read? fuel false false) { s with tokens := rest }
        let (value, s) ← s.valueOrAbsent (endsFlowValue .flowMappingEnd) (read? fuel false false)
        let (pairs, s) ← readFlowPairs? fuel false s
        return ((key, value) :: pairs, s)
      | _ =>
        let (key, s) ← read? fuel false false s
        let (pairs, s) ← readFlowPairs? fuel false s
        return ((key, absent) :: pairs, s)

end

end Node
end ApprovalGate.Yaml
