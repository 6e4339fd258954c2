import ApprovalGate.Text.Split
import ApprovalGate.Yaml.Node
/-!
# What YAML nodes stand for

Nodes read as texts, numbers, choices and records.  Where a text is wanted every scalar is one, as it is written; where
nothing in particular is wanted, a plain scalar that reads as a number or as a word for nothing or for a truth value is
no text.
-/
namespace ApprovalGate.Yaml

/-! ## Words and numbers -/

def isNullWord (s : String) : Bool := ["null", "Null", "NULL", "~"].contains s

def isBoolWord (s : String) : Bool := ["true", "True", "TRUE", "false", "False", "FALSE"].contains s

/-- Whether digits follow a zero, perhaps after a sign; such a text is no number. -/
def hasLeadingZero (cs : List Char) : Bool :=
  match if cs.head? = some '-' ∨ cs.head? = some '+' then cs.tail else cs with
  | '0' :: d :: ds => (d :: ds).all Char.isDigit
  | _ => false

/-- The number that digits of a radix up to 16 write. -/
def numberIn? (radix : Nat) (cs : List Char) : Option Nat :=
  if cs.isEmpty then none
  else
    cs.foldlM (fun n c => (Text.hexValue? c).bind fun d => if d.val < radix then some (n * radix + d.val) else none) 0

/-- The number after a mark for its radix, or in decimal without a leading zero. -/
def magnitude? : List Char → Option Nat
  | '0' :: 'x' :: ds => numberIn? 16 ds
  | '0' :: 'o' :: ds => numberIn? 8 ds
  | '0' :: 'b' :: ds => numberIn? 2 ds
  | ds => if hasLeadingZero ds then none else numberIn? 10 ds

/-- A number without sign or with a plus sign, below a limit. -/
def unsigned? (limit : Nat) (s : String) : Option Nat :=
  (magnitude? (match s.toList with
    | '+' :: cs => cs
    | cs => cs)).filter (· < limit)

/-- Whether a text is a minus sign and a number up to a limit. -/
def isNegative (limit : Nat) (s : String) : Bool :=
  match s.toList with
  | '-' :: cs => (magnitude? cs).any (· ≤ limit)
  | _ => false

/-- The digits of a decimal fraction without sign, those after the point included, and its power of ten. -/
def fraction? (cs : List Char) : Option (List Char × Int) :=
  let whole := cs.takeWhile Char.isDigit
  let (places, rest) := match cs.dropWhile Char.isDigit with
    | '.' :: rest => (rest.takeWhile Char.isDigit, rest.dropWhile Char.isDigit)
    | rest => ([], rest)
  let digits := whole ++ places
  if digits.isEmpty then none
  else match rest with
    | [] => some (digits, -(places.length : Int))
    | e :: rest =>
      if e ≠ 'e' ∧ e ≠ 'E' then none
      else match rest with
        | '-' :: ds => (Text.decimal? ds).map fun n => (digits, -(n : Int) - places.length)
        | '+' :: ds => (Text.decimal? ds).map fun n => (digits, (n : Int) - places.length)
        | ds => (Text.decimal? ds).map fun n => (digits, (n : Int) - places.length)

/-- Whether `digits` times a power of ten lies below what rounds to an infinite double: the largest double and half a
step. -/
def isFinite (digits : List Char) (exponent : Int) : Bool :=
  let digits := digits.dropWhile (· == '0')
  let size : Int := digits.length + exponent
  digits.isEmpty || size ≤ 308 ||
    (size == 309 &&
      Nat.ofDigitChars 10 digits 0 * Nat.pow 10 exponent.toNat <
        (Nat.pow 2 1024 - Nat.pow 2 970) * Nat.pow 10 (-exponent).toNat)

/-- Whether a text is a finite decimal fraction, or a word for infinity or for what is no number. -/
def isFraction (s : String) : Bool :=
  let bare := match s.toList with
    | '+' :: '-' :: _ | '+' :: '+' :: _ => []
    | '+' :: cs | cs => cs
  let unsigned := match bare with
    | '-' :: cs => cs
    | cs => cs
  [".inf", ".Inf", ".INF"].contains (String.ofList bare) ||
    ["-.inf", "-.Inf", "-.INF", ".nan", ".NaN", ".NAN"].contains s ||
    (fraction? unsigned).any fun (digits, exponent) => isFinite digits exponent

/-! ## Nodes where a kind of value is wanted -/

/-- The name that a tag of the document's own gives. -/
def ownTag? (tag : Option String) : Option String := tag.bind (Text.stripPrefix? "!")

def commonTag (name : String) : String := "tag:yaml.org,2002:" ++ name

namespace Node

def text? : Node → Option String
  | scalar _ _ text => some text
  | _ => none

/-- A number without sign below a limit: a plain scalar, or a literal one with the tag of integers. -/
def unsigned? (limit : Nat) : Node → Option Nat
  | scalar tag style text =>
    if style = .plain ∨ (style = .literal ∧ tag = some (commonTag "int")) then Yaml.unsigned? limit text else none
  | _ => none

/-- Whether a scalar stands for nothing.  Only a plain one can; its tag may forbid that, or demand a word for it. -/
def isNothing? : Node → Option Bool
  | scalar (some tag) .plain text =>
    if tag ≠ commonTag "null" then some false else if isNullWord text then some true else none
  | scalar none .plain text => some (text.isEmpty || isNullWord text)
  | _ => some false

def optional? {α : Type} (read : Node → Option α) (n : Node) : Option (Option α) :=
  match n.isNothing? with
  | none => none
  | some true => some none
  | some false => (read n).map some

/-- The name of a choice without parts: an own tag on an empty scalar or on a word for nothing, or else a text. -/
def choice? : Node → Option String
  | scalar tag style text =>
    match ownTag? tag with
    | some name => if style = .plain ∧ (text.isEmpty ∨ isNullWord text) then some name else none
    | none => some text
  | _ => none

/-- The pairs of a mapping whose keys are texts; a plain scalar without text is one without pairs. -/
def pairs? : Node → Option (List (String × Node))
  | mapping _ pairs => pairs.mapM fun (k, v) => k.text?.map fun k => (k, v)
  | scalar _ .plain "" => some []
  | _ => none

/-- The pairs of a mapping in which none of the names occurs twice. -/
def fields? (names : List String) (n : Node) : Option (List (String × Node)) :=
  n.pairs?.filter fun pairs => names.all fun name => (pairs.filter fun (k, _) => k == name).length ≤ 1

end Node

def required? {α : Type} (read : Node → Option α) (name : String) (fields : List (String × Node)) : Option α :=
  (fields.lookup name).bind read

def defaulted? {α : Type} (read : Node → Option α) (default : α) (name : String) (fields : List (String × Node)) :
    Option α :=
  match fields.lookup name with
  | none => some default
  | some n => read n

/-! ## Nodes where any value is wanted -/

/-- What a node stands for by itself, as far as it matters to records of texts. -/
inductive Word where
  | text (s : String)
  | unsigned (n : Nat)
  /-- Nothing, a truth value, a negative number, a fraction or a collection. -/
  | other
deriving DecidableEq, Repr

/-- An integer of at most 64 bits; larger ones of up to 128 bits are not read. -/
def integer? (s : String) : Option (Option Word) :=
  match unsigned? (Nat.pow 2 64) s with
  | some n => some (some (.unsigned n))
  | none =>
    if isNegative (Nat.pow 2 63) s then some (some .other)
    else if (unsigned? (Nat.pow 2 128) s).isSome ∨ isNegative (Nat.pow 2 127) s then some none
    else none

def plainWord (s : String) : Option Word :=
  if s.isEmpty ∨ isNullWord s ∨ isBoolWord s then some .other
  else match integer? s with
    | some word => word
    | none => if !hasLeadingZero s.toList ∧ isFraction s then some .other else some (.text s)

/-- What a scalar stands for; its tag may demand a kind of value. -/
def scalarWord? (tag : Option String) (style : ScalarStyle) (text : String) : Option Word :=
  match tag with
  | none => if style = .plain then plainWord text else some (.text text)
  | some tag =>
    let demand (met : Bool) : Option Word := if met then some .other else none
    if (ownTag? (some tag)).isSome then none
    else if tag = commonTag "bool" then demand (isBoolWord text)
    else if tag = commonTag "int" then (integer? text).join
    else if tag = commonTag "float" then demand (isFraction text)
    else if tag = commonTag "null" then demand (isNullWord text)
    else some (.text text)

namespace Node

mutual

/-- What a node stands for by itself, unless something in it stands for nothing known.  Collections may nest `depth`
levels deep. -/
def word? (depth : Nat) : Node → Option Word
  | .scalar tag style text => scalarWord? tag style text
  | .sequence tag items =>
    if depth = 0 ∨ (ownTag? tag).isSome then none
    else if areWords (depth - 1) items then some .other else none
  | .mapping tag pairs =>
    if depth = 0 ∨ (ownTag? tag).isSome then none
    else if arePairsOfWords (depth - 1) pairs then some .other else none
  | .enclosing => none

def areWords (depth : Nat) : List Node → Bool
  | [] => true
  | n :: ns => (word? depth n).isSome && areWords depth ns

/-- Whether all keys and values stand for something. -/
def arePairsOfWords (depth : Nat) : List (Node × Node) → Bool
  | [] => true
  | (k, v) :: pairs => (word? depth k).isSome && (word? depth v).isSome && arePairsOfWords depth pairs

end

end Node
end ApprovalGate.Yaml
