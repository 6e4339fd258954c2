/-!
# Splitting and trimming

Cutting a text at a separator, at every one or at the first or the last only, and trimming it by the characters that
count as white space.  A text that trims to nothing is blank.
-/
namespace ApprovalGate.Text

/-- The parts between the separators, one more than there are separators. -/
def splitOn (sep : Char) : List Char → List (List Char)
  | [] => [[]]
  | c :: cs =>
    if c = sep then [] :: splitOn sep cs
    else match splitOn sep cs with
      | [] => [[c]]
      | part :: parts => (c :: part) :: parts

/-- What stands before and after the first separator. -/
def cut? (sep : Char) (cs : List Char) : Option (List Char × List Char) :=
  match cs.dropWhile (· != sep) with
  | [] => none
  | _ :: after => some (cs.takeWhile (· != sep), after)

/-- What stands before and after the last separator. -/
def cutLast? (sep : Char) (cs : List Char) : Option (List Char × List Char) :=
  (cut? sep cs.reverse).map fun (after, before) => (before.reverse, after.reverse)

def after? : (beginning : List Char) → List Char → Option (List Char)
  | [], cs => some cs
  | _ :: _, [] => none
  | b :: bs, c :: cs => if b = c then after? bs cs else none

def stripPrefix? (beginning s : String) : Option String := (after? beginning.toList s.toList).map String.ofList

def stripSuffix? (ending s : String) : Option String :=
  (after? ending.toList.reverse s.toList.reverse).map fun cs => String.ofList cs.reverse

def startsWith (beginning s : String) : Bool := (after? beginning.toList s.toList).isSome

def occursIn (part : List Char) : List Char → Bool
  | [] => part.isEmpty
  | c :: cs => (after? part (c :: cs)).isSome || occursIn part cs

/-! ## White space -/

/-- The characters with the Unicode property `White_Space`. -/
def isBlank (c : Char) : Bool :=
  let n := c.toNat
  (9 ≤ n && n ≤ 13) || n == 0x20 || n == 0x85 || n == 0xA0 || n == 0x1680 || (0x2000 ≤ n && n ≤ 0x200A) ||
    n == 0x2028 || n == 0x2029 || n == 0x202F || n == 0x205F || n == 0x3000

def dropEndWhile {α : Type} (p : α → Bool) (cs : List α) : List α := (cs.reverse.dropWhile p).reverse

def trim (s : String) : String := String.ofList (dropEndWhile isBlank (s.toList.dropWhile isBlank))

def blank (s : String) : Bool := s.toList.all isBlank

def trimEndOf (c : Char) (s : String) : String := String.ofList (dropEndWhile (· == c) s.toList)

theorem isBlank_of_isWhitespace {c : Char} (h : c.isWhitespace = true) : isBlank c = true := by
  simp only [Char.isWhitespace, Bool.or_eq_true, decide_eq_true_eq] at h
  rcases h with ((h | h) | h) | h <;> subst h <;> rfl

end ApprovalGate.Text
