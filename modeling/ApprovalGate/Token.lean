import ApprovalGate.Failure
import ApprovalGate.Text.Bytes
import ApprovalGate.Text.Percent
import ApprovalGate.Text.Quoted
/-!
# Tokens

A token addresses one pending wait.  It travels in URL paths, so it is made of letters, digits and four marks only, and
it has at most 256 of them.
-/
namespace ApprovalGate

namespace Token

def maxLength : Nat := 256

/-- The characters of a token: those that need no escape in a URL. -/
def allows (c : Char) : Bool := Text.Percent.isUnreserved c

inductive Fault where
  | empty
  | tooLong
  | badChar (c : Char)
deriving DecidableEq, Repr

def Fault.message : Fault → String
  | .empty => "token is empty"
  | .tooLong => "token exceeds 256 characters"
  | .badChar c => "character " ++ Text.quoteChar c ++ " is not allowed"

def fault? (s : String) : Option Fault :=
  if s.toList = [] then some .empty
  else if maxLength < Text.byteLength s then some .tooLong
  else (s.toList.find? fun c => !allows c).map .badChar

end Token

structure Token where
  text : String
  valid : Token.fault? text = none
deriving DecidableEq, Repr

namespace Token

instance : Inhabited Token := ⟨⟨"-", by decide⟩⟩

def parse (s : String) : Outcome Token :=
  match h : fault? s with
  | none => .ok ⟨s, h⟩
  | some fault => .error (.invalidToken s fault.message)

def parse? (s : String) : Option Token := (parse s).toOption

/-- A text with every character that tokens do not allow replaced by a hyphen. -/
def sanitize (s : String) : List Char := s.toList.map fun c => if allows c then c else '-'

/-- The text of a fresh token: tool, random digits and job, cut to the longest length. -/
def mintText (tool job : String) (random : Uuid) : String :=
  String.ofList ((sanitize tool ++ '_' :: (random.simple ++ '_' :: sanitize job)).take maxLength)

theorem isAscii_of_allows {c : Char} (h : allows c = true) : Text.isAscii c = true := by
  simp only [Text.isAscii, decide_eq_true_eq]
  have hv : c.toNat = c.val.toNat := rfl
  simp only [allows, Text.Percent.isUnreserved, Bool.or_eq_true, beq_iff_eq] at h
  rcases h with (((h | rfl) | rfl) | rfl) | rfl
  · delta Char.isAlphanum Char.isAlpha Char.isUpper Char.isLower Char.isDigit at h
    simp only [Bool.or_eq_true, Bool.and_eq_true, decide_eq_true_eq, ge_iff_le, UInt32.le_iff_toNat_le,
      Char.reduceVal, UInt32.reduceToNat] at h
    omega
  all_goals decide

theorem allows_of_mem_sanitize {s : String} {c : Char} (h : c ∈ sanitize s) : allows c = true := by
  obtain ⟨d, -, rfl⟩ := List.mem_map.1 h
  by_cases hd : allows d = true
  · rwa [if_pos hd]
  · rw [if_neg hd]; rfl

theorem allows_hexDigit (n : Fin 16) : allows (Text.hexDigit n) = true := by
  revert n; decide

/-- A text of allowed characters, not empty and not too long, has no fault. -/
theorem fault?_ofList {cs : List Char} (hne : cs ≠ []) (hlen : cs.length ≤ maxLength)
    (h : ∀ c ∈ cs, allows c = true) : fault? (String.ofList cs) = none := by
  have hb : Text.byteLength (String.ofList cs) = cs.length := by
    rw [Text.byteLength, String.toList_ofList, Text.byteCount_of_ascii fun c hc => isAscii_of_allows (h c hc)]
  rw [fault?, hb, String.toList_ofList, if_neg hne, if_neg (by omega), Option.map_eq_none_iff, List.find?_eq_none]
  intro c hc
  simp [h c hc]

theorem fault?_mintText (tool job : String) (random : Uuid) : fault? (mintText tool job random) = none := by
  refine fault?_ofList ?_ (List.length_take_le _ _) ?_
  · cases hs : sanitize tool <;> simp [maxLength]
  · intro c hc
    have hc := List.mem_of_mem_take hc
    simp only [List.mem_append, List.mem_cons, Uuid.simple, List.mem_map] at hc
    rcases hc with hc | rfl | ⟨n, -, rfl⟩ | rfl | hc
    · exact allows_of_mem_sanitize hc
    · rfl
    · exact allows_hexDigit n
    · rfl
    · exact allows_of_mem_sanitize hc

def mint (tool job : String) (random : Uuid) : Token := ⟨mintText tool job random, fault?_mintText tool job random⟩

end Token

/-- An order of the tokens in which records are listed. -/
structure TokenOrder where
  le : Token → Token → Bool
  total : ∀ a b, (le a b || le b a) = true
  trans : ∀ a b c, le a b = true → le b c = true → le a c = true
  antisymm : ∀ {a b}, le a b = true → le b a = true → a = b

/-- The order of the tokens' texts. -/
def TokenOrder.byText : TokenOrder where
  le a b := !decide (b.text < a.text)
  total a b := by
    simp only [Bool.or_eq_true, Bool.not_eq_true', decide_eq_false_iff_not, String.not_lt]
    exact String.le_total _ _
  trans a b c h h' := by
    simp only [Bool.not_eq_true', decide_eq_false_iff_not, String.not_lt] at *
    exact String.le_trans h h'
  antisymm {a b} h h' := by
    simp only [Bool.not_eq_true', decide_eq_false_iff_not, String.not_lt] at *
    cases a
    cases b
    cases String.le_antisymm h h'
    rfl

end ApprovalGate
