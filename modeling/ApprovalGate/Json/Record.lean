import ApprovalGate.Json.Basic
/-!
# Records in JSON

How a value with named parts is read from JSON: from an object with its names, in any order and among others, or, where
that is allowed, from an array with the parts in order.  A name that occurs twice makes the object unreadable.
-/
namespace ApprovalGate.Json

/-- The members of an object in which none of the names occurs twice. -/
def members? (names : List String) : Json → Option (List (String × Json))
  | .obj members =>
    if names.all fun n => (members.filter fun (k, _) => k == n).length ≤ 1 then some members else none
  | _ => none

/-- The members of an object or the items of an array under their names.  An array must hold the first `least` parts
and nothing past the last. -/
def parts? (names : List String) (least : Nat) : Json → Option (List (String × Json))
  | .arr items => if least ≤ items.length ∧ items.length ≤ names.length then some (names.zip items) else none
  | v => members? names v

def required? {α : Type} (read : Json → Option α) (name : String) (parts : List (String × Json)) : Option α :=
  (lookup name parts).bind read

def optional? {α : Type} (read : Json → Option α) (name : String) (parts : List (String × Json)) :
    Option (Option α) :=
  match lookup name parts with
  | none | some .null => some none
  | some v => (read v).map some

def defaulted? {α : Type} (read : Json → Option α) (default : α) (name : String) (parts : List (String × Json)) :
    Option α :=
  match lookup name parts with
  | none => some default
  | some v => read v

/-- The name of a choice without parts: a text, or an object whose only member is the name with `null`. -/
def choice? : Json → Option String
  | .str s => some s
  | .obj [(name, .null)] => some name
  | _ => none

end ApprovalGate.Json
