/-!
# Tables

Finite maps as lists of entries.  Putting a key that is there replaces its value in place, so the order of the entries
is the order in which the keys first came.
-/
namespace ApprovalGate

structure Table (κ α : Type) where
  entries : List (κ × α)
deriving DecidableEq, Repr

namespace Table

variable {κ α : Type} [DecidableEq κ]

def empty : Table κ α := ⟨[]⟩

instance : Inhabited (Table κ α) := ⟨empty⟩

def find (k : κ) : List (κ × α) → Option α
  | [] => none
  | (l, v) :: rest => if l = k then some v else find k rest

def set (k : κ) (v : α) : List (κ × α) → List (κ × α)
  | [] => [(k, v)]
  | (l, w) :: rest => if l = k then (k, v) :: rest else (l, w) :: set k v rest

def get? (t : Table κ α) (k : κ) : Option α := find k t.entries

def contains (t : Table κ α) (k : κ) : Bool := (t.get? k).isSome

def insert (t : Table κ α) (k : κ) (v : α) : Table κ α := ⟨set k v t.entries⟩

def filter (t : Table κ α) (p : κ → α → Bool) : Table κ α := ⟨t.entries.filter fun (k, v) => p k v⟩

def erase (t : Table κ α) (k : κ) : Table κ α := t.filter fun l _ => decide (l ≠ k)

def keys (t : Table κ α) : List κ := t.entries.map Prod.fst

def values (t : Table κ α) : List α := t.entries.map Prod.snd

def size (t : Table κ α) : Nat := t.entries.length

def isEmpty (t : Table κ α) : Bool := t.entries.isEmpty

@[simp] theorem get?_empty (k : κ) : (empty : Table κ α).get? k = none := rfl

theorem find_set (k l : κ) (v : α) : ∀ es : List (κ × α),
    find l (set k v es) = if k = l then some v else find l es
  | [] => by simp [set, find]
  | (m, w) :: rest => by
    by_cases hm : m = k
    · subst hm; by_cases hl : m = l <;> simp [set, find, hl]
    · by_cases hl : m = l
      · subst hl; simp [set, find, hm, Ne.symm hm]
      · simp [set, find, hm, hl, find_set k l v rest]

theorem get?_insert (t : Table κ α) (k l : κ) (v : α) :
    (t.insert k v).get? l = if k = l then some v else t.get? l :=
  find_set k l v t.entries

@[simp] theorem get?_insert_self (t : Table κ α) (k : κ) (v : α) : (t.insert k v).get? k = some v := by
  simp [get?_insert]

theorem get?_insert_of_ne (t : Table κ α) {k l : κ} (v : α) (h : k ≠ l) : (t.insert k v).get? l = t.get? l := by
  simp [get?_insert, h]

theorem find_filter_ne (k l : κ) : ∀ es : List (κ × α),
    find l (es.filter fun e => decide (e.1 ≠ k)) = if l = k then none else find l es
  | [] => by simp [find]
  | (m, w) :: rest => by
    by_cases hm : m = k
    · subst hm
      rw [List.filter_cons_of_neg (by simp), find_filter_ne m l rest]
      by_cases hl : l = m
      · simp [hl]
      · simp [find, hl, Ne.symm hl]
    · rw [List.filter_cons_of_pos (by simpa using hm)]
      by_cases hl : m = l
      · subst hl; simp [find, hm]
      · rw [find, if_neg hl, find_filter_ne k l rest, find, if_neg hl]

theorem get?_erase (t : Table κ α) (k l : κ) : (t.erase k).get? l = if l = k then none else t.get? l :=
  find_filter_ne k l t.entries

@[simp] theorem get?_erase_self (t : Table κ α) (k : κ) : (t.erase k).get? k = none := by simp [get?_erase]

end Table
end ApprovalGate
