import ApprovalGate.Proofs.Json.Shape
/-!
# Layouts of JSON text

The text of a value with blanks where a layout has them.  The two printed forms of a value are its texts in two
layouts (`isText_compact`, `isText_pretty`), so that what a reader makes of either is shown once.
-/
namespace ApprovalGate.Json

/-- Where blanks stand in the text of a value: before each item and each end of a level, and after each colon. -/
structure Layout where
  gap : Nat → List Char
  afterColon : List Char
  blank_gap : ∀ level, ∀ c ∈ gap level, isJsonBlank c = true
  blank_afterColon : ∀ c ∈ afterColon, isJsonBlank c = true

namespace Layout

mutual
/-- The text of a value in a layout. -/
def text (l : Layout) (level : Nat) : Json → List Char
  | .arr [] => ['[', ']']
  | .arr (x :: xs) => '[' :: (l.gap (level + 1) ++ (l.text (level + 1) x ++ l.items level xs))
  | .obj [] => ['\x7b', '\x7d']
  | .obj ((k, v) :: rest) =>
    '\x7b' :: (l.gap (level + 1) ++
      (writeString k ++ ':' :: (l.afterColon ++ (l.text (level + 1) v ++ l.members level rest))))
  | v => v.write

def items (l : Layout) (level : Nat) : List Json → List Char
  | [] => l.gap level ++ [']']
  | x :: xs => ',' :: (l.gap (level + 1) ++ (l.text (level + 1) x ++ l.items level xs))

def members (l : Layout) (level : Nat) : List (String × Json) → List Char
  | [] => l.gap level ++ ['\x7d']
  | (k, v) :: rest =>
    ',' :: (l.gap (level + 1) ++
      (writeString k ++ ':' :: (l.afterColon ++ (l.text (level + 1) v ++ l.members level rest))))
end

/-- No blanks at all. -/
def dense : Layout := ⟨fun _ => [], [], fun _ _ h => absurd h List.not_mem_nil, fun _ h => absurd h List.not_mem_nil⟩

theorem isJsonBlank_newline (level : Nat) : ∀ c ∈ newline level, isJsonBlank c = true := by
  intro c hc
  rcases List.mem_cons.1 hc with rfl | hc
  · rfl
  · rw [(List.mem_replicate.1 hc).2]
    rfl

/-- One item a line. -/
def lines : Layout := ⟨newline, [' '], isJsonBlank_newline, fun _ hc => List.mem_singleton.1 hc ▸ rfl⟩

/-- What prints values, items and members as a layout does. -/
structure Prints (l : Layout) (value : Nat → Json → List Char) (items : Nat → List Json → List Char)
    (members : Nat → List (String × Json) → List Char) : Prop where
  scalar : ∀ level v, (∀ xs, v ≠ .arr xs) → (∀ ms, v ≠ .obj ms) → value level v = v.write
  noItems : ∀ level, value level (.arr []) = ['[', ']']
  arr : ∀ level x xs, value level (.arr (x :: xs)) =
    '[' :: (l.gap (level + 1) ++ (value (level + 1) x ++ items level xs))
  noMembers : ∀ level, value level (.obj []) = ['\x7b', '\x7d']
  obj : ∀ level k v rest, value level (.obj ((k, v) :: rest)) = '\x7b' :: (l.gap (level + 1) ++
    (writeString k ++ ':' :: (l.afterColon ++ (value (level + 1) v ++ members level rest))))
  endItems : ∀ level, items level [] = l.gap level ++ [']']
  items : ∀ level x xs, items level (x :: xs) = ',' :: (l.gap (level + 1) ++ (value (level + 1) x ++ items level xs))
  endMembers : ∀ level, members level [] = l.gap level ++ ['\x7d']
  members : ∀ level k v rest, members level ((k, v) :: rest) = ',' :: (l.gap (level + 1) ++
    (writeString k ++ ':' :: (l.afterColon ++ (value (level + 1) v ++ members level rest))))

section Prints

variable {l : Layout} {value : Nat → Json → List Char} {printItems : Nat → List Json → List Char}
  {printMembers : Nat → List (String × Json) → List Char}

theorem Prints.items_eq (p : l.Prints value printItems printMembers) {xs : List Json} (level : Nat)
    (h : ∀ x ∈ xs, ∀ level, l.text level x = value level x) : l.items level xs = printItems level xs := by
  induction xs with
  | nil => rw [Layout.items, p.endItems]
  | cons x xs ih =>
    rw [Layout.items, p.items, h x List.mem_cons_self, ih fun y hy => h y (List.mem_cons_of_mem _ hy)]

theorem Prints.members_eq (p : l.Prints value printItems printMembers) {ms : List (String × Json)} (level : Nat)
    (h : ∀ m ∈ ms, ∀ level, l.text level m.2 = value level m.2) : l.members level ms = printMembers level ms := by
  induction ms with
  | nil => rw [Layout.members, p.endMembers]
  | cons m ms ih =>
    obtain ⟨k, v⟩ := m
    have hv : ∀ level, l.text level v = value level v := h (k, v) List.mem_cons_self
    rw [Layout.members, p.members, hv, ih fun m hm => h m (List.mem_cons_of_mem _ hm)]

/-- **What prints as a layout does prints the text of every value in it.** -/
theorem Prints.text_eq (p : l.Prints value printItems printMembers) (v : Json) (level : Nat) :
    l.text level v = value level v := by
  induction v using inductOn generalizing level with
  | arr items ih =>
    cases items with
    | nil => rw [text, p.noItems]
    | cons x xs =>
      rw [text, p.arr, ih x List.mem_cons_self, p.items_eq level fun y hy => ih y (List.mem_cons_of_mem _ hy)]
  | obj members ih =>
    cases members with
    | nil => rw [text, p.noMembers]
    | cons m ms =>
      obtain ⟨k, v⟩ := m
      have hv : ∀ level, l.text level v = value level v := ih (k, v) List.mem_cons_self
      rw [text, p.obj, hv, p.members_eq level fun m hm => ih m (List.mem_cons_of_mem _ hm)]
  | _ =>
    rw [p.scalar level _ (fun _ h => by cases h) fun _ h => by cases h]
    rfl

end Prints

theorem prints_write : dense.Prints (fun _ => write) (fun _ => writeItems) fun _ => writeMembers where
  scalar _ _ _ _ := rfl
  noItems _ := rfl
  arr _ _ _ := rfl
  noMembers _ := rfl
  obj _ _ _ _ := rfl
  endItems _ := rfl
  items _ _ _ := rfl
  endMembers _ := rfl
  members _ _ _ _ := rfl

theorem prints_writePretty : lines.Prints writePretty writePrettyItems writePrettyMembers where
  scalar _ v ha ho := by
    cases v with
    | arr xs => exact absurd rfl (ha xs)
    | obj ms => exact absurd rfl (ho ms)
    | bool b => cases b <;> rfl
    | _ => rfl
  noItems _ := rfl
  arr _ _ _ := rfl
  noMembers _ := rfl
  obj _ _ _ _ := rfl
  endItems _ := rfl
  items _ _ _ := rfl
  endMembers _ := rfl
  members _ _ _ _ := rfl

end Layout

/-- Whether a text is that of a value in some layout. -/
def IsText (v : Json) (s : String) : Prop := ∃ l : Layout, s = String.ofList (l.text 0 v)

theorem isText_compact (v : Json) : v.IsText v.compact :=
  ⟨.dense, by rw [compact, Layout.prints_write.text_eq]⟩

theorem isText_pretty (v : Json) : v.IsText v.pretty :=
  ⟨.lines, by rw [pretty, Layout.prints_writePretty.text_eq]⟩

end ApprovalGate.Json
