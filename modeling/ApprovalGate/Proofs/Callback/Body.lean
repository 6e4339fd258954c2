import ApprovalGate.Proofs.Callback
import ApprovalGate.Proofs.Callback.Form
/-!
# Forms and JSON objects mean the same

The fields of a callback can come as a form or as a JSON object of texts.  Whichever it is, and however it is written,
the same fields are read (`readFields_form`, `readFields_json`), and so the same decision or failure comes of them.
-/
namespace ApprovalGate

namespace Json

/-- An object of texts. -/
def ofTexts (fields : List (String × String)) : Json := .obj (fields.map fun (k, v) => (k, .str v))

/-- What does not begin as an object does is read as none. -/
theorem readValue?_not_obj {fuel depth : Nat} {c : Char} {cs rest : List Char} {v : Json} (hc : c ≠ '\x7b')
    (h : readValue? fuel depth (c :: cs) = some (v, rest)) : ∀ members, v ≠ .obj members := by
  rintro members rfl
  cases fuel with
  | zero =>
    rw [readValue?] at h
    cases h
  | succ fuel =>
    unfold readValue? at h
    split at h
    · cases h
    · cases h
    · cases h
    · obtain ⟨p, -, heq⟩ := Option.map_eq_some_iff.1 h
      cases heq
    · split at h
      · cases h
      · split at h
        · cases h
        · obtain ⟨p, -, heq⟩ := Option.map_eq_some_iff.1 h
          cases heq
    · rename_i heq
      exact hc (List.head_eq_of_cons_eq heq)
    · -- a number nests nothing
      have := (readNumber?_bounds h).1
      rw [Json.depth] at this
      cases this

theorem isJsonBlank_of_isBlank {c : Char} (h : Text.isBlank c = false) : isJsonBlank c = false := by
  rw [Bool.eq_false_iff]
  intro hb
  unfold isJsonBlank at hb
  simp only [Bool.or_eq_true, beq_iff_eq] at hb
  rcases hb with ((rfl | rfl) | rfl) | rfl <;> cases h

/-- A text that begins with neither a blank nor an object is that of no object. -/
theorem parse?_not_obj {s : String} {c : Char} {cs : List Char} (hs : s.toList = c :: cs)
    (hb : Text.isBlank c = false) (hc : c ≠ '\x7b') (members : List (String × Json)) :
    parse? s ≠ some (.obj members) := by
  intro hp
  obtain ⟨v, hv, hn⟩ := Option.map_eq_some_iff.1 hp
  have obj : ∃ ms, v = .obj ms := by
    cases v with
    | obj ms => exact ⟨ms, rfl⟩
    | _ => cases hn
  have skip : skipBlank (c :: cs) = c :: cs :=
    List.dropWhile_cons_of_neg (by rw [isJsonBlank_of_isBlank hb]; decide)
  unfold read? at hv
  simp only [hs, skip] at hv
  split at hv
  · rename_i hr
    split at hv
    · cases hv
      obtain ⟨ms, hms⟩ := obj
      exact readValue?_not_obj hc hr ms hms
    · cases hv
  · cases hv

end Json

namespace Callback

variable {fields members : List (String × String)} {form json : String} {contentType contentType' : Option String}

/-! ## What a content type says -/

/-- Whether a content type says that a body is a form. -/
def saysForm (contentType : Option String) : Bool :=
  Text.occursIn "application/x-www-form-urlencoded".toList ((contentType.getD "").map Char.toLower).toList

/-- Whether a content type says that a body is JSON. -/
def saysJson (contentType : Option String) : Bool :=
  Text.occursIn "json".toList ((contentType.getD "").map Char.toLower).toList

/-! ## Fields in one form and the other -/

/-- What is read of fields in any order that are all texts. -/
def readTexts (fields : List (String × String)) : Fields := Ordered.ofList (fields.map fun (k, v) => (k, .str v))

theorem readTexts_perm (hp : fields.Perm members) (hd : (members.map Prod.fst).Nodup) :
    readTexts fields = readTexts members := by
  refine Ordered.ofList_perm (hp.map _) ?_
  have keys : (fields.map fun (k, v) => (k, Json.str v)).map Prod.fst = fields.map Prod.fst := by
    rw [List.map_map]
    rfl
  rw [keys]
  exact (hp.map Prod.fst).nodup_iff.2 hd

theorem readJson_texts (h : (Json.ofTexts members).IsText json) : readJson json = .ok (readTexts members) := by
  have plain : ∀ m ∈ members.map fun (k, v) => (k, Json.str v), m.2.IsPlain := by
    intro m hm
    obtain ⟨p, -, rfl⟩ := List.mem_map.1 hm
    trivial
  have exact : (Json.ofTexts members).Exact := Json.exact_obj.2 fun m hm => (plain m hm).exact
  have shallow : (Json.ofTexts members).depth ≤ Json.maxDepth := by
    refine Nat.le_trans (Nat.succ_le_succ (Json.depthMembers_le.2 fun m hm => ?_)) (by decide : 0 + 1 ≤ Json.maxDepth)
    exact Nat.le_of_eq (plain m hm).depth
  have normal : (Json.ofTexts members).normal = .obj (readTexts members) := by
    rw [Json.ofTexts, Json.normal, Json.normalMembers_eq, List.map_map]
    rfl
  have parsed : Json.parse? json = some (.obj (readTexts members)) := by
    rw [Json.parse?, h.read? exact, if_pos shallow, Option.map_some, normal]
  unfold readJson
  rw [parsed]

/-- A JSON object of texts is read as its members, unless the content type says that it is a form. -/
theorem readFields_json (h : (Json.ofTexts members).IsText json) (hc : saysForm contentType = false) :
    readFields json contentType = .ok (readTexts members) := by
  unfold saysForm at hc
  simp only [readFields, hc, readJson_texts h, Bool.false_eq_true, if_false, ite_self]

theorem readForm_written (h : Form.Writes fields form.toList) : readForm form = .ok (readTexts fields) := by
  have read := Form.read_of_writes h
  rw [String.ofList_toList] at read
  rw [readForm, read]
  rfl

/-- No form is a JSON object. -/
theorem readJson_written (h : Form.Writes fields form.toList) : ∃ fault, readJson form = .error fault := by
  obtain ⟨c, cs, hcs, hb, hc⟩ := h.begins
  unfold readJson
  cases hp : Json.parse? form with
  | none => exact ⟨_, rfl⟩
  | some v =>
    cases v with
    | obj members => exact absurd hp (Json.parse?_not_obj hcs hb hc members)
    | _ => exact ⟨_, rfl⟩

/-- A form is read as its fields, unless the content type says that it is JSON. -/
theorem readFields_form (h : Form.Writes fields form.toList)
    (hc : saysForm contentType = true ∨ saysJson contentType = false) :
    readFields form contentType = .ok (readTexts fields) := by
  obtain ⟨fault, hj⟩ := readJson_written h
  unfold saysForm saysJson at hc
  rcases hc with hc | hc
  · simp only [readFields, hc, readForm_written h, if_true]
  · simp only [readFields, hc, readForm_written h, hj, Bool.false_eq_true, if_false, ite_self]

/-! ## Decisions -/

/-- **Forms and JSON objects mean the same.**  A map of texts, however it is written as a form and whatever the layout
of its JSON object, gives the same decision or the same failure, as long as both bodies are short enough and neither
content type says that its body is the other. -/
theorem parseDecision_form_eq_json (hf : Form.Writes fields form.toList) (hj : (Json.ofTexts members).IsText json)
    (same : fields.Perm members) (distinct : (members.map Prod.fst).Nodup)
    (hform : saysForm contentType = true ∨ saysJson contentType = false) (hjson : saysForm contentType' = false)
    (formSize : form.toUTF8.size ≤ maxBody) (jsonSize : json.toUTF8.size ≤ maxBody) (t : Token) (now : Instant) :
    parseDecision t form.toUTF8 contentType now = parseDecision t json.toUTF8 contentType' now := by
  have formBlank : Text.blank form = false := by
    obtain ⟨c, cs, hcs, hb, -⟩ := hf.begins
    rw [Text.blank, hcs, List.all_cons, hb, Bool.false_and]
  have jsonBlank : Text.blank json = false := by
    obtain ⟨l, rfl⟩ := hj
    rw [Text.blank, String.toList_ofList]
    cases members with
    | nil => rfl
    | cons m ms => rfl
  have read : readTexts fields = readTexts members := readTexts_perm same distinct
  rw [parseDecision_of_fields formSize formBlank (readFields_form hf hform) t now,
    parseDecision_of_fields jsonSize jsonBlank (readFields_json hj hjson) t now, read]

/-- An approval that comes as a form, one blank a plus and another one escaped, without a content type. -/
theorem parseDecision_approval_form :
    let t : Token := default
    let form := "comments=d%C3%A9ploy+%26%20%2B&result=approved&="
    let json := "\x7b\"\":\"\",\"comments\":\"déploy & +\",\"result\":\"approved\"\x7d"
    let contentType := some "Application/JSON"
    parseDecision t form.toUTF8 none .epoch = parseDecision t json.toUTF8 contentType .epoch ∧
      (parseDecision t json.toUTF8 contentType .epoch).map Decision.comments = .ok (some "déploy & +") := by
  intro t form json contentType
  have encoded (s : String) : Form.Encodes s.toList (Text.Percent.encodeChars s.toList) := Form.encodes_encodeChars _
  have comments : Form.Encodes "déploy & +".toList "d%C3%A9ploy+%26%20%2B".toList := by
    have h := (encoded "déploy").append (.plus (encoded "& +"))
    have text : "déploy".toList ++ ' ' :: "& +".toList = "déploy & +".toList := by decide +kernel
    have written : Text.Percent.encodeChars "déploy".toList ++ '+' :: Text.Percent.encodeChars "& +".toList =
        "d%C3%A9ploy+%26%20%2B".toList := by decide +kernel
    rwa [text, written] at h
  have written : Form.Writes [("comments", "déploy & +"), ("result", "approved"), ("", "")] form.toList := by
    have h := Form.Writes.more (encoded "comments") comments
      (.more (encoded "result") (encoded "approved") (.one (encoded "") (encoded "")))
    have text : Text.Percent.encodeChars "comments".toList ++ '=' :: ("d%C3%A9ploy+%26%20%2B".toList ++ '&' ::
        (Text.Percent.encodeChars "result".toList ++ '=' :: (Text.Percent.encodeChars "approved".toList ++ '&' ::
          (Text.Percent.encodeChars "".toList ++ '=' :: Text.Percent.encodeChars "".toList)))) = form.toList := by
      decide +kernel
    rwa [text] at h
  let members := [("", ""), ("comments", "déploy & +"), ("result", "approved")]
  have object : (Json.ofTexts members).IsText json := by
    have text : json = (Json.ofTexts members).compact := by decide +kernel
    rw [text]
    exact Json.isText_compact _
  exact ⟨parseDecision_form_eq_json written object (by decide) (by decide) (.inr (by decide +kernel))
    (by decide +kernel) (by decide +kernel) (by decide +kernel) t .epoch, by decide +kernel⟩

end Callback
end ApprovalGate
