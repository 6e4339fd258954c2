import ApprovalGate.Api.Route
/-!
# Where paths lead

A path leads to a callback or to an execution when it is the path of their collection with one segment after it, and
to the decision of a job when it has an encoded name between the collection of jobs and the last segment.  The paths
of each route are written out (`Route.LeadsTo`), and no other path leads anywhere (`Route.ofPath?_eq_some`).
-/
namespace ApprovalGate

namespace Text

theorem after?_eq_some {beginning cs rest : List Char} :
    after? beginning cs = some rest ↔ cs = beginning ++ rest := by
  induction beginning generalizing cs with
  | nil => rw [after?, List.nil_append, Option.some_inj]
  | cons b bs ih =>
    cases cs with
    | nil => simp [after?]
    | cons c cs =>
      rw [after?, List.cons_append]
      by_cases h : b = c
      · rw [if_pos h, ih, h, List.cons_inj_right]
      · rw [if_neg h]
        simp [Ne.symm h]

end Text

namespace Api

/-- Whether a text is one segment of a path. -/
def IsSegment (s : String) : Prop := s ≠ "" ∧ '/' ∉ s.toList

instance (s : String) : Decidable (IsSegment s) := inferInstanceAs (Decidable (_ ∧ _))

namespace Route

theorem segment?_eq_some {cs : List Char} {s : String} : segment? cs = some s ↔ cs = s.toList ∧ IsSegment s := by
  rw [segment?, IsSegment]
  split
  · rename_i h
    refine ⟨nofun, ?_⟩
    rintro ⟨rfl, hne, hs⟩
    rcases h with h | h
    · exact absurd (String.toList_eq_nil_iff.1 (List.isEmpty_iff.1 h)) hne
    · exact absurd (List.contains_iff_mem.1 h) hs
  · rename_i h
    rw [not_or, List.isEmpty_iff, List.contains_iff_mem] at h
    rw [Option.some_inj]
    constructor
    · rintro rfl
      rw [String.toList_ofList]
      refine ⟨rfl, fun he => h.1 ?_, h.2⟩
      rw [← String.toList_ofList (l := cs), he]
      rfl
    · rintro ⟨rfl, -⟩
      exact String.ofList_toList

theorem before?_eq_some {ending cs rest : List Char} : before? ending cs = some rest ↔ cs = rest ++ ending := by
  rw [before?, Option.map_eq_some_iff]
  constructor
  · rintro ⟨back, hb, rfl⟩
    have hb := congrArg List.reverse (Text.after?_eq_some.1 hb)
    rwa [List.reverse_reverse, List.reverse_append, List.reverse_reverse] at hb
  · rintro rfl
    exact ⟨rest.reverse, Text.after?_eq_some.2 List.reverse_append, List.reverse_reverse _⟩

theorem job?_eq_some {cs : List Char} {job : String} : job? cs = some job ↔
    ∃ name, name ≠ [] ∧ cs = name ++ "/decision".toList ∧ Text.Percent.decodeChars? name = some job := by
  have whole {name : List Char} : before? "/decision".toList cs = some name ↔ cs = name ++ "/decision".toList :=
    before?_eq_some
  rw [job?]
  cases h : before? "/decision".toList cs with
  | none =>
    refine ⟨nofun, ?_⟩
    rintro ⟨name, -, hcs, -⟩
    rw [whole.2 hcs] at h
    cases h
  | some name =>
    have only {other : List Char} (ho : cs = other ++ "/decision".toList) : other = name :=
      Option.some.inj ((whole.2 ho).symm.trans h)
    cases name with
    | nil =>
      refine ⟨nofun, ?_⟩
      rintro ⟨name, hne, hcs, -⟩
      exact absurd (only hcs) hne
    | cons c name =>
      refine ⟨fun hd => ⟨c :: name, List.cons_ne_nil _ _, whole.1 h, hd⟩, ?_⟩
      rintro ⟨other, -, hcs, hd⟩
      rw [only hcs] at hd
      exact hd

/-! ## The paths of the API -/

/-- Where each path of the API leads. -/
inductive LeadsTo : List Char → Route → Prop where
  | health : LeadsTo "/api/v1/health".toList health
  | status : LeadsTo "/api/v1/status".toList status
  | waits : LeadsTo "/api/v1/waits".toList waits
  | callback {address : String} : IsSegment address →
      LeadsTo ("/api/v1/callbacks/".toList ++ address.toList) (callback address)
  | jobDecision {name : List Char} {job : String} : name ≠ [] → Text.Percent.decodeChars? name = some job →
      LeadsTo ("/api/v1/jobs/".toList ++ (name ++ "/decision".toList)) (jobDecision job)
  | execution {name : String} : IsSegment name →
      LeadsTo ("/api/v1/executions/".toList ++ name.toList) (execution name)

theorem ofRest?_sound {rest : List Char} {route : Route} (h : ofRest? rest = some route) :
    LeadsTo (root ++ rest) route := by
  rw [ofRest?] at h
  split at h
  · rename_i hr
    cases h
    rw [hr]
    exact .health
  split at h
  · rename_i hr
    cases h
    rw [hr]
    exact .status
  split at h
  · rename_i hr
    cases h
    rw [hr]
    exact .waits
  cases hc : Text.after? "/callbacks/".toList rest with
  | some cs =>
    simp only [hc] at h
    obtain ⟨address, ha, rfl⟩ := Option.map_eq_some_iff.1 h
    obtain ⟨rfl, hs⟩ := segment?_eq_some.1 ha
    rw [Text.after?_eq_some.1 hc]
    exact .callback hs
  | none =>
    simp only [hc] at h
    cases hj : Text.after? "/jobs/".toList rest with
    | some cs =>
      simp only [hj] at h
      obtain ⟨job, ha, rfl⟩ := Option.map_eq_some_iff.1 h
      obtain ⟨name, hne, rfl, hd⟩ := job?_eq_some.1 ha
      rw [Text.after?_eq_some.1 hj]
      exact .jobDecision hne hd
    | none =>
      simp only [hj] at h
      cases he : Text.after? "/executions/".toList rest with
      | none => simp only [he, reduceCtorEq] at h
      | some cs =>
        simp only [he] at h
        obtain ⟨name, ha, rfl⟩ := Option.map_eq_some_iff.1 h
        obtain ⟨rfl, hs⟩ := segment?_eq_some.1 ha
        rw [Text.after?_eq_some.1 he]
        exact .execution hs

/-- **A path leads where the API has it**, and all other paths lead nowhere. -/
theorem ofPath?_eq_some {path : List Char} {route : Route} : ofPath? path = some route ↔ LeadsTo path route := by
  rw [ofPath?, Option.bind_eq_some_iff]
  constructor
  · rintro ⟨rest, hr, h⟩
    rw [Text.after?_eq_some.1 hr]
    exact ofRest?_sound h
  · intro h
    -- past the root, no collection's path is the beginning of another's
    cases h with
    | health => exact ⟨"/health".toList, rfl, rfl⟩
    | status => exact ⟨"/status".toList, rfl, rfl⟩
    | waits => exact ⟨"/waits".toList, rfl, rfl⟩
    | @callback address hs =>
      refine ⟨"/callbacks/".toList ++ address.toList, rfl, ?_⟩
      show (segment? address.toList).map callback = _
      rw [segment?_eq_some.2 ⟨rfl, hs⟩, Option.map_some]
    | @jobDecision name job hne hd =>
      refine ⟨"/jobs/".toList ++ (name ++ "/decision".toList), rfl, ?_⟩
      show (job? (name ++ "/decision".toList)).map jobDecision = _
      rw [job?_eq_some.2 ⟨name, hne, rfl, hd⟩, Option.map_some]
    | @execution name hs =>
      refine ⟨"/executions/".toList ++ name.toList, rfl, ?_⟩
      show (segment? name.toList).map execution = _
      rw [segment?_eq_some.2 ⟨rfl, hs⟩, Option.map_some]

end Route
end Api
end ApprovalGate
