import Mathlib.Data.List.Basic
import ApprovalGate.Config.Check
/-!
# Fresh tokens

A fresh token is always one that can be read back.  Its random digits stand behind the tool and are cut with the rest
when the tool is long: of a tool of `n` characters `255 - n` digits are left, if those are fewer than all 32
(`random_part`).  So a tool's tokens are told apart, and have all their digits, exactly when it has at most 223
characters (`minted_apart_iff`), which the check of a configuration does not ask for (`long_tool_mints_twice`).
-/
namespace ApprovalGate

namespace Uuid

/-- The identifiers that are drawn at random: all digits but the version and the two bits of the variant are free. -/
def IsRandom (u : Uuid) : Prop :=
  u.digits[12]? = some (Text.nibble 4) ∧ ∃ d, u.digits[16]? = some d ∧ 8 ≤ d.val ∧ d.val < 12

theorem length_simple (u : Uuid) : u.simple.length = 32 := by rw [simple, List.length_map, u.length_digits]

theorem hexDigit_injective : Function.Injective Text.hexDigit := fun m n h => by
  simpa [Text.hexValue?_hexDigit] using congrArg Text.hexValue? h

theorem simple_injective : Function.Injective simple := fun u v h => by
  have hd : u.digits = v.digits := List.map_injective_iff.2 hexDigit_injective h
  cases u
  cases v
  cases hd
  rfl

/-- Two random identifiers that differ in the last digit only. -/
def early : Uuid :=
  ⟨([0, 0, 0, 0, 0, 0, 0, 0, 0, 0, 0, 0, 4, 0, 0, 0, 8, 0, 0, 0, 0, 0, 0, 0, 0, 0, 0, 0, 0, 0, 0, 0]).map Text.nibble,
    rfl⟩

def late : Uuid :=
  ⟨([0, 0, 0, 0, 0, 0, 0, 0, 0, 0, 0, 0, 4, 0, 0, 0, 8, 0, 0, 0, 0, 0, 0, 0, 0, 0, 0, 0, 0, 0, 0, 1]).map Text.nibble,
    rfl⟩

theorem early_isRandom : early.IsRandom := ⟨rfl, Text.nibble 8, rfl, by decide⟩

theorem late_isRandom : late.IsRandom := ⟨rfl, Text.nibble 8, rfl, by decide⟩

theorem early_ne_late : early ≠ late := by decide

theorem take_early {n : Nat} (h : n ≤ 31) : early.simple.take n = late.simple.take n := by
  have h31 : early.simple.take 31 = late.simple.take 31 := by decide
  have := congrArg (List.take n) h31
  rwa [List.take_take, List.take_take, Nat.min_eq_left h] at this

end Uuid

namespace Token

theorem length_sanitize (s : String) : (sanitize s).length = s.length := by
  rw [sanitize, List.length_map, String.length_toList]

/-- Every fresh token is one that is read back. -/
theorem parse_mintText (tool job : String) (u : Uuid) : parse (mintText tool job u) = .ok (mint tool job u) := by
  unfold parse
  split
  · rfl
  · rename_i fault h
    cases (fault?_mintText tool job u).symm.trans h

/-- The random digits of a token, as far as there is room for them behind the tool. -/
theorem random_part (tool job : String) (u : Uuid) :
    ((mint tool job u).text.toList.drop (tool.length + 1)).take 32 = u.simple.take (255 - tool.length) := by
  have hn := length_sanitize tool
  have hd : (sanitize tool ++ '_' :: (u.simple ++ '_' :: sanitize job)).drop (tool.length + 1)
      = u.simple ++ '_' :: sanitize job := by
    rw [List.drop_append, hn, List.drop_eq_nil_of_le (by omega), Nat.add_sub_cancel_left]
    rfl
  have hl := u.length_simple
  change ((mintText tool job u).toList.drop (tool.length + 1)).take 32 = _
  rw [mintText, String.toList_ofList, List.drop_take, hd, List.take_take,
    List.take_append_of_le_length (by omega), List.take_eq_take_iff, hl, maxLength]
  omega

/-- Of a long tool a token has the first digits only, and nothing of the job. -/
theorem toList_mintText_of_long {tool : String} (h : 223 ≤ tool.length) (job : String) (u : Uuid) :
    (mintText tool job u).toList = (sanitize tool ++ ['_']).take maxLength ++ u.simple.take (255 - tool.length) := by
  have hl : (sanitize tool ++ ['_']).length = tool.length + 1 := by simp [length_sanitize]
  have hk : maxLength - (tool.length + 1) = 255 - tool.length := by
    rw [maxLength]
    omega
  have ht : (u.simple ++ '_' :: sanitize job).take (255 - tool.length) = u.simple.take (255 - tool.length) :=
    List.take_append_of_le_length (by rw [u.length_simple]; omega)
  rw [mintText, String.toList_ofList, List.append_cons, List.take_append, hl, hk, ht]

/-- So the tokens of a long tool are told apart by the digits that are left of their random parts, for one job as well
as for two. -/
theorem mint_eq_mint_of_long {tool : String} (h : 223 ≤ tool.length) {job job' : String} {u v : Uuid} :
    mint tool job u = mint tool job' v ↔ u.simple.take (255 - tool.length) = v.simple.take (255 - tool.length) := by
  have ht : mint tool job u = mint tool job' v ↔ mintText tool job u = mintText tool job' v := Token.mk.injEq .. ▸ .rfl
  rw [ht, ← String.toList_inj, toList_mintText_of_long h, toList_mintText_of_long h, List.append_cancel_left_eq]

/-- **A fresh token is always read back, and a tool's tokens are told apart by their random digits, for one job as well
as for two, exactly when the tool has at most 223 characters**: just then all 32 digits are there. -/
theorem minted_apart_iff (tool : String) :
    (∀ job u, parse (mintText tool job u) = .ok (mint tool job u)) ∧
      ((∀ (job job' : String) (u v : Uuid), u.IsRandom → v.IsRandom → u ≠ v → mint tool job u ≠ mint tool job' v) ↔
        tool.length ≤ 223) ∧
      ((∀ (job : String) (u : Uuid), u.IsRandom →
        ((mint tool job u).text.toList.drop (tool.length + 1)).take 32 = u.simple) ↔ tool.length ≤ 223) := by
  refine ⟨fun job u => parse_mintText tool job u, ⟨fun h => ?_, fun h job job' u v _ _ hne heq => ?_⟩,
    ⟨fun h => ?_, fun h job u _ => ?_⟩⟩
  · refine Nat.not_lt.1 fun hlong => ?_
    exact h "" "" _ _ Uuid.early_isRandom Uuid.late_isRandom Uuid.early_ne_late
      ((mint_eq_mint_of_long (by omega)).2 (Uuid.take_early (by omega)))
  · have hp := random_part tool job u
    rw [heq, random_part tool job' v, List.take_of_length_le (by rw [v.length_simple]; omega),
      List.take_of_length_le (by rw [u.length_simple]; omega)] at hp
    exact hne (Uuid.simple_injective hp.symm)
  · have hp := congrArg List.length ((random_part tool "" _).symm.trans (h "" _ Uuid.early_isRandom))
    rw [List.length_take, Uuid.length_simple] at hp
    omega
  · rw [random_part, List.take_of_length_le (by rw [u.length_simple]; omega)]

/-- A configuration is accepted with a tool so long that nothing is left of the random digits: then all submissions
have one token. -/
theorem long_tool_mints_twice :
    let c : Config := { tool := String.ofList (List.replicate 256 'a') }
    c.validate = .ok () ∧ Uuid.early.IsRandom ∧ Uuid.late.IsRandom ∧ Uuid.early ≠ Uuid.late ∧
      mint c.tool "J1" Uuid.early = mint c.tool "J2" Uuid.late := by
  have hlen : (String.ofList (List.replicate 256 'a')).length = 256 := by
    rw [← String.length_toList, String.toList_ofList, List.length_replicate]
  have hblank : Text.blank (String.ofList (List.replicate 256 'a')) = false := by
    rw [Text.blank, String.toList_ofList, List.all_replicate]
    rfl
  refine ⟨by rw [Config.validate, hblank]; rfl, Uuid.early_isRandom, Uuid.late_isRandom, Uuid.early_ne_late, ?_⟩
  exact (mint_eq_mint_of_long (by rw [hlen]; decide)).2 (by rw [hlen]; rfl)

end Token
end ApprovalGate
