import Runex.Domain.Hook
import Runex.Domain.Expand.Rendering

/-!
# What one key press decides

`hook` on a line that is cut at the caret, and at the start of the last token before it: every
slice is then a part of the cut, and the decision is a plain case distinction.

## Main results

- `exists_lastToken` — every text ends in one space-delimited token
- `hook_append` — `hook` without slices
-/

namespace Runex

open Search
open Text (byteLen)

theorem insertSpace_append (left right : Text) :
    insertSpace (left ++ right) (byteLen left) =
      some (.insertSpace (left ++ ' ' :: right) (byteLen left + 1)) := by
  simp [insertSpace]

/-- Every text is cut in one way before its last space-delimited token. -/
theorem exists_lastToken (left : Text) :
    ∃ pre token, left = pre ++ token ∧ ' ' ∉ token ∧ (pre = [] ∨ [' '] <:+ pre) := by
  rcases hsplit : splitLast ' ' left with _ | ⟨before, token⟩
  · exact ⟨[], left, rfl, splitLast_eq_none.mp hsplit, Or.inl rfl⟩
  · obtain ⟨hleft, htoken⟩ := splitLast_eq_some.mp hsplit
    exact ⟨before ++ [' '], token, by simp [hleft], htoken, Or.inr (List.suffix_append before [' '])⟩

/-- `token_start_of` finds that cut. -/
theorem tokenStartOf_append {pre token : Text} (htoken : ' ' ∉ token)
    (hpre : pre = [] ∨ [' '] <:+ pre) (hne : pre ++ token ≠ []) :
    tokenStartOf (pre ++ token) = some (byteLen pre) := by
  unfold tokenStartOf
  rw [if_neg hne]
  rcases hpre with rfl | ⟨before, rfl⟩
  · simp [splitLast_eq_none.mpr htoken]
  · have hsplit : splitLast ' ' (before ++ [' '] ++ token) = some (before, token) :=
      splitLast_eq_some.mpr ⟨by simp, htoken⟩
    rw [hsplit]
    have hspace : Char.utf8Size ' ' = 1 := rfl
    simp [hspace]

/-- The replacement is the prefix, the text, and a space unless the rule placed the cursor. -/
theorem replaceToken_eq (pre text right : Text) (cursorOffset : Option ℕ) :
    replaceToken pre text right (byteLen pre) cursorOffset =
      some (match cursorOffset with
        | some off => .replace (pre ++ (text ++ right)) (byteLen pre + off)
        | none => .replace (pre ++ (text ++ ' ' :: right)) (byteLen pre + byteLen text + 1)) := by
  cases cursorOffset with
  | some off => simp [replaceToken]
  | none =>
    have hsplit : Text.splitAt? (pre ++ text) (byteLen pre + byteLen text) =
        some (pre ++ text, []) :=
      Text.splitAt?_eq_some.mpr ⟨by simp, by simp⟩
    simp [replaceToken, hsplit]

/-- The conditions under which the hook looks for an expansion. -/
def AtExpandableToken (pre token right : Text) : Prop :=
  (right = [] ∨ [' '] <+: right) ∧ token ≠ [] ∧ isCommandPosition pre = true

instance (pre token right : Text) : Decidable (AtExpandableToken pre token right) :=
  inferInstanceAs (Decidable (_ ∧ _ ∧ _))

/-- The edit for the outcome of `expand`. -/
def editFor (pre token right : Text) : ExpandResult → HookAction
  | .expanded text (some off) => .replace (pre ++ (text ++ right)) (byteLen pre + off)
  | .expanded text none => .replace (pre ++ (text ++ ' ' :: right)) (byteLen pre + byteLen text + 1)
  | .passThrough _ => .insertSpace (pre ++ (token ++ ' ' :: right)) (byteLen pre + byteLen token + 1)

/-- `hook` on a line that is cut at the caret and before the last token. The test whether any rule
    knows the token never changes the outcome. -/
theorem hook_append (engine : RegexLite) (config : Config) (shell : Shell) {pre token : Text}
    (htoken : ' ' ∉ token) (hpre : pre = [] ∨ [' '] <:+ pre) (right : Text)
    (commandExists : Text → Bool) :
    hook engine config shell (pre ++ (token ++ right)) (byteLen pre + byteLen token) commandExists =
      some (if AtExpandableToken pre token right then
          editFor pre token right (expand engine config token shell commandExists)
        else .insertSpace (pre ++ (token ++ ' ' :: right)) (byteLen pre + byteLen token + 1)) := by
  have hinsert : insertSpace (pre ++ (token ++ right)) (byteLen pre + byteLen token) =
      some (.insertSpace (pre ++ (token ++ ' ' :: right)) (byteLen pre + byteLen token + 1)) := by
    simpa using insertSpace_append (pre ++ token) right
  have hcut : Text.splitAt? (pre ++ (token ++ right)) (byteLen pre + byteLen token) =
      some (pre ++ token, right) :=
    Text.splitAt?_eq_some.mpr ⟨by simp, by simp⟩
  have hmin : min (byteLen pre + byteLen token) (byteLen (pre ++ (token ++ right))) =
      byteLen pre + byteLen token := by
    simp only [Text.byteLen_append]
    omega
  have hblocked : byteLen pre + byteLen token < byteLen (pre ++ (token ++ right)) ∧
      ¬ [' '] <+: right ↔ ¬ (right = [] ∨ [' '] <+: right) := by
    simp only [Text.byteLen_append, not_or, and_congr_left_iff]
    intro _
    rw [← Text.byteLen_eq_zero]
    omega
  unfold hook
  simp only [hmin, Text.sliceFrom?, Text.sliceTo?, hcut, Option.map_some, Option.bind_eq_bind,
    Option.bind_some, hblocked, hinsert]
  by_cases hright : right = [] ∨ [' '] <+: right
  · by_cases hne : token = []
    · -- An empty token: nothing before the caret, or a space.
      subst hne
      rw [if_neg (not_not_intro hright), if_neg (fun h => h.2.1 rfl)]
      cases hstart : tokenStartOf (pre ++ []) with
      | none => rfl
      | some start =>
        have hnil : pre ++ ([] : Text) ≠ [] := by
          intro hnil
          simp [tokenStartOf, hnil] at hstart
        rw [tokenStartOf_append htoken hpre hnil] at hstart
        simp only [Option.some.injEq] at hstart
        have hcut' : Text.splitAt? (pre ++ []) (byteLen pre) = some (pre, []) :=
          Text.splitAt?_append pre []
        simp only [← hstart, hcut', Option.map_some, Option.bind_some, if_true]
    · have hcut' : Text.splitAt? (pre ++ (token ++ right)) (byteLen pre) =
          some (pre, token ++ right) := Text.splitAt?_append pre _
      rw [if_neg (not_not_intro hright), tokenStartOf_append htoken hpre (by simp [hne])]
      simp only [Text.splitAt?_append, hcut', Option.map_some, Option.bind_some, if_neg hne]
      cases hpos : isCommandPosition pre with
      | true =>
        have hat : AtExpandableToken pre token right := ⟨hright, hne, hpos⟩
        simp only [Bool.not_true, Bool.false_eq_true, if_false, if_pos hat]
        cases hexpand : expand engine config token shell commandExists with
        | expanded text cursorOffset =>
          have hknown : isKnownToken engine config token = true := isSome_matchRule_of_expand hexpand
          simp only [hknown, Bool.not_true, Bool.false_eq_true, if_false]
          rw [replaceToken_eq]
          cases cursorOffset <;> rfl
        | passThrough _ => split <;> rfl
      | false =>
        have hat : ¬ AtExpandableToken pre token right := fun h => by simp [h.2.2] at hpos
        simp only [Bool.not_false, if_true, if_neg hat]
  · rw [if_pos hright, if_neg (fun h => hright h.1)]

end Runex
