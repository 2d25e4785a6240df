import Runex.App.Config.Fallbacks

/-!
# Keys with a count

Which tokens the `{number}` keys of an accepted configuration match.

## Main results

- `number_match_iff` — what matches a key of an accepted configuration
-/

namespace Runex

/-- An accepted rule with a placeholder in its key, and not a regex, is literal. -/
theorem RuleAccepted.matchKind_eq_none {engine : RegexLite} {abbr : Abbr}
    (h : RuleAccepted engine abbr) (hregex : abbr.matchKind ≠ some .regex)
    (hbrace : '{' ∈ abbr.key) : abbr.matchKind = none := by
  cases hkind : abbr.matchKind with
  | none => rfl
  | some kind =>
    cases kind with
    | regex => exact absurd hkind hregex
    | glob => exact absurd (show '{' ∈ globKeyForbiddenChars by decide) ((h.glob hkind).1 _ hbrace)

/-- **`{number}` matches exactly the counts.** A `{number}` key of an accepted configuration
    matches a token exactly when the token is the text before the placeholder, a numeral with any
    number of leading zeros whose value is from 1 to 128, and the text after it; there is only one
    such numeral, and its value is the number that is bound. -/
theorem number_match_iff (engine : RegexLite) (config : Config) (h : Accepted engine config)
    (abbr : Abbr) (hmem : abbr ∈ config.abbr) (hregex : abbr.matchKind ≠ some .regex)
    (pre suf : Text) (hkey : abbr.key = pre ++ (numberPlaceholder ++ suf)) (token : Text)
    (bindings : Bindings) :
    matchRule engine abbr token = some bindings ↔ ∃! digits, IsNumeral digits ∧
      token = pre ++ (digits ++ suf) ∧ 1 ≤ numeralValue digits ∧ numeralValue digits ≤ 128 ∧
      bindings = { number := some (numeralValue digits) } := by
  have hrule := h.rule hmem
  have hbrace : '{' ∈ abbr.key := by
    rw [hkey]
    exact List.mem_append_right _ (List.mem_append_left _ (by decide))
  have hkind := hrule.matchKind_eq_none hregex hbrace
  obtain ⟨pre', suf', hsplit'⟩ := splitOnceNumberPlaceholder_of_accepted hrule hkind hbrace
  have hsplit := splitOnceNumberPlaceholder_of_parts hkey hsplit'
  rw [matchRule, hkind]
  dsimp only
  rw [matchAbbrKey_eq_some hbrace hsplit]
  constructor
  · rintro ⟨digits, hdigits⟩
    refine ⟨digits, hdigits, fun other hother => ?_⟩
    have hsame := hother.2.1.symm.trans hdigits.2.1
    exact List.append_cancel_right (List.append_cancel_left hsame)
  · exact fun hunique => hunique.exists

/-- A rule whose key has digits on both sides of its placeholder. -/
def upRule : Abbr where
  key := "1{number}1".toList
  expand := .all "cd {number}".toList
  number := some "../".toList

/-- The digits of the key are not part of the number. -/
theorem number_match_iff_digits :
    matchRule default upRule "10021".toList = some { number := some 2 } ↔
      ∃! digits, IsNumeral digits ∧ "10021".toList = "1".toList ++ (digits ++ "1".toList) ∧
        1 ≤ numeralValue digits ∧ numeralValue digits ≤ 128 ∧
        ({ number := some 2 } : Bindings) = { number := some (numeralValue digits) } :=
  number_match_iff default { version := 1, abbr := [upRule] }
    (accepted_iff.mpr ⟨rfl, rfl, by decide +kernel⟩) upRule (by decide) (by decide) "1".toList
    "1".toList (by decide) "10021".toList { number := some 2 }

end Runex
