import Runex.App.Config.Fallbacks
import Runex.Domain.Expand.Blankness

/-!
# The doctor's checks of the rules

Static checks that tell the user which rules or expansions can never fire: an empty key, an
expansion that is skipped as a self-loop, an expansion that is always blank, and a rule hidden by an
earlier one with the same key.

## Main definitions

- `rewritesTokenToItself`, `alwaysFiresWhenMatched` — the verdicts on one rule
- `checkAbbrQuality`, `checkUnreachableDuplicates` — the checks of a configuration

## Main results

- `blankness_sound` — the static verdict on blankness holds at run time
-/

namespace Runex

open Search

inductive CheckStatus where
  | ok
  | warn
  | error
  deriving DecidableEq, Repr

/-- One line of the report. `detailVerbose` is `none` when it is the same as `detail`. -/
structure Check where
  name : Text
  status : CheckStatus
  detail : Text
  detailVerbose : Option Text := none
  deriving DecidableEq, Repr

/-- Whether the run time is expected to skip the rule as a self-loop with this template, for every
    token it matches. -/
def rewritesTokenToItself (abbr : Abbr) (template : Text) : Bool :=
  match abbr.matchKind with
  | none => template == abbr.key
  | some .glob =>
    let text := replaceAll cursorPlaceholder [] template
    !decide ('?' ∈ abbr.key) && text == replaceFirst ['*'] globCapturePlaceholder abbr.key
  | some .regex => false

/-- Whether the rule, once it matches, is expected to fire in every shell. -/
def alwaysFiresWhenMatched (engine : RegexLite) (abbr : Abbr) : Bool :=
  abbr.expand.allValues.all fun v =>
    let differsFromToken := match abbr.matchKind with
      | none => !rewritesTokenToItself abbr v
      | some _ => decide (' ' ∈ v)
    differsFromToken && blankness engine abbr v == .never

/-- The name of a check of the rule at index `i`. -/
def abbrCheckName (i : ℕ) (what : Text) : Text := "abbr[".toList ++ (decimal i ++ ("].".toList ++ what))

/-- The warnings about one rule. -/
def abbrChecks (engine : RegexLite) (abbr : Abbr) (i : ℕ) : List Check :=
  let number := decimal (i + 1)
  let key := sanitizeForDisplay abbr.key
  (if abbr.key.isEmpty then
    [{ name := abbrCheckName i "empty_key".toList
       status := .warn
       detail := "rule #".toList ++ (number ++ " has an empty key — it will never match".toList) }]
  else []) ++
  ((if abbr.expand.allValues.any (rewritesTokenToItself abbr) then
    [{ name := abbrCheckName i "self_loop".toList
       status := .warn
       detail := "rule #".toList ++ (number ++ (" key == expand ('".toList ++
        (key ++ "') — this rule is always skipped".toList))) }]
  else []) ++
  (if abbr.expand.allValues.any fun v => blankness engine abbr v == .always then
    [{ name := abbrCheckName i "blank_expand".toList
       status := .warn
       detail := "rule #".toList ++ (number ++ (" ('".toList ++ (key ++
        "') has an expand that is blank once \x7b\x7d is removed — that expand never fires".toList))) }]
  else []))

def checkAbbrQuality (engine : RegexLite) (config : Config) : List Check :=
  config.abbr.zipIdx.flatMap fun (abbr, i) => abbrChecks engine abbr i

/-- `strict.unreachable.abbr[i]`. -/
def unreachableCheckName (i : ℕ) : Text := "strict.unreachable.abbr[".toList ++ (decimal i ++ [']'])

/-- The warning that the rule at index `i` is hidden by the one at `firstRule`. -/
def unreachableCheck (abbr : Abbr) (i firstRule : ℕ) : Check where
  name := unreachableCheckName i
  status := .warn
  detail := "rule #".toList ++ (decimal (i + 1) ++ (" ('".toList ++ (sanitizeForDisplay abbr.key ++
    ("') is unreachable — rule #".toList ++ (decimal (firstRule + 1) ++
      " has the same key with no condition and always matches first".toList)))))

/-- What two rules have in common when one hides the other. -/
def Abbr.identity (abbr : Abbr) : Option MatchKind × Text := (abbr.matchKind, abbr.key)

/-- The loop over the rules, with the map from an identity to the unconditional rule recorded for
    it. -/
def unreachableLoop (engine : RegexLite) :
    List (Abbr × ℕ) → List ((Option MatchKind × Text) × ℕ) → List Check
  | [], _ => []
  | (abbr, i) :: rules, unconditionalKeys =>
    match unconditionalKeys.lookup abbr.identity with
    | some firstRule =>
      unreachableCheck abbr i firstRule :: unreachableLoop engine rules unconditionalKeys
    | none =>
      if abbr.whenCommandExists.isNone && alwaysFiresWhenMatched engine abbr then
        unreachableLoop engine rules ((abbr.identity, i) :: unconditionalKeys)
      else unreachableLoop engine rules unconditionalKeys

def checkUnreachableDuplicates (engine : RegexLite) (config : Config) : List Check :=
  unreachableLoop engine config.abbr.zipIdx []

variable {engine : RegexLite} {abbr : Abbr} {template token : Text} {bindings : Bindings}

/-- A match of an accepted `{number}` rule binds a positive number. -/
theorem number_of_accepted (h : RuleAccepted engine abbr) (hphase : phaseOf abbr = .number)
    (hmatch : matchRule engine abbr token = some bindings) :
    ∃ n, bindings = { number := some n } ∧ 1 ≤ n := by
  obtain ⟨hkind, hbrace⟩ := phaseOf_eq_number.mp hphase
  obtain ⟨pre, suf, hsplit⟩ := splitOnceNumberPlaceholder_of_accepted h hkind hbrace
  rw [matchRule, hkind] at hmatch
  obtain ⟨n, hn, hpos, -⟩ := matchAbbrKey_number hbrace hsplit hmatch
  exact ⟨n, hn, hpos⟩

/-- The verdict on a rule that validation accepts holds for every match. -/
theorem verdict_of_accepted (h : RuleAccepted engine abbr)
    (hmatch : matchRule engine abbr token = some bindings) :
    Verdict (blankness engine abbr template) abbr template bindings := by
  cases hphase : phaseOf abbr with
  | exact => exact verdict_exact hphase hmatch
  | number =>
    obtain ⟨n, rfl, hn⟩ := number_of_accepted h hphase hmatch
    exact verdict_number hphase hn
  | glob =>
    have hkind := phaseOf_eq_glob.mp hphase
    exact verdict_pattern (by simp [hkind]) hmatch
  | regex =>
    have hkind := phaseOf_eq_regex.mp hphase
    exact verdict_pattern (by simp [hkind]) hmatch

/-- **Static blankness is sound.** For every rule of an accepted configuration, every template of
    it and every token it matches: with the verdict `always` the rendering is blank whenever there
    is one, so the rule does not fire with that template; with the verdict `never` no rendering of
    it is rejected as blank. -/
theorem blankness_sound (engine : RegexLite) (config : Config) (haccepted : Accepted engine config)
    (abbr : Abbr) (hmem : abbr ∈ config.abbr) (template token : Text) (bindings : Bindings)
    (hmatch : matchRule engine abbr token = some bindings) :
    (blankness engine abbr template = .always →
      (∀ text cursor, renderWithCursor abbr template bindings = some (text, cursor) →
        isBlankExpansion text = true) ∧
      ∀ shell commandExists, abbr.expand.forShell shell = some template →
        tryExpandRule abbr token shell commandExists bindings = none) ∧
    (blankness engine abbr template = .never →
      ∀ text cursor, renderWithCursor abbr template bindings = some (text, cursor) →
        isBlankExpansion text = false) := by
  have hverdict : Verdict (blankness engine abbr template) abbr template bindings :=
    verdict_of_accepted (haccepted.rule hmem) hmatch
  refine ⟨fun halways => ⟨fun text cursor h => (hverdict _ h).1 halways, ?_⟩,
    fun hnever text cursor h => (hverdict _ h).2 hnever⟩
  intro shell commandExists hselected
  rw [Option.eq_none_iff_forall_ne_some]
  intro result htry
  obtain ⟨template', text, cursor, htemplate', hrender, hblank, -⟩ := tryExpandRule_eq_some htry
  rw [hselected, Option.some.injEq] at htemplate'
  subst htemplate'
  rw [(hverdict _ hrender).1 halways] at hblank
  exact absurd hblank (by simp)

/-- A rule that only places the cursor before a space, and a glob rule. -/
def cursorOnlyConfig : Config where
  version := 1
  abbr :=
    [{ key := ['e'], expand := .all ['{', '}', ' '] },
      { key := ['g', '*'], expand := .all ['g', 'o', '{', '*', '}'], matchKind := some .glob }]

theorem cursorOnlyConfig_accepted : Accepted default cursorOnlyConfig :=
  accepted_iff.mpr ⟨rfl, by decide, by decide +kernel⟩

/-- The first rule never fires on `e`, and on `g` the second never renders blank. -/
theorem blankness_sound_cursorOnly :
    (∀ shell commandExists,
      tryExpandRule { key := ['e'], expand := .all ['{', '}', ' '] } ['e'] shell commandExists {} =
        none) ∧
    ∀ text cursor, renderWithCursor
      { key := ['g', '*'], expand := .all ['g', 'o', '{', '*', '}'], matchKind := some .glob }
      ['g', 'o', '{', '*', '}'] { glob := some [] } = some (text, cursor) →
        isBlankExpansion text = false := by
  refine ⟨fun shell commandExists => ?_, ?_⟩
  · refine ((blankness_sound default cursorOnlyConfig cursorOnlyConfig_accepted _ (.head _)
      ['{', '}', ' '] ['e'] {} (by decide +kernel)).1 (by decide +kernel)).2 shell commandExists ?_
    cases shell <;> rfl
  · exact (blankness_sound default cursorOnlyConfig cursorOnlyConfig_accepted _ (.tail _ (.head _))
      ['g', 'o', '{', '*', '}'] ['g'] { glob := some [] } (by decide +kernel)).2 (by decide +kernel)

end Runex
