import Runex.App.Doctor.Report

/-!
# The rows of the report that are advice

All rows but the first two fail nothing, and are safe to print whatever stands in the configuration
and in the files.

## Main definitions

- `Check.IsAdvice` — a row that fails nothing and is safe to print

## Main results

- `diagnoseRest_isAdvice` — the rows about the environment and the rules
- `checkRejectedRules_isAdvice` — the rows about rejected rules
- `checkUnknownFields_isAdvice`, `checkUnreachableDuplicates_isAdvice` — the rows of `--strict`
-/

namespace Runex

open FileSystem (Path)
open Toml

/-- A row that fails nothing, has one detail, and is safe to print. -/
structure Check.IsAdvice (check : Check) : Prop where
  noError : check.status ≠ .error
  name : isShown check.name = true
  detail : isShown check.detail = true
  verbose : check.detailVerbose = none

variable {check : Check} {host : Host}

theorem isAdvice_warn {name detail : Text} (hname : isShown name = true)
    (hdetail : isShown detail = true) : Check.IsAdvice { name, status := .warn, detail } :=
  ⟨CheckStatus.noConfusion, hname, hdetail, rfl⟩

theorem isShown_shellShortName (shell : Shell) : isShown (shellShortName shell) = true := by
  cases shell <;> exact isShown_literal (by decide)

theorem checkEffectiveSearchPath_isAdvice (s : EffectiveSearchPathSummary) :
    (checkEffectiveSearchPath s).IsAdvice where
  noError := by
    show (if s.fromProcess = 0 then CheckStatus.warn else .ok) ≠ .error
    split <;> decide
  name := show isShown "effective_search_path".toList = true from isShown_literal (by decide)
  detail := by
    show isShown (decimal _ ++ (_ ++ (decimal _ ++ (_ ++ (decimal _ ++ (_ ++ (decimal _ ++ [')'])))))))
      = true
    simp only [isShown_append, isShown_decimal, true_and]
    exact ⟨isShown_literal (by decide), isShown_literal (by decide), isShown_literal (by decide),
      isShown_singleton (by decide)⟩
  verbose := rfl

/-- The name and the detail of a check of the integration are safe to print. -/
def IntegrationCheck.IsShown : IntegrationCheck → Prop
  | .ok name detail | .outdated name detail _ | .missing name detail | .skipped name detail =>
    isShown name = true ∧ isShown detail = true

theorem integrationCheckToCheck_isAdvice {r : IntegrationCheck} (h : r.IsShown) :
    (integrationCheckToCheck r).IsAdvice := by
  cases r <;> exact ⟨by simp [integrationCheckToCheck], h.1, h.2, rfl⟩

theorem isShown_markerFound (path : Path) :
    isShown ("marker found in ".toList ++ sanitizeForDisplay (displayPath path)) = true :=
  isShown_append.mpr ⟨isShown_literal (by decide), isShown_sanitizeForDisplay _⟩

theorem legacyDetail_isShown (shell : Shell) (path cachePath : Path) (hasExpected : Bool) :
    isShown (legacyDetail shell path cachePath hasExpected) = true := by
  cases hasExpected with
  | true =>
    show isShown (_ ++ sanitizeForDisplay _ ++ _ ++ shellShortName shell ++ _ ++ _) = true
    simp only [isShown_append, isShown_sanitizeForDisplay, isShown_shellShortName, and_true]
    and_intros <;> exact isShown_literal (by decide)
  | false =>
    show isShown (_ ++ sanitizeForDisplay _ ++ _ ++ shellShortName shell ++ _ ++
      sanitizeForDisplay _ ++ _ ++ shellShortName shell ++ ['`']) = true
    simp only [isShown_append, isShown_sanitizeForDisplay, isShown_shellShortName, and_true]
    exact ⟨⟨⟨⟨isShown_literal (by decide), isShown_literal (by decide)⟩,
      isShown_literal (by decide)⟩, isShown_literal (by decide)⟩, isShown_singleton (by decide)⟩

theorem checkRcfileMarker_isShown (disk : Disk) (shell : Shell) (env : HomeDirs)
    (rcfileOverride : Option Path) : (checkRcfileMarker disk shell env rcfileOverride).IsShown := by
  have hname : isShown ("integration:".toList ++ shellShortName shell) = true :=
    isShown_append.mpr ⟨isShown_literal (by decide), isShown_shellShortName shell⟩
  rw [checkRcfileMarker]
  split
  · exact ⟨hname, isShown_literal (by decide)⟩
  · next path _ =>
    dsimp only
    split
    · refine ⟨hname, ?_⟩
      simp only [isShown_append, isShown_sanitizeForDisplay, and_true]
      and_intros <;> exact isShown_literal (by decide)
    split
    · refine ⟨hname, ?_⟩
      simp only [isShown_append, isShown_sanitizeForDisplay, isShown_shellShortName, and_true]
      and_intros <;> exact isShown_literal (by decide)
    split
    · refine ⟨hname, ?_⟩
      simp only [isShown_append, isShown_sanitizeForDisplay, isShown_shellShortName, and_true]
      exact ⟨⟨isShown_literal (by decide), isShown_literal (by decide)⟩,
        isShown_singleton (by decide)⟩
    split
    · split
      · exact ⟨hname, isShown_markerFound path⟩
      · exact ⟨hname, legacyDetail_isShown shell path _ _⟩
    · exact ⟨hname, isShown_markerFound path⟩

/-- No path is shown as it is. -/
theorem cachePath_error {shell : Shell} {cacheHome : Option Path} {e : CacheError}
    (h : cachePath shell cacheHome = .error e) : isShown e.display = true := by
  have he : e = .noCacheDir := by
    cases shell <;> cases cacheHome <;> cases h <;> rfl
  rw [he]
  exact isShown_literal (by decide)

theorem checkCacheFreshness_isShown (disk : Disk) (shell : Shell) (cacheHome : Option Path) :
    (checkCacheFreshness disk shell cacheHome).IsShown := by
  have hname : isShown ("integration:".toList ++ shellShortName shell ++ ":cache".toList) = true :=
    isShown_append.mpr ⟨isShown_append.mpr ⟨isShown_literal (by decide),
      isShown_shellShortName shell⟩, isShown_literal (by decide)⟩
  have hupToDate : ∀ path : Path,
      isShown ("cache up-to-date at ".toList ++ sanitizeForDisplay (displayPath path)) = true :=
    fun path => isShown_append.mpr ⟨isShown_literal (by decide), isShown_sanitizeForDisplay _⟩
  rw [checkCacheFreshness]
  split
  · exact ⟨hname, isShown_literal (by decide)⟩
  · next e he =>
    exact ⟨hname, isShown_append.mpr ⟨isShown_literal (by decide), cachePath_error he⟩⟩
  · dsimp only
    split
    · refine ⟨hname, ?_⟩
      simp only [isShown_append, isShown_sanitizeForDisplay, isShown_shellShortName, and_true]
      and_intros <;> exact isShown_literal (by decide)
    split
    · refine ⟨hname, ?_⟩
      simp only [isShown_append, isShown_sanitizeForDisplay, and_true]
      and_intros <;> exact isShown_literal (by decide)
    split
    · refine ⟨hname, ?_⟩
      simp only [isShown_append, isShown_sanitizeForDisplay, isShown_shellShortName, and_true]
      and_intros <;> exact isShown_literal (by decide)
    split
    · refine ⟨hname, ?_⟩
      simp only [isShown_append, isShown_sanitizeForDisplay, isShown_shellShortName, and_true]
      and_intros <;> exact isShown_literal (by decide)
    split
    · refine ⟨hname, ?_⟩
      simp only [isShown_append, isShown_sanitizeForDisplay, isShown_shellShortName, isShown_decimal,
        and_true]
      and_intros <;> exact isShown_literal (by decide)
    split
    · exact ⟨hname, hupToDate _⟩
    split
    · refine ⟨hname, ?_⟩
      simp only [isShown_append, isShown_sanitizeForDisplay, isShown_shellShortName, and_true]
      and_intros <;> exact isShown_literal (by decide)
    · exact ⟨hname, hupToDate _⟩

theorem checkClinkLuaFreshness_isShown (disk : Disk) (currentExport : Text)
    (searchPaths : List Path) : (checkClinkLuaFreshness disk currentExport searchPaths).IsShown := by
  have hname : isShown "integration:clink".toList = true := isShown_literal (by decide)
  induction searchPaths with
  | nil => exact ⟨hname, isShown_literal (by decide)⟩
  | cons candidate searchPaths ih =>
    rw [checkClinkLuaFreshness]
    split
    · exact ih
    · rw [clinkFreshness]
      split
      · refine ⟨hname, ?_⟩
        exact isShown_append.mpr ⟨isShown_literal (by decide), isShown_sanitizeForDisplay _⟩
      · refine ⟨hname, ?_⟩
        simp only [isShown_append, isShown_sanitizeForDisplay, and_true]
        and_intros <;> exact isShown_literal (by decide)

-- ════════════════════════════════════════════════════════════════════════
-- The rows about the rules
-- ════════════════════════════════════════════════════════════════════════

theorem abbrChecks_isAdvice {engine : RegexLite} {abbr : Abbr} {i : ℕ}
    (h : check ∈ abbrChecks engine abbr i) : check.IsAdvice := by
  have hname : ∀ what, isShown what = true → isShown (abbrCheckName i what) = true := by
    intro what hwhat
    simp only [abbrCheckName, isShown_append, isShown_decimal, hwhat, true_and, and_true]
    and_intros <;> exact isShown_literal (by decide)
  simp only [abbrChecks, List.mem_append, List.mem_ite_nil_right, List.mem_singleton] at h
  rcases h with ⟨-, rfl⟩ | ⟨-, rfl⟩ | ⟨-, rfl⟩
  · refine isAdvice_warn (hname _ (isShown_literal (by decide))) ?_
    simp only [isShown_append, isShown_decimal, true_and]
    and_intros <;> exact isShown_literal (by decide)
  · refine isAdvice_warn (hname _ (isShown_literal (by decide))) ?_
    simp only [isShown_append, isShown_decimal, isShown_sanitizeForDisplay, true_and]
    and_intros <;> exact isShown_literal (by decide)
  · refine isAdvice_warn (hname _ (isShown_literal (by decide))) ?_
    simp only [isShown_append, isShown_decimal, isShown_sanitizeForDisplay, true_and]
    and_intros <;> exact isShown_literal (by decide)

theorem checkAbbrQuality_isAdvice {engine : RegexLite} {config : Config}
    (h : check ∈ checkAbbrQuality engine config) : check.IsAdvice := by
  obtain ⟨⟨abbr, i⟩, -, hmem⟩ := List.mem_flatMap.mp h
  exact abbrChecks_isAdvice hmem

theorem commandCheck_isAdvice (commandExists : Text → Bool) (cmd key : Text) :
    (commandCheck commandExists cmd key).IsAdvice where
  noError := by
    show (if commandExists cmd then CheckStatus.ok else .warn) ≠ .error
    split <;> decide
  name := isShown_append.mpr ⟨isShown_literal (by decide), isShown_sanitizeForDisplay _⟩
  detail := by
    refine isShown_cons.mpr ⟨by decide, ?_⟩
    simp only [isShown_append, isShown_sanitizeForDisplay, true_and]
    refine ⟨?_, isShown_literal (by decide)⟩
    split <;> exact isShown_literal (by decide)
  verbose := rfl

theorem commandChecksLoop_isAdvice {commandExists : Text → Bool} {required : List (Text × Text)}
    {seen : List Text} (h : check ∈ commandChecksLoop commandExists required seen) :
    check.IsAdvice := by
  induction required generalizing seen with
  | nil => cases h
  | cons first required ih =>
    obtain ⟨cmd, key⟩ := first
    rw [commandChecksLoop] at h
    split at h
    · exact ih h
    · rcases List.mem_cons.mp h with rfl | h
      · exact commandCheck_isAdvice _ _ _
      · exact ih h

theorem checkKeybind_isAdvice {config : Config} (h : check ∈ checkKeybind config) :
    check.IsAdvice := by
  rw [checkKeybind] at h
  split at h
  · obtain rfl := List.mem_singleton.mp h
    refine isAdvice_warn (isShown_literal (by decide)) ?_
    exact isShown_append.mpr ⟨isShown_literal (by decide), isShown_literal (by decide)⟩
  · cases h

theorem checkRegexGitBash_isAdvice {config : Config} {windows : Bool}
    (h : checkRegexGitBash config windows = some check) : check.IsAdvice := by
  rw [checkRegexGitBash] at h
  split at h
  · obtain rfl := Option.some.inj h
    refine isAdvice_warn (isShown_literal (by decide)) ?_
    exact isShown_append.mpr ⟨isShown_decimal _, isShown_literal (by decide)⟩
  · cases h

/-- All rows but the first two are advice. -/
theorem diagnoseRest_isAdvice {engine : RegexLite} {config : Option Config}
    {envInfo : DoctorEnvInfo} {commandExists : Text → Bool}
    (h : check ∈ diagnoseRest engine host config envInfo commandExists) : check.IsAdvice := by
  simp only [diagnoseRest, List.mem_append, Option.mem_toList, Option.map_eq_some_iff,
    integrationMarkerChecks, integrationCacheChecks, List.mem_map, List.mem_flatMap] at h
  rcases h with ⟨s, -, rfl⟩ | ⟨shell, -, rfl⟩ | ⟨shell, -, rfl⟩ | ⟨script, -, rfl⟩ |
    ⟨config, -, h | h | h | h⟩
  · exact checkEffectiveSearchPath_isAdvice s
  · exact integrationCheckToCheck_isAdvice (checkRcfileMarker_isShown _ _ _ _)
  · exact integrationCheckToCheck_isAdvice (checkCacheFreshness_isShown _ _ _)
  · exact integrationCheckToCheck_isAdvice (checkClinkLuaFreshness_isShown _ _ _)
  · exact checkKeybind_isAdvice h
  · exact checkAbbrQuality_isAdvice h
  · exact checkRegexGitBash_isAdvice h
  · exact commandChecksLoop_isAdvice h

-- ════════════════════════════════════════════════════════════════════════
-- The rows about the text of the configuration
-- ════════════════════════════════════════════════════════════════════════

def ValidationIssue.reason : ValidationIssue → ValidationReason
  | .config reason | .rule _ _ reason => reason

theorem isShown_text {reason : ValidationReason}
    (h : ∀ engineText, reason = .regexKeyInvalid engineText → isShown engineText = true) :
    isShown reason.text = true := by
  cases reason with
  | regexKeyInvalid engineText =>
    exact isShown_append.mpr ⟨isShown_literal (by decide), h engineText rfl⟩
  | _ => exact isShown_literal (by decide)

theorem issueCheck_isAdvice {issue : ValidationIssue} (h : isShown issue.reason.text = true) :
    (issueCheck issue).IsAdvice := by
  cases issue with
  | config reason =>
    exact isAdvice_warn (isShown_literal (by decide))
      (isShown_append.mpr ⟨isShown_literal (by decide), h⟩)
  | rule ruleIndex fieldPath reason =>
    have hreason : isShown reason.text = true := h
    refine isAdvice_warn ?_ ?_
    · simp only [isShown_append, isShown_decimal, isShown_sanitizeForDisplay, true_and, and_true]
      and_intros <;> exact isShown_literal (by decide)
    · simp only [isShown_append, isShown_decimal, isShown_sanitizeForDisplay, true_and, hreason,
        and_true]
      and_intros <;> exact isShown_literal (by decide)

/-- The first reason is one of those listed. -/
theorem firstReason_ne {tests : List (Bool × ValidationReason)} {engineText : Text}
    (h : ∀ test ∈ tests, test.2 ≠ .regexKeyInvalid engineText) :
    firstReason tests ≠ some (.regexKeyInvalid engineText) := by
  rw [firstReason, Ne, Option.map_eq_some_iff]
  rintro ⟨test, hfound, hreason⟩
  exact h test (List.mem_of_find?_eq_some hfound) hreason

/-- The text of the regex engine is the only one that is not the program's own, and is sanitized. -/
theorem engineText_isShown {engine : RegexLite} {abbr : Abbr} {n : ℕ} {issue : ValidationIssue}
    {engineText : Text} (hmem : issue ∈ ruleIssues engine abbr n)
    (hreason : issue.reason = .regexKeyInvalid engineText) : isShown engineText = true := by
  have hkey : checkAbbrKey abbr.key ≠ some (.regexKeyInvalid engineText) :=
    firstReason_ne (by simp)
  have hexpand : ∀ s, checkExpandValue s ≠ some (.regexKeyInvalid engineText) :=
    fun _ => firstReason_ne (by simp)
  have hcmd : ∀ cmd, checkCmdEntry cmd ≠ some (.regexKeyInvalid engineText) :=
    fun _ => firstReason_ne (by simp)
  have hnumber : ∀ unit, checkNumberUnit unit ≠ some (.regexKeyInvalid engineText) :=
    fun _ => firstReason_ne (by simp)
  simp only [ruleIssues, keyIssues, expandIssues, cmdsIssues, globKeyIssues, regexKeyIssues,
    numberPlaceholderIssues, issueIf, List.mem_append, List.mem_map, List.mem_flatMap,
    Option.mem_toList, List.mem_ite_nil_left, List.mem_ite_nil_right, List.mem_singleton] at hmem
  rcases hmem with ⟨reason, h, rfl⟩ | ⟨_, -, reason, h, rfl⟩ | ⟨cmds, -, ⟨label, list⟩, -, h⟩ |
    ⟨-, ⟨-, rfl⟩ | ⟨-, rfl⟩ | ⟨-, rfl⟩⟩ | ⟨-, h⟩ |
    ⟨-, rfl⟩ | ⟨-, rfl⟩ | ⟨-, rfl⟩ | ⟨-, rfl⟩ | ⟨reason, h, rfl⟩
  · obtain rfl : reason = _ := hreason
    exact absurd h hkey
  · obtain rfl : reason = _ := hreason
    exact absurd h (hexpand _)
  · split at h
    · obtain rfl := List.mem_singleton.mp h
      cases hreason
    · simp only [List.mem_flatMap, List.mem_map, Option.mem_toList] at h
      obtain ⟨_, -, reason, h, rfl⟩ := h
      obtain rfl : reason = _ := hreason
      exact absurd h (hcmd _)
  · cases hreason
  · cases hreason
  · cases hreason
  · split at h
    · obtain rfl := List.mem_singleton.mp h
      obtain rfl := ValidationReason.regexKeyInvalid.inj hreason
      exact isShown_sanitizeForDisplay _
    · simp only [List.mem_flatMap, List.mem_ite_nil_right, List.mem_singleton] at h
      obtain ⟨_, -, -, rfl⟩ := h
      cases hreason
  · cases hreason
  · cases hreason
  · cases hreason
  · cases hreason
  · obtain rfl : reason = _ := hreason
    obtain ⟨unit, -, h⟩ := Option.bind_eq_some_iff.mp h
    exact absurd h (hnumber unit)

theorem unreachableCheck_isAdvice (abbr : Abbr) (i firstRule : ℕ) :
    (unreachableCheck abbr i firstRule).IsAdvice := by
  refine isAdvice_warn ?_ ?_
  · show isShown (_ ++ (decimal i ++ [']'])) = true
    rw [isShown_append, isShown_append]
    exact ⟨isShown_literal (by decide), isShown_decimal i, isShown_singleton (by decide)⟩
  · simp only [isShown_append, isShown_decimal, isShown_sanitizeForDisplay, true_and]
    and_intros <;> exact isShown_literal (by decide)

theorem unreachableLoop_isAdvice {engine : RegexLite} {rules : List (Abbr × ℕ)}
    {unconditionalKeys : List ((Option MatchKind × Text) × ℕ)}
    (h : check ∈ unreachableLoop engine rules unconditionalKeys) : check.IsAdvice := by
  induction rules generalizing unconditionalKeys with
  | nil => cases h
  | cons first rules ih =>
    obtain ⟨abbr, i⟩ := first
    rw [unreachableLoop] at h
    split at h
    · rcases List.mem_cons.mp h with rfl | h
      · exact unreachableCheck_isAdvice _ _ _
      · exact ih h
    · split at h <;> exact ih h

theorem checkPrecacheDeprecation_isAdvice {parse : Text → Except Text Table} {configSource : Text}
    (h : check ∈ checkPrecacheDeprecation parse configSource) : check.IsAdvice := by
  rw [checkPrecacheDeprecation] at h
  split at h
  · cases h
  · split at h
    · obtain rfl := List.mem_singleton.mp h
      refine isAdvice_warn (isShown_literal (by decide)) ?_
      exact isShown_append.mpr ⟨isShown_literal (by decide), isShown_literal (by decide)⟩
    · cases h

theorem checkRejectedRules_isAdvice {engine : RegexLite} {fromStr : Text → Except Text Config}
    {configSource : Text} (h : check ∈ checkRejectedRules engine fromStr configSource) :
    check.IsAdvice := by
  rw [checkRejectedRules] at h
  split at h
  · cases h
  · next config _ =>
    dsimp only at h
    split at h
    · cases h
    · rcases List.mem_cons.mp h with rfl | h
      · refine isAdvice_warn (isShown_literal (by decide)) ?_
        exact isShown_append.mpr ⟨isShown_decimal _, isShown_literal (by decide)⟩
      · obtain ⟨issue, hmem, rfl⟩ := List.mem_map.mp h
        refine issueCheck_isAdvice (isShown_text fun engineText hreason => ?_)
        rw [collectValidationIssues_eq, validationIssues] at hmem
        split at hmem
        · obtain rfl := List.mem_singleton.mp hmem
          cases hreason
        · obtain ⟨⟨abbr, i⟩, -, hmem⟩ := List.mem_flatMap.mp hmem
          exact engineText_isShown hmem hreason

theorem checkUnreachableDuplicates_isAdvice {engine : RegexLite} {config : Config}
    (h : check ∈ checkUnreachableDuplicates engine config) : check.IsAdvice :=
  unreachableLoop_isAdvice h

theorem isShown_known (checked : CheckedTable) : ∀ known ∈ checked.known, isShown known = true := by
  have htop : ∀ known ∈ knownTopLevelKeys, isShown known = true := by decide +kernel
  have hkeybind : ∀ known ∈ knownKeybindKeys, isShown known = true := by decide +kernel
  have hsub : ∀ known ∈ knownKeybindSubKeys, isShown known = true := by decide +kernel
  have hprecache : ∀ known ∈ knownPrecacheKeys, isShown known = true := by decide +kernel
  have habbr : ∀ known ∈ knownAbbrKeys, isShown known = true := by decide +kernel
  cases checked with
  | topLevel => exact htop
  | keybind => exact hkeybind
  | keybindTable _ => exact hsub
  | precache => exact hprecache
  | abbr _ => exact habbr

theorem isShown_didYouMean (checked : CheckedTable) (key : Text) :
    isShown (didYouMean (suggestSimilar key checked.known)) = true := by
  cases hs : suggestSimilar key checked.known with
  | none => rfl
  | some s =>
    obtain ⟨before, after, hknown, -⟩ := suggestSimilar_eq_some_iff.mp hs
    have hmem : s ∈ checked.known := by simp [hknown]
    exact isShown_append.mpr ⟨isShown_literal (by decide),
      isShown_append.mpr ⟨isShown_known checked s hmem, isShown_literal (by decide)⟩⟩

/-- Only the name of a known table is printed as it is. -/
theorem unknownFieldCheck_isAdvice {checked : CheckedTable} (h : checked.IsVisited) (key : Text) :
    (unknownFieldCheck checked key).IsAdvice := by
  have hkey : isShown (sanitizeForDisplay key) = true := isShown_sanitizeForDisplay key
  have hquote : isShown ['\''] = true := isShown_singleton (by decide)
  have hlabel : isShown checked.label = true := by
    cases checked with
    | topLevel => rfl
    | keybind | precache => exact isShown_literal (by decide)
    | keybindTable name =>
      refine isShown_append.mpr ⟨isShown_literal (by decide), ?_⟩
      exact isShown_append.mpr ⟨isShown_known .keybind name h, isShown_singleton (by decide)⟩
    | abbr i =>
      refine isShown_append.mpr ⟨isShown_literal (by decide), ?_⟩
      exact isShown_append.mpr ⟨isShown_decimal i, isShown_literal (by decide)⟩
  have hdetail : isShown (checked.detail (sanitizeForDisplay key)) = true := by
    cases checked with
    | topLevel | keybind | precache =>
      refine isShown_append.mpr ⟨isShown_literal (by decide), ?_⟩
      exact isShown_append.mpr ⟨hkey, hquote⟩
    | keybindTable name =>
      refine isShown_append.mpr ⟨isShown_literal (by decide), ?_⟩
      refine isShown_append.mpr ⟨isShown_known .keybind name h, ?_⟩
      refine isShown_append.mpr ⟨isShown_literal (by decide), ?_⟩
      exact isShown_append.mpr ⟨hkey, hquote⟩
    | abbr i =>
      refine isShown_append.mpr ⟨isShown_literal (by decide), ?_⟩
      refine isShown_append.mpr ⟨hkey, ?_⟩
      refine isShown_append.mpr ⟨isShown_literal (by decide), ?_⟩
      exact isShown_append.mpr ⟨isShown_decimal _, isShown_singleton (by decide)⟩
  refine isAdvice_warn ?_ (isShown_append.mpr ⟨hdetail, isShown_didYouMean checked key⟩)
  exact isShown_append.mpr ⟨isShown_literal (by decide), isShown_append.mpr ⟨hlabel, hkey⟩⟩

theorem checkUnknownFields_isAdvice {parse : Text → Except Text Table} {configSource : Text}
    (h : check ∈ checkUnknownFields parse configSource) : check.IsAdvice := by
  obtain ⟨⟨checked, key⟩, hmem, rfl⟩ := List.mem_map.mp h
  rw [reportedFields] at hmem
  split at hmem
  · exact unknownFieldCheck_isAdvice (mem_unknownFields.mp hmem).1 key
  · cases hmem

end Runex
