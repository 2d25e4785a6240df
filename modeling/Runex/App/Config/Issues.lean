import Runex.App.Config

/-!
# The issues of a configuration as a list

Each walk is `forM` over a list of issues, so what the visitors keep is a statement about that
list. A configuration is accepted when the list is empty and the key bindings pass their check.

## Main definitions

- `ruleIssues`, `validationIssues` — the issues of a rule, and of a configuration
- `Accepted` — `parse_config` returns this configuration for some text

## Main results

- `visitValidationIssues_eq` — the walk is `forM` over the list
- `collectValidationIssues_eq`, `firstValidationError_eq` — what the two visitors keep
- `accepted_iff` — when a configuration is accepted
-/

namespace Runex

open Search
open Text (byteLen isBlank isAsciiControl)

-- ════════════════════════════════════════════════════════════════════════
-- Lists of issues
-- ════════════════════════════════════════════════════════════════════════

def keyIssues (key : Text) (ruleIndex : ℕ) : List ValidationIssue :=
  (checkAbbrKey key).toList.map fun reason => .rule ruleIndex "key".toList reason

def expandIssues (expand : PerShellString) (ruleIndex : ℕ) : List ValidationIssue :=
  expand.variants.flatMap fun (label, s) =>
    (checkExpandValue s).toList.map fun reason =>
      .rule ruleIndex (fieldPath "expand".toList label) reason

def cmdsIssues (cmds : PerShellCmds) (ruleIndex : ℕ) : List ValidationIssue :=
  cmds.variants.flatMap fun (label, list) =>
    let path := fieldPath "when_command_exists".toList label
    if list.length > maxCmdListLen then [.rule ruleIndex path .tooManyCmds]
    else list.zipIdx.flatMap fun (cmd, j) =>
      (checkCmdEntry cmd).toList.map fun reason =>
        .rule ruleIndex (path ++ '[' :: (decimal (j + 1) ++ [']'])) reason

/-- One issue when a test holds. -/
def issueIf (test : Prop) [Decidable test] (issue : ValidationIssue) : List ValidationIssue :=
  if test then [issue] else []

@[simp] theorem issueIf_eq_nil {test : Prop} [Decidable test] {issue : ValidationIssue} :
    issueIf test issue = [] ↔ ¬ test := by
  simp [issueIf]

def globKeyIssues (abbr : Abbr) (ruleIndex : ℕ) : List ValidationIssue :=
  if abbr.matchKind ≠ some .glob then []
  else
    issueIf (abbr.key.any (· ∈ globKeyForbiddenChars))
      (.rule ruleIndex "key".toList .globKeyHasUnsupportedChar) ++
    (issueIf (abbr.key.count '*' > 1) (.rule ruleIndex "key".toList .globKeyHasMultipleStars) ++
    issueIf (¬ abbr.key.any (· ∈ ['*', '?']))
      (.rule ruleIndex "key".toList .globKeyWithoutWildcard))

def regexKeyIssues (engine : RegexLite) (abbr : Abbr) (ruleIndex : ℕ) : List ValidationIssue :=
  if abbr.matchKind ≠ some .regex then []
  else
    match regexKeyGroupCount engine abbr.key with
    | .error error => [.rule ruleIndex "key".toList (.regexKeyInvalid (sanitizeForDisplay error))]
    | .ok groupCount =>
      abbr.expand.variants.flatMap fun (label, template) =>
        issueIf (refersToMissingRegexGroup template groupCount)
          (.rule ruleIndex (fieldPath "expand".toList label) .regexExpandGroupOutOfRange)

def numberPlaceholderIssues (abbr : Abbr) (ruleIndex : ℕ) : List ValidationIssue :=
  issueIf (hasBrace abbr ∧ '{' ∈ replaceAll numberPlaceholder [] abbr.key)
    (.rule ruleIndex "key".toList .keyHasUnknownPlaceholder) ++
  (issueIf (hasBrace abbr ∧ numberCount abbr > 1)
    (.rule ruleIndex "key".toList .keyHasMultipleNumberPlaceholders) ++
  (issueIf (numberCount abbr ≥ 1 ∧ abbr.number = none)
    (.rule ruleIndex "key".toList .keyHasNumberWithoutUnit) ++
  (issueIf (abbr.number ≠ none ∧ numberCount abbr = 0)
    (.rule ruleIndex "number".toList .numberFieldWithoutKeyPlaceholder) ++
  (abbr.number.bind checkNumberUnit).toList.map fun reason =>
    .rule ruleIndex "number".toList reason)))

def ruleIssues (engine : RegexLite) (abbr : Abbr) (ruleIndex : ℕ) : List ValidationIssue :=
  keyIssues abbr.key ruleIndex ++
  (expandIssues abbr.expand ruleIndex ++
  (abbr.whenCommandExists.toList.flatMap (cmdsIssues · ruleIndex) ++
  (globKeyIssues abbr ruleIndex ++
  (regexKeyIssues engine abbr ruleIndex ++
  numberPlaceholderIssues abbr ruleIndex))))

def validationIssues (engine : RegexLite) (config : Config) : List ValidationIssue :=
  if config.abbr.length > maxAbbrRules then [.config .tooManyRules]
  else config.abbr.zipIdx.flatMap fun (abbr, i) => ruleIssues engine abbr (i + 1)

-- ════════════════════════════════════════════════════════════════════════
-- Every walk is `forM` over its list
-- ════════════════════════════════════════════════════════════════════════

section Walks

variable {m : Type → Type} [Monad m] [LawfulMonad m] (f : ValidationIssue → m Unit)

theorem reportSome_eq (reason : Option ValidationReason) (issue : ValidationReason → ValidationIssue) :
    reportSome reason (fun reason => f (issue reason)) = forM (reason.toList.map issue) f := by
  cases reason <;> simp [reportSome]

theorem reportIf_eq (test : Prop) [Decidable test] (issue : ValidationIssue) :
    reportIf test (f issue) = forM (issueIf test issue) f := by
  by_cases h : test <;> simp [issueIf, reportIf, h]

/-- A test in front of two reports is a conjunct of each. -/
theorem reportIf_pair_eq (test p q : Prop) [Decidable test] [Decidable p] [Decidable q]
    (first second : ValidationIssue) :
    reportIf test (do reportIf p (f first); reportIf q (f second)) =
      forM (issueIf (test ∧ p) first ++ issueIf (test ∧ q) second) f := by
  by_cases h : test
  · simp only [reportIf, h, if_true, true_and, List.forM_append, ← reportIf_eq]
  · simp [reportIf, issueIf, h]

theorem walkExpandIssues_eq (expand : PerShellString) (ruleIndex : ℕ) :
    walkExpandIssues expand ruleIndex f = forM (expandIssues expand ruleIndex) f := by
  refine List.forM_congr expand.variants fun (label, s) => ?_
  exact reportSome_eq f _ _

theorem walkCmdsIssues_eq (cmds : PerShellCmds) (ruleIndex : ℕ) :
    walkCmdsIssues cmds ruleIndex f = forM (cmdsIssues cmds ruleIndex) f := by
  refine List.forM_congr cmds.variants fun (label, list) => ?_
  by_cases hlen : list.length > maxCmdListLen
  · simp [hlen]
  · simp only [hlen, if_false]
    refine List.forM_congr list.zipIdx fun (cmd, j) => ?_
    exact reportSome_eq f _ _

theorem walkGlobKeyIssues_eq (abbr : Abbr) (ruleIndex : ℕ) :
    walkGlobKeyIssues abbr ruleIndex f = forM (globKeyIssues abbr ruleIndex) f := by
  unfold walkGlobKeyIssues globKeyIssues
  split
  · rfl
  · simp only [List.forM_append, reportIf_eq]

theorem walkRegexKeyIssues_eq (engine : RegexLite) (abbr : Abbr) (ruleIndex : ℕ) :
    walkRegexKeyIssues engine abbr ruleIndex f = forM (regexKeyIssues engine abbr ruleIndex) f := by
  unfold walkRegexKeyIssues regexKeyIssues
  split
  · rfl
  · cases regexKeyGroupCount engine abbr.key with
    | error error => simp
    | ok groupCount =>
      refine List.forM_congr abbr.expand.variants fun (label, template) => ?_
      exact reportIf_eq f _ _

theorem walkNumberPlaceholderIssues_eq (abbr : Abbr) (ruleIndex : ℕ) :
    walkNumberPlaceholderIssues abbr ruleIndex f =
      forM (numberPlaceholderIssues abbr ruleIndex) f := by
  unfold walkNumberPlaceholderIssues numberPlaceholderIssues
  rw [reportIf_pair_eq, ← List.append_assoc]
  simp only [reportIf_eq, reportSome_eq, List.forM_append]

theorem walkRuleIssues_eq (engine : RegexLite) (abbr : Abbr) (ruleIndex : ℕ) :
    walkRuleIssues engine abbr ruleIndex f = forM (ruleIssues engine abbr ruleIndex) f := by
  unfold walkRuleIssues ruleIssues
  simp only [List.forM_append, reportSome_eq, keyIssues, walkExpandIssues_eq, walkGlobKeyIssues_eq,
    walkRegexKeyIssues_eq, walkNumberPlaceholderIssues_eq]
  cases abbr.whenCommandExists <;> simp [walkCmdsIssues_eq]

/-- The walk over a configuration hands its issues to the visitor, in order. -/
theorem visitValidationIssues_eq (engine : RegexLite) (config : Config) :
    visitValidationIssues engine config f = forM (validationIssues engine config) f := by
  unfold visitValidationIssues validationIssues
  split
  · simp
  · refine List.forM_congr config.abbr.zipIdx fun (abbr, i) => ?_
    exact walkRuleIssues_eq f engine abbr (i + 1)

end Walks

theorem collectValidationIssues_eq (engine : RegexLite) (config : Config) :
    collectValidationIssues engine config = validationIssues engine config := by
  rw [collectValidationIssues, visitValidationIssues_eq, Visit.collect_forM]

/-- The error is that of the first issue. -/
theorem firstValidationError_eq (engine : RegexLite) (config : Config) :
    firstValidationError engine config =
      (validationIssues engine config).head?.map ValidationIssue.toConfigError := by
  rw [firstValidationError, visitValidationIssues_eq, Visit.first_forM]

-- ════════════════════════════════════════════════════════════════════════
-- Accepted configurations
-- ════════════════════════════════════════════════════════════════════════

/-- `parse_config` returns this configuration, for some reader and text. -/
def Accepted (engine : RegexLite) (config : Config) : Prop :=
  ∃ fromStr s, parseConfig engine fromStr s = .ok config

theorem parseConfig_eq_ok {engine : RegexLite} {fromStr : Text → Except Text Config} {s : Text}
    {config : Config} :
    parseConfig engine fromStr s = .ok config ↔
      fromStr s = .ok config ∧ config.version = 1 ∧ firstKeybindError config = none ∧
        validationIssues engine config = [] := by
  cases hread : fromStr s with
  | error message => simp [parseConfig, parseConfigLenient, hread, Except.mapError, bind, Except.bind]
  | ok read =>
    by_cases hversion : read.version = 1
    · have hlenient : parseConfigLenient fromStr s = .ok read := by
        simp [parseConfigLenient, hread, hversion, Except.mapError, bind, Except.bind, pure,
          Except.pure]
      simp only [parseConfig, hlenient, bind, Except.bind, firstValidationError_eq]
      cases hkeybind : firstKeybindError read with
      | some error =>
        simp only [reduceCtorEq, Except.ok.injEq, false_iff, not_and]
        rintro rfl
        simp [hkeybind]
      | none =>
        cases hissues : validationIssues engine read with
        | cons issue issues =>
          simp only [List.head?_cons, Option.map_some, reduceCtorEq, Except.ok.injEq, false_iff,
            not_and]
          rintro rfl
          simp [hissues]
        | nil =>
          simp only [List.head?_nil, Option.map_none, pure, Except.pure, Except.ok.injEq]
          constructor
          · rintro rfl
            exact ⟨rfl, hversion, hkeybind, hissues⟩
          · exact fun h => h.1
    · have hlenient : parseConfigLenient fromStr s = .error (.unsupportedVersion read.version) := by
        simp [parseConfigLenient, hread, hversion, Except.mapError, bind, Except.bind, throw,
          throwThe, MonadExceptOf.throw]
      simp only [parseConfig, hlenient, bind, Except.bind, reduceCtorEq, Except.ok.injEq, false_iff,
        not_and]
      rintro rfl
      simp [hversion]

theorem accepted_iff {engine : RegexLite} {config : Config} :
    Accepted engine config ↔ config.version = 1 ∧ firstKeybindError config = none ∧
      validationIssues engine config = [] := by
  constructor
  · rintro ⟨fromStr, s, h⟩
    exact (parseConfig_eq_ok.mp h).2
  · intro h
    exact ⟨fun _ => .ok config, [], parseConfig_eq_ok.mpr ⟨rfl, h⟩⟩

-- ════════════════════════════════════════════════════════════════════════
-- What an accepted rule satisfies
-- ════════════════════════════════════════════════════════════════════════

theorem firstReason_eq_none {tests : List (Bool × ValidationReason)} :
    firstReason tests = none ↔ ∀ test ∈ tests, test.1 = false := by
  simp [firstReason, List.find?_eq_none]

/-- A key that passes its check is not blank, not too long, and printable. -/
theorem checkAbbrKey_eq_none {key : Text} :
    checkAbbrKey key = none ↔ key ≠ [] ∧ isBlank key = false ∧ byteLen key ≤ maxKeyBytes ∧
      '\x00' ∉ key ∧ (∀ c ∈ key, isAsciiControl c = false) ∧
      ∀ c ∈ key, isDeceptiveUnicode c = false := by
  simp [checkAbbrKey, firstReason_eq_none]

theorem checkExpandValue_eq_none {expand : Text} :
    checkExpandValue expand = none ↔ expand ≠ [] ∧ isBlank expand = false ∧
      byteLen expand ≤ maxExpandBytes ∧ '\x00' ∉ expand ∧
      (∀ c ∈ expand, isAsciiControl c = false) ∧ ∀ c ∈ expand, isDeceptiveUnicode c = false := by
  simp [checkExpandValue, firstReason_eq_none]

theorem checkCmdEntry_eq_none {cmd : Text} :
    checkCmdEntry cmd = none ↔ cmd ≠ [] ∧ isBlank cmd = false ∧ byteLen cmd ≤ maxCmdBytes ∧
      '\x00' ∉ cmd ∧ (∀ c ∈ cmd, isAsciiControl c = false) ∧
      (∀ c ∈ cmd, isDeceptiveUnicode c = false) ∧ ('/' ∉ cmd ∧ '\\' ∉ cmd ∧ ':' ∉ cmd) ∧
      ∀ c ∈ cmd, c ∉ metachars := by
  simp [checkCmdEntry, firstReason_eq_none]

theorem checkNumberUnit_eq_none {unit : Text} :
    checkNumberUnit unit = none ↔ unit ≠ [] ∧ byteLen unit ≤ maxNumberUnitBytes ∧
      '\x00' ∉ unit ∧ (∀ c ∈ unit, isAsciiControl c = false) ∧
      ∀ c ∈ unit, isDeceptiveUnicode c = false := by
  simp [checkNumberUnit, firstReason_eq_none]

/-- The walked values are the present ones. -/
theorem PerShell.map_snd_variants {α : Type} (value : PerShell α) :
    value.variants.map Prod.snd = value.allValues := by
  cases value with
  | all v => rfl
  | byShell default bash zsh pwsh nu =>
    cases default <;> cases bash <;> cases zsh <;> cases pwsh <;> cases nu <;> rfl

theorem PerShell.forall_mem_variants {α : Type} {value : PerShell α} {p : α → Prop} :
    (∀ label v, (label, v) ∈ value.variants → p v) ↔ ∀ v ∈ value.allValues, p v := by
  simp only [← PerShell.map_snd_variants, List.forall_mem_map, Prod.forall]

/-- What validation says about one rule. -/
structure RuleAccepted (engine : RegexLite) (abbr : Abbr) : Prop where
  key : checkAbbrKey abbr.key = none
  expand : ∀ template ∈ abbr.expand.allValues, checkExpandValue template = none
  cmds : ∀ cmds, abbr.whenCommandExists = some cmds → ∀ list ∈ cmds.allValues,
    list.length ≤ maxCmdListLen ∧ ∀ cmd ∈ list, checkCmdEntry cmd = none
  glob : abbr.matchKind = some .glob →
    (∀ c ∈ abbr.key, c ∉ globKeyForbiddenChars) ∧ abbr.key.count '*' ≤ 1 ∧
      ('*' ∈ abbr.key ∨ '?' ∈ abbr.key)
  regex : abbr.matchKind = some .regex → ∃ groupCount,
    regexKeyGroupCount engine abbr.key = .ok groupCount ∧
      ∀ template ∈ abbr.expand.allValues, refersToMissingRegexGroup template groupCount = false
  placeholder : hasBrace abbr = true →
    '{' ∉ replaceAll numberPlaceholder [] abbr.key ∧ numberCount abbr ≤ 1
  number_of_placeholder : 1 ≤ numberCount abbr → abbr.number ≠ none
  placeholder_of_number : abbr.number ≠ none → 1 ≤ numberCount abbr
  unit : ∀ unit, abbr.number = some unit → checkNumberUnit unit = none

theorem toList_map_eq_nil {α β : Type} {value : Option α} {f : α → β} :
    value.toList.map f = [] ↔ value = none := by
  cases value <;> simp

theorem expandIssues_eq_nil {expand : PerShellString} {n : ℕ} :
    expandIssues expand n = [] ↔ ∀ template ∈ expand.allValues, checkExpandValue template = none := by
  simp only [expandIssues, List.flatMap_eq_nil_iff, toList_map_eq_nil, Prod.forall,
    PerShell.forall_mem_variants]

theorem cmdsIssues_eq_nil {cmds : PerShellCmds} {n : ℕ} :
    cmdsIssues cmds n = [] ↔ ∀ list ∈ cmds.allValues,
      list.length ≤ maxCmdListLen ∧ ∀ cmd ∈ list, checkCmdEntry cmd = none := by
  have hlist : ∀ (path : Text) (list : List Text),
      (if list.length > maxCmdListLen then [ValidationIssue.rule n path .tooManyCmds]
        else list.zipIdx.flatMap fun (cmd, j) =>
          (checkCmdEntry cmd).toList.map fun reason =>
            .rule n (path ++ '[' :: (decimal (j + 1) ++ [']'])) reason) = [] ↔
      list.length ≤ maxCmdListLen ∧ ∀ cmd ∈ list, checkCmdEntry cmd = none := by
    intro path list
    split
    · next h => simp; omega
    · next h =>
      have hmem : (∀ cmd j, (cmd, j) ∈ list.zipIdx → checkCmdEntry cmd = none) ↔
          ∀ cmd ∈ list, checkCmdEntry cmd = none := by
        constructor
        · intro hall cmd hmem
          obtain ⟨j, hget⟩ := List.mem_iff_getElem?.mp hmem
          exact hall cmd j (List.mem_zipIdx_iff_getElem?.mpr hget)
        · intro hall cmd j hmem
          exact hall cmd (List.fst_mem_of_mem_zipIdx hmem)
      simp only [List.flatMap_eq_nil_iff, toList_map_eq_nil, Prod.forall, hmem]
      exact ⟨fun hall => ⟨by omega, hall⟩, fun hall => hall.2⟩
  simp only [cmdsIssues, List.flatMap_eq_nil_iff, Prod.forall, hlist,
    PerShell.forall_mem_variants]

theorem globKeyIssues_eq_nil {abbr : Abbr} {n : ℕ} :
    globKeyIssues abbr n = [] ↔ (abbr.matchKind = some .glob →
      (∀ c ∈ abbr.key, c ∉ globKeyForbiddenChars) ∧ abbr.key.count '*' ≤ 1 ∧
        ('*' ∈ abbr.key ∨ '?' ∈ abbr.key)) := by
  unfold globKeyIssues
  split
  · next h => simp [h]
  · next h =>
    simp only [ne_eq, not_not] at h
    have hwildcard : abbr.key.any (· ∈ ['*', '?']) = true ↔ '*' ∈ abbr.key ∨ '?' ∈ abbr.key := by
      simp only [List.any_eq_true, decide_eq_true_eq, List.mem_cons, List.not_mem_nil, or_false,
        and_or_left, exists_or, exists_eq_right]
    simp only [List.append_eq_nil_iff, issueIf_eq_nil, not_not, hwildcard, h, forall_const,
      gt_iff_lt, not_lt, List.any_eq_true, decide_eq_true_eq, not_exists, not_and]

theorem regexKeyIssues_eq_nil {engine : RegexLite} {abbr : Abbr} {n : ℕ} :
    regexKeyIssues engine abbr n = [] ↔ (abbr.matchKind = some .regex → ∃ groupCount,
      regexKeyGroupCount engine abbr.key = .ok groupCount ∧
        ∀ template ∈ abbr.expand.allValues,
          refersToMissingRegexGroup template groupCount = false) := by
  unfold regexKeyIssues
  split
  · next h => simp [h]
  · next h =>
    simp only [ne_eq, not_not] at h
    cases regexKeyGroupCount engine abbr.key with
    | error error => simp [h]
    | ok groupCount =>
      simp only [List.flatMap_eq_nil_iff, issueIf_eq_nil, Bool.not_eq_true, Prod.forall,
        PerShell.forall_mem_variants, h, forall_const, Except.ok.injEq, exists_eq_left']

/-- The number of a rule does not decide whether it has issues. -/
theorem ruleIssues_eq_nil {engine : RegexLite} {abbr : Abbr} {n : ℕ} :
    ruleIssues engine abbr n = [] ↔ RuleAccepted engine abbr := by
  simp only [ruleIssues, keyIssues, numberPlaceholderIssues, List.append_eq_nil_iff,
    toList_map_eq_nil, List.flatMap_eq_nil_iff, Option.mem_toList, expandIssues_eq_nil,
    cmdsIssues_eq_nil, globKeyIssues_eq_nil, regexKeyIssues_eq_nil, issueIf_eq_nil]
  constructor
  · rintro ⟨hkey, hexpand, hcmds, hglob, hregex, hunknown, hmultiple, hwithout, hfield, hunit⟩
    refine ⟨hkey, hexpand, fun cmds hsome => hcmds cmds hsome, hglob, hregex, fun hbrace => ⟨?_, ?_⟩,
      ?_, ?_, ?_⟩
    · exact fun hmem => hunknown ⟨hbrace, hmem⟩
    · exact Nat.le_of_not_lt fun hlt => hmultiple ⟨hbrace, hlt⟩
    · exact fun hcount hnone => hwithout ⟨hcount, hnone⟩
    · exact fun hsome => Nat.pos_of_ne_zero fun hzero => hfield ⟨hsome, hzero⟩
    · intro unit hsome
      simpa [hsome] using hunit
  · intro h
    refine ⟨h.key, h.expand, fun cmds hsome => h.cmds cmds hsome, h.glob, h.regex, ?_, ?_, ?_, ?_, ?_⟩
    · exact fun ⟨hbrace, hmem⟩ => (h.placeholder hbrace).1 hmem
    · exact fun ⟨hbrace, hlt⟩ => Nat.not_le_of_lt hlt (h.placeholder hbrace).2
    · exact fun ⟨hcount, hnone⟩ => h.number_of_placeholder hcount hnone
    · exact fun ⟨hsome, hzero⟩ => absurd (h.placeholder_of_number hsome) (by omega)
    · cases hnumber : abbr.number with
      | none => rfl
      | some unit => exact h.unit unit hnumber

/-- A configuration is accepted when its version and key bindings are, and every rule on its own. -/
theorem accepted_iff_rules {engine : RegexLite} {config : Config} :
    Accepted engine config ↔ config.version = 1 ∧ firstKeybindError config = none ∧
      config.abbr.length ≤ maxAbbrRules ∧ ∀ abbr ∈ config.abbr, RuleAccepted engine abbr := by
  rw [accepted_iff]
  refine and_congr_right fun _ => and_congr_right fun _ => ?_
  unfold validationIssues
  split
  · next h => simp [Nat.not_le_of_lt h]
  · next h =>
    rw [List.flatMap_eq_nil_iff, and_iff_right (Nat.le_of_not_lt h)]
    constructor
    · intro hissues abbr hmem
      obtain ⟨i, hget⟩ := List.mem_iff_getElem?.mp hmem
      exact ruleIssues_eq_nil.mp (hissues (abbr, i) (List.mem_zipIdx_iff_getElem?.mpr hget))
    · exact fun hrules pair hpair =>
        ruleIssues_eq_nil.mpr (hrules pair.1 (List.fst_mem_of_mem_zipIdx hpair))

/-- Every rule of an accepted configuration is accepted. -/
theorem Accepted.rule {engine : RegexLite} {config : Config} (h : Accepted engine config)
    {abbr : Abbr} (hmem : abbr ∈ config.abbr) : RuleAccepted engine abbr :=
  (accepted_iff_rules.mp h).2.2.2 abbr hmem

end Runex
