import Runex.App.Config.Issues

/-!
# The order of the issues

The walk reports the rules in order, and the checks of one rule in six stages. A visitor that
breaks after some number of issues has seen exactly that many from the front of the full list, so
loading a configuration reports the first issue of the list that `doctor` shows.

## Main definitions

- `ValidationReason.stage` — which of the six checks of a rule gives a reason
- `ValidationIssue.NotAfter` — the order of the walk

## Main results

- `pairwise_validationIssues` — the issues come in the order of the walk
- `walks_agree` — the two visitors of the program agree
-/

namespace Runex

-- ════════════════════════════════════════════════════════════════════════
-- Stages
-- ════════════════════════════════════════════════════════════════════════

/-- The check a reason comes from: the key, the expansion, the condition, a glob key, a regex key,
    the number. -/
def ValidationReason.stage : ValidationReason → ℕ
  | .tooManyRules | .keyEmpty | .keyWhitespaceOnly | .keyTooLong | .keyContainsNul
  | .keyContainsControlChar | .keyContainsDeceptiveUnicode => 0
  | .expandEmpty | .expandWhitespaceOnly | .expandTooLong | .expandContainsNul
  | .expandContainsControlChar | .expandContainsDeceptiveUnicode => 1
  | .tooManyCmds | .cmdEmpty | .cmdWhitespaceOnly | .cmdTooLong | .cmdContainsNul
  | .cmdContainsControlChar | .cmdContainsDeceptiveUnicode | .cmdContainsPathSeparator
  | .cmdContainsMetacharacter => 2
  | .globKeyWithoutWildcard | .globKeyHasMultipleStars | .globKeyHasUnsupportedChar => 3
  | .regexKeyInvalid _ | .regexExpandGroupOutOfRange => 4
  | .keyHasUnknownPlaceholder | .keyHasMultipleNumberPlaceholders | .keyHasNumberWithoutUnit
  | .numberFieldWithoutKeyPlaceholder | .numberEmpty | .numberContainsNul
  | .numberContainsControlChar | .numberContainsDeceptiveUnicode | .numberUnitTooLong => 5

/-- The number of the rule, 0 for an issue of the whole configuration. -/
def ValidationIssue.ruleIndex : ValidationIssue → ℕ
  | .config _ => 0
  | .rule ruleIndex _ _ => ruleIndex

def ValidationIssue.stage : ValidationIssue → ℕ
  | .config reason | .rule _ _ reason => reason.stage

/-- An earlier rule, or the same rule and not a later check. -/
def ValidationIssue.NotAfter (a b : ValidationIssue) : Prop :=
  a.ruleIndex < b.ruleIndex ∨ a.ruleIndex = b.ruleIndex ∧ a.stage ≤ b.stage

/-- Issues of one check of rule `n`. -/
def AtStage (n stage : ℕ) (issues : List ValidationIssue) : Prop :=
  ∀ issue ∈ issues, issue.ruleIndex = n ∧ issue.stage = stage

/-- Issues of rule `n` in order, from one check on. -/
def FromStage (n stage : ℕ) (issues : List ValidationIssue) : Prop :=
  issues.Pairwise ValidationIssue.NotAfter ∧
    ∀ issue ∈ issues, issue.ruleIndex = n ∧ stage ≤ issue.stage

variable {n stage : ℕ} {issues rest : List ValidationIssue}

theorem fromStage_nil : FromStage n stage [] := ⟨List.Pairwise.nil, by simp⟩

/-- One check before the later ones. -/
theorem AtStage.append (h : AtStage n stage issues) (hrest : FromStage n (stage + 1) rest) :
    FromStage n stage (issues ++ rest) := by
  obtain ⟨hordered, hlater⟩ := hrest
  constructor
  · refine List.pairwise_append.mpr ⟨List.pairwise_of_forall_mem_list ?_, hordered, ?_⟩
    · intro a ha b hb
      obtain ⟨hindex, hstage⟩ := h a ha
      obtain ⟨hindex', hstage'⟩ := h b hb
      exact Or.inr ⟨by omega, by omega⟩
    · intro a ha b hb
      obtain ⟨hindex, hstage⟩ := h a ha
      obtain ⟨hindex', hstage'⟩ := hlater b hb
      exact Or.inr ⟨by omega, by omega⟩
  · intro issue hmem
    obtain hmem | hmem := List.mem_append.mp hmem
    · obtain ⟨hindex, hstage⟩ := h issue hmem
      exact ⟨hindex, by omega⟩
    · obtain ⟨hindex, hstage⟩ := hlater issue hmem
      exact ⟨hindex, by omega⟩

theorem AtStage.of_append {more : List ValidationIssue} (h : AtStage n stage issues)
    (hmore : AtStage n stage more) : AtStage n stage (issues ++ more) :=
  List.forall_mem_append.mpr ⟨h, hmore⟩

theorem AtStage.flatMap {α : Type} {l : List α} {f : α → List ValidationIssue}
    (h : ∀ a ∈ l, AtStage n stage (f a)) : AtStage n stage (l.flatMap f) := by
  intro issue hmem
  obtain ⟨a, ha, hissue⟩ := List.mem_flatMap.mp hmem
  exact h a ha issue hissue

/-- The reasons of a list of tests are those of its entries. -/
theorem stage_of_firstReason {tests : List (Bool × ValidationReason)} {reason : ValidationReason}
    (hall : ∀ r ∈ tests.map Prod.snd, r.stage = stage) (h : firstReason tests = some reason) :
    reason.stage = stage := by
  obtain ⟨test, htest, rfl⟩ := Option.map_eq_some_iff.mp h
  exact hall _ (List.mem_map_of_mem (List.mem_of_find?_eq_some htest))

/-- One failed check of a string, as issues. -/
theorem atStage_map {reason : Option ValidationReason}
    (h : ∀ r, reason = some r → r.stage = stage) (path : Text) :
    AtStage n stage (reason.toList.map (ValidationIssue.rule n path)) := by
  intro issue hmem
  obtain ⟨r, hr, rfl⟩ := List.mem_map.mp hmem
  exact ⟨rfl, h r (Option.mem_toList.mp hr)⟩

theorem atStage_issueIf (test : Prop) [Decidable test] {path : Text} {reason : ValidationReason}
    (h : reason.stage = stage) : AtStage n stage (issueIf test (.rule n path reason)) := by
  unfold issueIf
  split
  · rintro issue hmem
    obtain rfl := List.mem_singleton.mp hmem
    exact ⟨rfl, h⟩
  · simp [AtStage]

-- ════════════════════════════════════════════════════════════════════════
-- The checks of a rule
-- ════════════════════════════════════════════════════════════════════════

variable (n)

theorem atStage_keyIssues (key : Text) : AtStage n 0 (keyIssues key n) :=
  atStage_map (fun _ => stage_of_firstReason (by simp [ValidationReason.stage])) _

theorem atStage_expandIssues (expand : PerShellString) : AtStage n 1 (expandIssues expand n) :=
  AtStage.flatMap fun _ _ =>
    atStage_map (fun _ => stage_of_firstReason (by simp [ValidationReason.stage])) _

theorem atStage_cmdsIssues (cmds : PerShellCmds) : AtStage n 2 (cmdsIssues cmds n) := by
  refine AtStage.flatMap fun variant _ => ?_
  dsimp only
  split
  · rintro issue hmem
    obtain rfl := List.mem_singleton.mp hmem
    exact ⟨rfl, rfl⟩
  · exact AtStage.flatMap fun _ _ =>
      atStage_map (fun _ => stage_of_firstReason (by simp [ValidationReason.stage])) _

theorem atStage_globKeyIssues (abbr : Abbr) : AtStage n 3 (globKeyIssues abbr n) := by
  unfold globKeyIssues
  split
  · simp [AtStage]
  · exact (atStage_issueIf _ rfl).of_append ((atStage_issueIf _ rfl).of_append (atStage_issueIf _ rfl))

theorem atStage_regexKeyIssues (engine : RegexLite) (abbr : Abbr) :
    AtStage n 4 (regexKeyIssues engine abbr n) := by
  unfold regexKeyIssues
  split
  · simp [AtStage]
  · cases regexKeyGroupCount engine abbr.key with
    | error error =>
      rintro issue hmem
      obtain rfl := List.mem_singleton.mp hmem
      exact ⟨rfl, rfl⟩
    | ok groupCount => exact AtStage.flatMap fun _ _ => atStage_issueIf _ rfl

theorem atStage_numberPlaceholderIssues (abbr : Abbr) :
    AtStage n 5 (numberPlaceholderIssues abbr n) := by
  have hunit : AtStage n 5 ((abbr.number.bind checkNumberUnit).toList.map
      (ValidationIssue.rule n "number".toList)) := by
    refine atStage_map (fun reason hreason => ?_) _
    obtain ⟨unit, -, hunit⟩ := Option.bind_eq_some_iff.mp hreason
    exact stage_of_firstReason (by simp [ValidationReason.stage]) hunit
  exact (atStage_issueIf _ rfl).of_append ((atStage_issueIf _ rfl).of_append
    ((atStage_issueIf _ rfl).of_append ((atStage_issueIf _ rfl).of_append hunit)))

/-- The issues of a rule, check after check. -/
theorem fromStage_ruleIssues (engine : RegexLite) (abbr : Abbr) :
    FromStage n 0 (ruleIssues engine abbr n) := by
  have hnumber : FromStage n 5 (numberPlaceholderIssues abbr n) := by
    have h := (atStage_numberPlaceholderIssues n abbr).append fromStage_nil
    rwa [List.append_nil] at h
  exact (atStage_keyIssues n _).append ((atStage_expandIssues n _).append
    ((AtStage.flatMap fun _ _ => atStage_cmdsIssues n _).append
      ((atStage_globKeyIssues n _).append ((atStage_regexKeyIssues n engine _).append hnumber))))

-- ════════════════════════════════════════════════════════════════════════
-- The whole walk
-- ════════════════════════════════════════════════════════════════════════

variable (engine : RegexLite) (config : Config)

theorem pairwise_zipIdx {α : Type} (l : List α) : l.zipIdx.Pairwise fun a b => a.2 < b.2 := by
  rw [← List.pairwise_map (f := Prod.snd) (R := (· < ·)), List.zipIdx_map_snd]
  exact List.pairwise_lt_range'

/-- Every issue of a configuration within the limit is one of a rule. -/
theorem mem_validationIssues {issue : ValidationIssue} (hlen : config.abbr.length ≤ maxAbbrRules)
    (h : issue ∈ validationIssues engine config) :
    ∃ abbr i, config.abbr[i]? = some abbr ∧ issue ∈ ruleIssues engine abbr (i + 1) := by
  rw [validationIssues, if_neg (Nat.not_lt.mpr hlen)] at h
  obtain ⟨⟨abbr, i⟩, hmem, hissue⟩ := List.mem_flatMap.mp h
  exact ⟨abbr, i, List.mem_zipIdx_iff_getElem?.mp hmem, hissue⟩

/-- The rule of an issue is one of the configuration. -/
theorem ruleIndex_of_mem {issue : ValidationIssue} (hlen : config.abbr.length ≤ maxAbbrRules)
    (h : issue ∈ validationIssues engine config) :
    1 ≤ issue.ruleIndex ∧ issue.ruleIndex ≤ config.abbr.length := by
  obtain ⟨abbr, i, hget, hissue⟩ := mem_validationIssues engine config hlen h
  have hindex := ((fromStage_ruleIssues (i + 1) engine abbr).2 issue hissue).1
  obtain ⟨hlt, -⟩ := List.getElem?_eq_some_iff.mp hget
  omega

/-- The issues come rule after rule, and in one rule check after check. -/
theorem pairwise_validationIssues :
    (validationIssues engine config).Pairwise ValidationIssue.NotAfter := by
  unfold validationIssues
  split
  · exact List.pairwise_singleton _ _
  · refine List.pairwise_flatMap.mpr ⟨fun entry _ => (fromStage_ruleIssues _ engine _).1, ?_⟩
    refine (pairwise_zipIdx config.abbr).imp fun {a b} hlt x hx y hy => Or.inl ?_
    have hxindex := ((fromStage_ruleIssues (a.2 + 1) engine a.1).2 x hx).1
    have hyindex := ((fromStage_ruleIssues (b.2 + 1) engine b.1).2 y hy).1
    omega

/-- **The two walks agree.** For every configuration the error that loading reports is that of the
    first issue of the full list, none when the list is empty, and a visitor that breaks after its
    k-th issue has been handed exactly the first k. The full list goes through the rules in order,
    numbered from 1, and within a rule through the checks of the key, the expansion, the
    condition, a glob key, a regex key and the number; a configuration with too many rules has one
    issue, of the whole configuration, and no other has such an issue. -/
theorem walks_agree :
    firstValidationError engine config =
      (collectValidationIssues engine config).head?.map ValidationIssue.toConfigError ∧
    (firstValidationError engine config = none ↔ collectValidationIssues engine config = []) ∧
    (∀ k, (visitValidationIssues engine config (Visit.upTo (k + 1))).finish [] =
      (collectValidationIssues engine config).take (k + 1)) ∧
    (collectValidationIssues engine config).Pairwise ValidationIssue.NotAfter ∧
    (maxAbbrRules < config.abbr.length →
      collectValidationIssues engine config = [.config .tooManyRules]) ∧
    (config.abbr.length ≤ maxAbbrRules → ∀ issue ∈ collectValidationIssues engine config,
      (∃ path reason, issue = .rule issue.ruleIndex path reason) ∧
        1 ≤ issue.ruleIndex ∧ issue.ruleIndex ≤ config.abbr.length) := by
  rw [collectValidationIssues_eq, firstValidationError_eq]
  refine ⟨rfl, ?_, fun k => ?_, pairwise_validationIssues engine config, fun hlen => ?_, ?_⟩
  · rw [Option.map_eq_none_iff, List.head?_eq_none_iff]
  · rw [visitValidationIssues_eq, Visit.upTo_forM]
  · rw [validationIssues, if_pos hlen]
  · intro hlen issue hmem
    have hindex := ruleIndex_of_mem engine config hlen hmem
    refine ⟨?_, hindex⟩
    cases issue with
    | config reason => exact absurd hindex.1 (Nat.not_succ_le_zero 0)
    | rule ruleIndex path reason => exact ⟨path, reason, rfl⟩

end Runex
