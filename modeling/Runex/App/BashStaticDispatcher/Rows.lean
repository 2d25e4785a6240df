import Runex.App.BashStaticDispatcher
import Runex.App.Config.NumberKeys

/-!
# The rows of accepted rules

An accepted rule has one of four kinds of key, and at most one table has a row for it. Of the
fields of a row only the template and the unit can contain a brace.

## Main results

- `RuleAccepted.keyShape` — the kinds of key
- `exactRow_eq_some`, `patternRow_eq_some`, `globRow_eq_some` — what a row consists of
-/

namespace Runex

open Search

variable {engine : RegexLite} {rule : Abbr} {fields : List Text}

/-- The kinds of key an accepted rule has. -/
inductive KeyShape (rule : Abbr) : Prop
  | exact (hkind : rule.matchKind = none) (hkey : '{' ∉ rule.key) (hnumber : rule.number = none)
  | number (pre suf unit : Text) (hkind : rule.matchKind = none) (hkey : '{' ∈ rule.key)
      (hsplit : splitOnce numberPlaceholder rule.key = some (pre, suf))
      (hpre : '{' ∉ pre) (hsuf : '{' ∉ suf) (hnumber : rule.number = some unit)
  | glob (hkind : rule.matchKind = some .glob) (hkey : '{' ∉ rule.key)
      (hnumber : rule.number = none)
  | regex (hkind : rule.matchKind = some .regex)

/-- A `number` field needs a brace in the key. -/
theorem RuleAccepted.number_eq_none (h : RuleAccepted engine rule) (hkey : '{' ∉ rule.key) :
    rule.number = none := by
  by_contra hsome
  have hcount := h.placeholder_of_number hsome
  simp [numberCount, hasBrace, hkey] at hcount

theorem RuleAccepted.keyShape (h : RuleAccepted engine rule) : KeyShape rule := by
  cases hkind : rule.matchKind with
  | none =>
    by_cases hkey : '{' ∈ rule.key
    · obtain ⟨pre, suf, hsplit⟩ := splitOnceNumberPlaceholder_of_accepted h hkind hkey
      obtain ⟨unit, hunit⟩ := Option.ne_none_iff_exists'.mp
        (h.number_of_placeholder (numberCount_pos h hkind hkey))
      obtain ⟨hsplit, hpre, hsuf⟩ := splitOnceNumberPlaceholder_eq_some.mp hsplit
      exact .number pre suf unit hkind hkey hsplit hpre hsuf hunit
    · exact .exact hkind hkey (h.number_eq_none hkey)
  | some kind =>
    cases kind with
    | glob =>
      have hkey : '{' ∉ rule.key := fun hmem => (h.glob hkind).1 _ hmem (by decide)
      exact .glob hkind hkey (h.number_eq_none hkey)
    | regex => exact .regex hkind

theorem exactRow_eq_some : exactRow rule = some fields ↔
    rule.matchKind = none ∧ '{' ∉ rule.key ∧ ∃ template conds,
      rule.expand.forShell .bash = some template ∧ bashConditions rule = some conds ∧
        fields = [rule.key, template, conds] := by
  unfold exactRow
  split
  · next h =>
    simp only [reduceCtorEq, false_iff, not_and]
    intro hkind hkey
    simp [hkind, hkey] at h
  · next h =>
    simp only [not_or, Option.not_isSome_iff_eq_none] at h
    simp only [h, not_false_eq_true, true_and, Option.bind_eq_bind, Option.bind_eq_some_iff,
      Option.some.injEq, eq_comm (a := fields), exists_and_left]

theorem patternRow_eq_some : patternRow rule = some fields ↔
    rule.matchKind = none ∧ ∃ pre suf template unit conds,
      splitOnce numberPlaceholder rule.key = some (pre, suf) ∧ rule.number = some unit ∧
        rule.expand.forShell .bash = some template ∧ bashConditions rule = some conds ∧
          fields = [pre, suf, template, unit, conds] := by
  unfold patternRow
  split
  · next h => simp [h]
  · next h =>
    simp only [ne_eq, not_not] at h
    simp only [h, true_and, Option.bind_eq_bind, Option.bind_eq_some_iff, Option.some.injEq,
      Prod.exists, eq_comm (a := fields)]
    constructor
    · rintro ⟨unit, hunit, pre, suf, hsplit, template, htemplate, conds, hconds, hfields⟩
      exact ⟨pre, suf, template, unit, conds, hsplit, hunit, htemplate, hconds, hfields⟩
    · rintro ⟨pre, suf, template, unit, conds, hsplit, hunit, htemplate, hconds, hfields⟩
      exact ⟨unit, hunit, pre, suf, hsplit, template, htemplate, conds, hconds, hfields⟩

theorem globRow_eq_some : globRow rule = some fields ↔
    rule.matchKind = some .glob ∧ ∃ template conds,
      rule.expand.forShell .bash = some template ∧ bashConditions rule = some conds ∧
        fields = [rule.key, (globParts rule.key).1, (globParts rule.key).2, template, conds] := by
  unfold globRow
  split
  · next h => simp [h]
  · next h =>
    simp only [ne_eq, not_not] at h
    simp only [h, true_and, Option.bind_eq_bind, Option.bind_eq_some_iff, Option.some.injEq,
      eq_comm (a := fields), exists_and_left]

/-- The strings of a rule that its row carries and that can contain a brace: the Bash template and
    the unit. -/
def bakedTexts (rule : Abbr) : List Text :=
  if rule.matchKind = some .regex ∨ bashConditions rule = none then []
  else
    match rule.expand.forShell .bash with
    | none => []
    | some template => template :: rule.number.toList

/-- The characters of a condition are a `:` or those of its commands. -/
theorem mem_bashConditions {conds : Text} (hconds : bashConditions rule = some conds) {c : Char}
    (hc : c ∈ conds) : c = ':' ∨ ∃ perShell cmds, rule.whenCommandExists = some perShell ∧
      perShell.forShell .bash = some cmds ∧ ∃ cmd ∈ cmds, c ∈ cmd := by
  unfold bashConditions at hconds
  split at hconds
  · obtain rfl := Option.some.inj hconds
    simp at hc
  · next perShell hwhen =>
    obtain ⟨cmds, hcmds, rfl⟩ := Option.map_eq_some_iff.mp hconds
    rcases mem_of_mem_intercalate hc with h | h
    · exact Or.inl (List.mem_singleton.mp h)
    · exact Or.inr ⟨perShell, cmds, hwhen, hcmds, h⟩

theorem RuleAccepted.brace_not_mem_conditions (h : RuleAccepted engine rule) {conds : Text}
    (hconds : bashConditions rule = some conds) : '{' ∉ conds := by
  intro hmem
  rcases mem_bashConditions hconds hmem with heq | ⟨perShell, cmds, hwhen, hcmds, cmd, hcmd, hc⟩
  · exact absurd heq (by decide)
  · have hcheck := (h.cmds perShell hwhen cmds (PerShell.mem_allValues_of_forShell hcmds)).2 cmd hcmd
    exact (checkCmdEntry_eq_none.mp hcheck).2.2.2.2.2.2.2 '{' hc (by decide)

theorem mem_of_mem_globParts {key : Text} {c : Char}
    (h : c ∈ (globParts key).1 ∨ c ∈ (globParts key).2) : c ∈ key := by
  unfold globParts at h
  cases hsplit : splitOnce ['*'] key with
  | none => simpa [hsplit] using h
  | some parts =>
    obtain ⟨head, tail⟩ := parts
    rw [eq_append_of_splitOnce hsplit]
    simp only [hsplit, Option.getD_some] at h
    simp only [List.mem_append]
    tauto

/-- What holds of every text without a brace holds of all fields of the rows of a rule when it
    holds of its baked texts. -/
theorem forall_rows_iff (h : RuleAccepted engine rule) {P : Text → Prop}
    (hP : ∀ s, '{' ∉ s → P s) :
    ((∀ fields, exactRow rule = some fields → ∀ s ∈ fields, P s) ∧
      (∀ fields, patternRow rule = some fields → ∀ s ∈ fields, P s) ∧
      ∀ fields, globRow rule = some fields → ∀ s ∈ fields, P s) ↔
    ∀ s ∈ bakedTexts rule, P s := by
  cases hconds : bashConditions rule with
  | none =>
    have hbaked : bakedTexts rule = [] := if_pos (Or.inr hconds)
    simp [hbaked, exactRow_eq_some, patternRow_eq_some, globRow_eq_some, hconds]
  | some conds =>
    have hcondsP := hP conds (h.brace_not_mem_conditions hconds)
    cases htemplate : rule.expand.forShell .bash with
    | none =>
      have hbaked : bakedTexts rule = [] := by simp [bakedTexts, htemplate]
      simp [hbaked, exactRow_eq_some, patternRow_eq_some, globRow_eq_some, htemplate]
    | some template =>
      rcases h.keyShape with ⟨hkind, hkey, hnumber⟩ |
        ⟨pre, suf, unit, hkind, hkey, hsplit, hpre, hsuf, hnumber⟩ |
        ⟨hkind, hkey, hnumber⟩ | ⟨hkind⟩
      · have hbaked : bakedTexts rule = [template] := by
          simp [bakedTexts, hkind, hconds, htemplate, hnumber]
        simp [hbaked, exactRow_eq_some, patternRow_eq_some, globRow_eq_some, hkind, hkey, hconds,
          htemplate, hnumber, hcondsP, hP rule.key hkey]
      · have hbaked : bakedTexts rule = [template, unit] := by
          simp [bakedTexts, hkind, hconds, htemplate, hnumber]
        simp [hbaked, exactRow_eq_some, patternRow_eq_some, globRow_eq_some, hkind, hkey, hconds,
          htemplate, hnumber, hsplit, hcondsP, hP pre hpre, hP suf hsuf]
      · have hhead := hP _ fun hmem => hkey (mem_of_mem_globParts (Or.inl hmem))
        have htail := hP _ fun hmem => hkey (mem_of_mem_globParts (Or.inr hmem))
        have hbaked : bakedTexts rule = [template] := by
          simp [bakedTexts, hkind, hconds, htemplate, hnumber]
        simp [hbaked, exactRow_eq_some, patternRow_eq_some, globRow_eq_some, hkind, hconds,
          htemplate, hcondsP, hP rule.key hkey, hhead, htail]
      · have hbaked : bakedTexts rule = [] := if_pos (Or.inl hkind)
        simp [hbaked, exactRow_eq_some, patternRow_eq_some, globRow_eq_some, hkind]

end Runex
