import Runex.App.Doctor
import Runex.Domain.Expand.Selection

/-!
# The self-loop warning

The static test compares the template with the key after deleting every `{}`; at run time a number
rule is never a self-loop, and of a glob template only the first `{}` is removed. Which rules with a
positive verdict are skipped for every token.

## Main definitions

- `AlwaysSkipped` — no match of the rule fires with the template
- `SelfLoopCertain` — when that follows from the verdict

## Main results

- `self_loop_sound_iff` — the verdict is right exactly for these rules
- `self_loop_unsound` — a number rule that is warned about and fires
-/

namespace Runex

open Search
open Text (byteLen isBlank)

-- ════════════════════════════════════════════════════════════════════════
-- Rules that are never applied
-- ════════════════════════════════════════════════════════════════════════

/-- No match of the rule fires in a shell that uses the template. -/
def AlwaysSkipped (engine : RegexLite) (abbr : Abbr) (template : Text) : Prop :=
  ∀ token bindings shell commandExists, matchRule engine abbr token = some bindings →
    abbr.expand.forShell shell = some template →
    tryExpandRule abbr token shell commandExists bindings = none

/-- Every shell that uses the template lacks an entry in the rule's condition. -/
def NeverMet (abbr : Abbr) (template : Text) : Prop :=
  ∀ shell, abbr.expand.forShell shell = some template →
    ∃ cmds, abbr.whenCommandExists = some cmds ∧ cmds.forShell shell = none

variable {engine : RegexLite} {abbr : Abbr} {template token : Text} {bindings : Bindings}

/-- A rule is skipped when whatever it renders to is blank or the token. -/
theorem tryExpandRule_eq_none_of_render {shell : Shell} {commandExists : Text → Bool}
    (htemplate : abbr.expand.forShell shell = some template)
    (h : ∀ text cursor, renderWithCursor abbr template bindings = some (text, cursor) →
      isBlank text = true ∨ isPatternSelfLoop abbr text token = true) :
    tryExpandRule abbr token shell commandExists bindings = none := by
  rw [Option.eq_none_iff_forall_ne_some]
  intro result htry
  obtain ⟨template', text, cursor, commands, -, hfires⟩ := tryExpandRule_eq_some_iff.mp htry
  have hsame := hfires.template_eq
  rw [htemplate, Option.some.injEq] at hsame
  subst hsame
  rcases h text cursor hfires.render_eq with hblank | hloop
  · have := hfires.not_blank
    rw [isBlankExpansion, hblank] at this
    exact absurd this (by simp)
  · have := hfires.not_pattern_self_loop
    rw [hloop] at this
    exact absurd this (by simp)

theorem alwaysSkipped_of_neverMet (h : NeverMet abbr template) :
    AlwaysSkipped engine abbr template := by
  intro token bindings shell commandExists _ htemplate
  rw [Option.eq_none_iff_forall_ne_some]
  intro result htry
  obtain ⟨_, _, _, commands, -, hfires⟩ := tryExpandRule_eq_some_iff.mp htry
  obtain ⟨cmds, hcmds, hnone⟩ := h shell htemplate
  have hmet := hfires.conditions
  simp only [ConditionsMet, hcmds, hnone, reduceCtorEq, false_and] at hmet

/-- Where the conditions can be met, a rule that is always skipped renders blank, as the token or
    not at all. -/
theorem AlwaysSkipped.blank_or_token (h : AlwaysSkipped engine abbr template)
    (hmet : ¬ NeverMet abbr template) (hloop : isExactSelfLoop abbr template = false)
    (hmatch : matchRule engine abbr token = some bindings) {rendered : Text × Option ℕ}
    (hrender : renderWithCursor abbr template bindings = some rendered) :
    isBlank rendered.1 = true ∨ isPatternSelfLoop abbr rendered.1 token = true := by
  by_contra hneither
  rw [not_or, Bool.not_eq_true, Bool.not_eq_true] at hneither
  rw [NeverMet] at hmet
  push Not at hmet
  obtain ⟨shell, htemplate, hcmds⟩ := hmet
  obtain ⟨commands, hconditions⟩ :
      ∃ commands, ConditionsMet abbr shell (fun _ => true) commands := by
    unfold ConditionsMet
    cases hcondition : abbr.whenCommandExists with
    | none => exact ⟨[], rfl⟩
    | some cmds =>
      obtain ⟨commands, hlist⟩ := Option.ne_none_iff_exists'.mp (hcmds cmds hcondition)
      exact ⟨commands, hlist, fun _ _ => rfl⟩
  have hfires : Fires abbr token shell (fun _ => true) bindings template rendered.1 rendered.2
      commands := ⟨htemplate, hloop, hconditions, hrender, hneither.1, hneither.2⟩
  have hnone := h token bindings shell (fun _ => true) hmatch htemplate
  rw [hfires.tryExpandRule_eq] at hnone
  exact absurd hnone (by simp)

-- ════════════════════════════════════════════════════════════════════════
-- Glob rules
-- ════════════════════════════════════════════════════════════════════════

/-- Replacing by a text that is no longer in bytes does not lengthen. -/
theorem byteLen_replaceAll_le {pat value : Text} (hpat : pat ≠ [])
    (hlen : byteLen value ≤ byteLen pat) (s : Text) :
    byteLen (replaceAll pat value s) ≤ byteLen s := by
  induction s using scan_induction hpat with
  | nil => exact Nat.le_refl _
  | hit s ih =>
    rw [replaceAll_pat_append hpat, Text.byteLen_append, Text.byteLen_append]
    omega
  | miss c s hc ih =>
    rw [replaceAll_cons hc, Text.byteLen_cons, Text.byteLen_cons]
    omega

/-- A cursor placeholder is no part of a `{*}`, so it stays when these are replaced. -/
theorem open_mem_replaceAll_of_cursor {captured s : Text} (h : cursorPlaceholder <:+: s) :
    '{' ∈ replaceAll globCapturePlaceholder captured s := by
  induction s using scan_induction globCapturePlaceholder_ne_nil with
  | nil => exact absurd h (by decide)
  | hit s ih =>
    rw [replaceAll_pat_append (by decide)]
    refine List.mem_append_right _ (ih ?_)
    simp only [globCapturePlaceholder, List.cons_append, List.nil_append, List.infix_cons_iff] at h
    rcases h with h | h | h | h
    · simp [cursorPlaceholder] at h
    · simp [cursorPlaceholder] at h
    · simp [cursorPlaceholder] at h
    · exact h
  | miss c s hc ih =>
    rw [replaceAll_cons hc]
    rcases List.infix_cons_iff.mp h with h | h
    · obtain ⟨rest, hrest⟩ := h
      simp only [cursorPlaceholder, List.cons_append, List.cons.injEq] at hrest
      rw [← hrest.1]
      exact List.mem_cons_self
    · exact List.mem_cons_of_mem c (ih h)

/-- The rendering of a glob rule around the first cursor placeholder. -/
theorem renderBase_glob {captured : Text} :
    (renderBase template { glob := some captured }).1 =
      match splitOnce cursorPlaceholder template with
      | none => replaceAll globCapturePlaceholder captured template
      | some (left, right) => replaceAll globCapturePlaceholder captured left ++
          replaceAll globCapturePlaceholder captured right := by
  cases hsplit : splitOnce cursorPlaceholder template with
  | none => rw [renderBase_of_none hsplit, substitute_glob]
  | some parts =>
    obtain ⟨left, right⟩ := parts
    rw [renderBase_of_some hsplit, substitute_glob, substitute_glob]

/-- A key with one `*` and no brace, and the template text that would stand for it. -/
theorem replaceAll_globCapture {head tail : Text} (hhead : '{' ∉ head) (htail : '{' ∉ tail)
    (captured : Text) :
    replaceAll globCapturePlaceholder captured (head ++ (globCapturePlaceholder ++ tail)) =
      head ++ (captured ++ tail) := by
  have habsent : ∀ {s : Text}, '{' ∉ s → ¬ globCapturePlaceholder <:+: s := by
    intro s hs hmem
    exact hs (hmem.subset (by decide))
  have hsplit : splitOnce globCapturePlaceholder (head ++ (globCapturePlaceholder ++ tail)) =
      some (head, tail) := by
    have hskip : splitOnce globCapturePlaceholder (head ++ (globCapturePlaceholder ++ tail)) =
        (splitOnce globCapturePlaceholder (globCapturePlaceholder ++ tail)).map
          fun parts => (head ++ parts.1, parts.2) := splitOnce_append_of_not_mem hhead _
    rw [hskip, splitOnce_append]
    simp
  rw [replaceAll_of_splitOnce (by decide) hsplit, replaceAll_of_absent (habsent htail)]

/-- A `{*}` and a cursor placeholder do not overlap. -/
theorem globCapture_infix_around {left right : Text}
    (h : globCapturePlaceholder <:+: left ++ (cursorPlaceholder ++ right)) :
    globCapturePlaceholder <:+: left ∨ globCapturePlaceholder <:+: right := by
  induction left with
  | nil =>
    simp only [cursorPlaceholder, List.nil_append, List.cons_append, List.infix_cons_iff] at h
    rcases h with h | h | h
    · simp [globCapturePlaceholder] at h
    · simp [globCapturePlaceholder] at h
    · exact Or.inr h
  | cons c left ih =>
    rw [List.cons_append, List.infix_cons_iff] at h
    rcases h with h | h
    · -- An occurrence at the start ends before the cursor placeholder.
      refine Or.inl (List.IsPrefix.isInfix ?_)
      cases left with
      | nil => simp [globCapturePlaceholder, cursorPlaceholder] at h
      | cons d left =>
        cases left with
        | nil => simp [globCapturePlaceholder, cursorPlaceholder] at h
        | cons e left =>
          refine List.prefix_of_prefix_length_le h ?_ (by simp [globCapturePlaceholder])
          exact List.prefix_append (c :: d :: e :: left) _
    · exact (ih h).imp_left fun hleft => List.infix_cons hleft

/-- A `{*}` between texts without a brace is the only place where a brace opens. -/
theorem eq_of_globCapture_eq {head tail a b : Text} (hhead : '{' ∉ head) (htail : '{' ∉ tail)
    (h : a ++ (globCapturePlaceholder ++ b) = head ++ (globCapturePlaceholder ++ tail)) :
    a = head ∧ b = tail := by
  have hcount := congrArg (List.count '{') h
  simp only [globCapturePlaceholder, List.count_append, List.count_cons_self, List.cons_append,
    List.nil_append, List.count_eq_zero.mpr hhead, List.count_eq_zero.mpr htail, ne_eq,
    Char.reduceEq, not_false_eq_true, List.count_cons_of_ne] at hcount
  have ha : '{' ∉ a := List.count_eq_zero.mp (by omega)
  have hleft : splitOnce ['{'] (a ++ (globCapturePlaceholder ++ b)) = some (a, '*' :: '}' :: b) :=
    splitOnce_singleton_eq_some.mpr ⟨rfl, ha⟩
  have hright : splitOnce ['{'] (head ++ (globCapturePlaceholder ++ tail)) =
      some (head, '*' :: '}' :: tail) := splitOnce_singleton_eq_some.mpr ⟨rfl, hhead⟩
  rw [h, hright] at hleft
  simpa [eq_comm] using hleft

/-- Deleting the one cursor placeholder, which is not inside the `{*}`, gives back the token. -/
theorem renderBase_eq_token {head tail : Text} (hhead : '{' ∉ head) (htail : '{' ∉ tail)
    (htext : replaceAll cursorPlaceholder [] template = head ++ (globCapturePlaceholder ++ tail))
    (hcount : countMatches cursorPlaceholder template ≤ 1)
    (hcapture : globCapturePlaceholder <:+: template) (captured : Text) :
    (renderBase template { glob := some captured }).1 = head ++ (captured ++ tail) := by
  have habsent : ∀ {s : Text}, '{' ∉ s → ¬ globCapturePlaceholder <:+: s :=
    fun hs hmem => hs (hmem.subset (by decide))
  rw [renderBase_glob]
  cases hsplit : splitOnce cursorPlaceholder template with
  | none =>
    rw [replaceAll_of_absent (splitOnce_eq_none.mp hsplit)] at htext
    simp only [htext, replaceAll_globCapture hhead htail]
  | some parts =>
    obtain ⟨left, right⟩ := parts
    have hright : ¬ cursorPlaceholder <:+: right := fun hmem => by
      have := countMatches_pos (by decide) hmem
      rw [countMatches_of_splitOnce (by decide) hsplit] at hcount
      omega
    rw [replaceAll_of_splitOnce (by decide) hsplit, replaceAll_of_absent hright,
      List.nil_append] at htext
    rw [eq_append_of_splitOnce hsplit] at hcapture
    simp only
    rcases globCapture_infix_around hcapture with ⟨a, b, hleft⟩ | ⟨a, b, hright'⟩
    · rw [← hleft, List.append_assoc, List.append_assoc] at htext
      obtain ⟨rfl, rfl⟩ := eq_of_globCapture_eq hhead htail htext
      simp only [List.mem_append, not_or] at htail
      rw [← hleft, List.append_assoc, replaceAll_globCapture hhead htail.1,
        replaceAll_of_absent (habsent htail.2)]
      simp
    · rw [← hright', List.append_assoc, ← List.append_assoc left] at htext
      obtain ⟨rfl, rfl⟩ := eq_of_globCapture_eq hhead htail htext
      simp only [List.mem_append, not_or] at hhead
      rw [← hright', List.append_assoc, replaceAll_globCapture hhead.2 htail,
        replaceAll_of_absent (habsent hhead.1)]
      simp

/-- A rendering without an opening brace comes from a template with one cursor placeholder at most,
    not inside the `{*}`. -/
theorem count_and_capture_of_renderBase {head tail captured : Text}
    (htext : replaceAll cursorPlaceholder [] template = head ++ (globCapturePlaceholder ++ tail))
    (hopen : '{' ∉ (renderBase template { glob := some captured }).1) :
    countMatches cursorPlaceholder template ≤ 1 ∧ globCapturePlaceholder <:+: template := by
  rw [renderBase_glob] at hopen
  cases hsplit : splitOnce cursorPlaceholder template with
  | none =>
    have habsent := splitOnce_eq_none.mp hsplit
    rw [replaceAll_of_absent habsent] at htext
    refine ⟨by rw [countMatches_eq_zero_of_absent habsent]; omega, ?_⟩
    exact ⟨head, tail, by rw [htext, List.append_assoc]⟩
  | some parts =>
    obtain ⟨left, right⟩ := parts
    rw [hsplit] at hopen
    simp only [List.mem_append, not_or] at hopen
    have hright : ¬ cursorPlaceholder <:+: right :=
      fun hmem => hopen.2 (open_mem_replaceAll_of_cursor hmem)
    refine ⟨?_, ?_⟩
    · rw [countMatches_of_splitOnce (by decide) hsplit, countMatches_eq_zero_of_absent hright]
    · by_contra habsent
      have hparts : ¬ globCapturePlaceholder <:+: left ∧ ¬ globCapturePlaceholder <:+: right := by
        rw [eq_append_of_splitOnce hsplit] at habsent
        exact ⟨fun h => habsent (h.trans (List.prefix_append _ _).isInfix),
          fun h => habsent (h.trans ⟨left ++ cursorPlaceholder, [], by simp⟩)⟩
      rw [replaceAll_of_absent hparts.1, replaceAll_of_absent hparts.2] at hopen
      -- The brace of the key's `{*}` is in one of the parts.
      have hmem : '{' ∈ left ++ ([] ++ replaceAll cursorPlaceholder [] right) := by
        rw [← replaceAll_of_splitOnce (by decide) hsplit, htext]
        simp [globCapturePlaceholder]
      rw [List.nil_append, List.mem_append] at hmem
      rcases hmem with hmem | hmem
      · exact hopen.1 hmem
      · rcases mem_of_mem_replaceAll hmem with hmem | hmem
        · exact absurd hmem (by simp)
        · exact hopen.2 hmem

-- ════════════════════════════════════════════════════════════════════════
-- Number rules
-- ════════════════════════════════════════════════════════════════════════

theorem extractCursorPlaceholder_append {pre : Text} (h : '{' ∉ pre) (rest : Text) :
    (extractCursorPlaceholder (pre ++ rest)).1 = pre ++ (extractCursorPlaceholder rest).1 := by
  have hskip := splitOnce_cursor_append h rest
  cases hsplit : splitOnce cursorPlaceholder rest with
  | none =>
    rw [hsplit, Option.map_none] at hskip
    rw [extractCursorPlaceholder_of_none hskip, extractCursorPlaceholder_of_none hsplit]
  | some parts =>
    obtain ⟨left, right⟩ := parts
    rw [hsplit, Option.map_some] at hskip
    rw [extractCursorPlaceholder_of_some hskip, extractCursorPlaceholder_of_some hsplit]
    simp

/-- Only one brace is removed. -/
theorem count_le_count_extract (s : Text) :
    s.count '{' ≤ (extractCursorPlaceholder s).1.count '{' + 1 := by
  cases hsplit : splitOnce cursorPlaceholder s with
  | none =>
    rw [extractCursorPlaceholder_of_none hsplit]
    exact Nat.le_succ _
  | some parts =>
    obtain ⟨left, right⟩ := parts
    rw [extractCursorPlaceholder_of_some hsplit, eq_append_of_splitOnce hsplit]
    simp only [cursorPlaceholder, List.count_append, List.count_cons_self, List.cons_append,
      List.nil_append, ne_eq, Char.reduceEq, not_false_eq_true, List.count_cons_of_ne]
    omega

theorem not_open_of_isBlank {s : Text} (h : isBlank s = true) : '{' ∉ s := by
  intro hmem
  exact absurd (List.all_eq_true.mp h '{' hmem) (by decide)

theorem isBlank_append {s t : Text} : isBlank (s ++ t) = true ↔ isBlank s = true ∧ isBlank t = true := by
  simp [isBlank, List.all_append]

/-- A number rule whose renderings for one and for two copies of the unit are blank has blank key
    parts and a blank unit. -/
theorem isBlank_of_renderings {pre suf unit : Text} (hpre : '{' ∉ pre) (hsuf : '{' ∉ suf)
    (hone : isBlank (extractCursorPlaceholder (pre ++ (unit ++ suf))).1 = true)
    (htwo : isBlank (extractCursorPlaceholder (pre ++ ((unit ++ unit) ++ suf))).1 = true) :
    isBlank (pre ++ suf) = true ∧ isBlank unit = true := by
  have hunit : '{' ∉ unit := by
    intro hmem
    have hcount := count_le_count_extract (pre ++ ((unit ++ unit) ++ suf))
    have hpos := List.count_pos_iff.mpr hmem
    simp only [List.count_append] at hcount
    rw [List.count_eq_zero.mpr (not_open_of_isBlank htwo)] at hcount
    omega
  have hplain : (extractCursorPlaceholder suf).1 = suf := by
    refine congrArg Prod.fst (extractCursorPlaceholder_of_none (splitOnce_eq_none.mpr fun h => ?_))
    exact hsuf (h.subset (by decide))
  rw [extractCursorPlaceholder_append hpre, extractCursorPlaceholder_append hunit, hplain,
    isBlank_append, isBlank_append] at hone
  exact ⟨isBlank_append.mpr ⟨hone.1, hone.2.2⟩, hone.2.1⟩

-- ════════════════════════════════════════════════════════════════════════
-- The verdict
-- ════════════════════════════════════════════════════════════════════════

/-- The rules for which a positive verdict is right: exact rules, glob rules whose template has one
    cursor placeholder at most and not inside its `{*}`, number rules that render nothing but white
    space, and rules whose condition no shell with the template can meet. -/
inductive SelfLoopCertain (abbr : Abbr) (template : Text) : Prop where
  | exact (hphase : phaseOf abbr = .exact)
  | glob (hphase : phaseOf abbr = .glob) (hcount : countMatches cursorPlaceholder template ≤ 1)
      (hcapture : globCapturePlaceholder <:+: template)
  | number (hphase : phaseOf abbr = .number)
      (hkey : isBlank (replaceAll numberPlaceholder [] abbr.key) = true)
      (hunit : ∀ unit, abbr.number = some unit → isBlank unit = true)
  | neverMet (h : NeverMet abbr template)

/-- The parts of an accepted glob key without `?`. -/
theorem globKey_of_accepted (h : RuleAccepted engine abbr) (hkind : abbr.matchKind = some .glob)
    (hmark : '?' ∉ abbr.key) :
    ∃ head tail, abbr.key = head ++ '*' :: tail ∧ '*' ∉ head ∧ '{' ∉ head ∧ '{' ∉ tail := by
  obtain ⟨hforbidden, -, hwildcard⟩ := h.glob hkind
  have hbrace : '{' ∉ abbr.key := fun hmem => hforbidden '{' hmem (by decide)
  obtain ⟨head, tail, hkey, hstar⟩ :=
    List.eq_append_cons_of_mem (hwildcard.resolve_right hmark)
  rw [hkey] at hbrace
  simp only [List.mem_append, List.mem_cons, not_or] at hbrace
  exact ⟨head, tail, hkey, hstar, hbrace.1, hbrace.2.2⟩

/-- The parts of an accepted `{number}` key. -/
theorem numberKey_of_accepted (h : RuleAccepted engine abbr) (hphase : phaseOf abbr = .number) :
    ∃ pre suf unit, abbr.key = pre ++ (numberPlaceholder ++ suf) ∧ abbr.number = some unit ∧
      splitOnceNumberPlaceholder abbr.key = some (pre, suf) ∧ '{' ∉ pre ∧ '{' ∉ suf ∧
      (∀ value, replaceAll numberPlaceholder value abbr.key = pre ++ (value ++ suf)) := by
  obtain ⟨hkind, hbrace⟩ := phaseOf_eq_number.mp hphase
  obtain ⟨pre, suf, hparts⟩ := splitOnceNumberPlaceholder_of_accepted h hkind hbrace
  obtain ⟨unit, hunit⟩ := Option.ne_none_iff_exists'.mp
    (h.number_of_placeholder (numberCount_pos h hkind hbrace))
  obtain ⟨hsplit, hpre, hsuf⟩ := splitOnceNumberPlaceholder_eq_some.mp hparts
  refine ⟨pre, suf, unit, eq_append_of_splitOnce hsplit, hunit, hparts, hpre, hsuf, fun value => ?_⟩
  rw [replaceAll_of_splitOnce numberPlaceholder_ne_nil hsplit,
    replaceAll_of_absent fun hmem => hsuf (hmem.subset (by decide))]

/-- With its key for a template, a number rule renders one or two copies of its unit. -/
theorem renderWithCursor_key (h : RuleAccepted engine abbr) {pre suf unit : Text} {n : ℕ}
    (hkey : abbr.key = pre ++ (numberPlaceholder ++ suf)) (hunit : abbr.number = some unit)
    (hreplace : ∀ value, replaceAll numberPlaceholder value abbr.key = pre ++ (value ++ suf))
    (hn : n ≤ 2) :
    renderWithCursor abbr abbr.key { number := some n } =
      some (renderBase (pre ++ ((List.replicate n unit).flatten ++ suf)) { number := some n }) := by
  have hunitLen := (checkNumberUnit_eq_none.mp (h.unit unit hunit)).2.1
  have hkeyLen := (checkAbbrKey_eq_none.mp h.key).2.2.1
  rw [hkey] at hkeyLen
  simp only [Text.byteLen_append, maxKeyBytes, maxNumberUnitBytes] at hkeyLen hunitLen
  have hrepeat : byteLen unit * n ≤ 64 := (Nat.mul_le_mul hunitLen hn).trans (by decide)
  have hbase : byteLen (pre ++ ((List.replicate n unit).flatten ++ suf)) ≤
      maxRenderedExpandBytes := by
    rw [Text.byteLen_append, Text.byteLen_append, Text.byteLen_replicate_flatten, Nat.mul_comm,
      maxRenderedExpandBytes]
    omega
  have hnumber : renderNumber abbr abbr.key { number := some n } =
      some (pre ++ ((List.replicate n unit).flatten ++ suf)) :=
    renderNumber_eq_some.mpr
      ⟨unit, hunit, hrepeat.trans (by decide), (hreplace _).symm, hbase⟩
  rw [renderWithCursor_eq, hnumber, Option.bind_some, if_pos]
  rw [renderBase_number]
  exact (byteLen_extractCursorPlaceholder_le _).trans hbase

section Accepted

variable (haccepted : RuleAccepted engine abbr)
  (hrewrites : rewritesTokenToItself abbr template = true)

include haccepted hrewrites

/-- What the verdict says of a glob rule. -/
theorem globText_of_rewrites (hphase : phaseOf abbr = .glob) :
    ∃ head tail, abbr.key = head ++ '*' :: tail ∧ '?' ∉ abbr.key ∧ '*' ∉ head ∧ '{' ∉ head ∧
      '{' ∉ tail ∧
      replaceAll cursorPlaceholder [] template = head ++ (globCapturePlaceholder ++ tail) := by
  have hkind := phaseOf_eq_glob.mp hphase
  simp only [rewritesTokenToItself, hkind, Bool.and_eq_true, Bool.not_eq_true', decide_eq_false_iff_not,
    beq_iff_eq] at hrewrites
  obtain ⟨hmark, htext⟩ := hrewrites
  obtain ⟨head, tail, hkey, hstar, hhead, htail⟩ := globKey_of_accepted haccepted hkind hmark
  refine ⟨head, tail, hkey, hmark, hstar, hhead, htail, ?_⟩
  rw [htext, replaceFirst, hkey, splitOnce_singleton_eq_some.mpr ⟨rfl, hstar⟩]

theorem alwaysSkipped_glob (hphase : phaseOf abbr = .glob)
    (hcount : countMatches cursorPlaceholder template ≤ 1)
    (hcapture : globCapturePlaceholder <:+: template) : AlwaysSkipped engine abbr template := by
  obtain ⟨head, tail, hkey, hmark, hstar, hhead, htail, htext⟩ :=
    globText_of_rewrites haccepted hrewrites hphase
  intro token bindings shell commandExists hmatch htemplate
  rw [matchRule, phaseOf_eq_glob.mp hphase] at hmatch
  obtain ⟨captured, hcaptured, rfl⟩ := Option.map_eq_some_iff.mp hmatch
  rw [hkey] at hcaptured hmark
  obtain ⟨h, t, rfl, hh, ht⟩ := (matchGlobKey_of_star hstar).mp hcaptured
  simp only [List.mem_append, List.mem_cons, not_or] at hmark
  obtain rfl := hh.eq_of_not_mem hmark.1
  obtain rfl := ht.eq_of_not_mem hmark.2.2
  refine tryExpandRule_eq_none_of_render htemplate fun text cursor hrender => Or.inr ?_
  obtain ⟨base, hbase, hrendered⟩ := eq_renderBase_of_renderWithCursor hrender
  obtain rfl : template = base := Option.some.inj hbase
  have htoken : text = h ++ (captured ++ t) := by
    rw [← renderBase_eq_token hhead htail htext hcount hcapture captured, ← hrendered]
  simp [isPatternSelfLoop, hphase, htoken]

theorem alwaysSkipped_number (hphase : phaseOf abbr = .number)
    (hkey : isBlank (replaceAll numberPlaceholder [] abbr.key) = true)
    (hunit : ∀ unit, abbr.number = some unit → isBlank unit = true) :
    AlwaysSkipped engine abbr template := by
  obtain ⟨pre, suf, unit, hparts, hsome, -, -, -, hreplace⟩ := numberKey_of_accepted haccepted hphase
  have htemplate_eq : template = abbr.key := by
    simpa [rewritesTokenToItself, (phaseOf_eq_number.mp hphase).1] using hrewrites
  intro token bindings shell commandExists hmatch htemplate
  obtain ⟨n, rfl, hn⟩ := number_of_accepted haccepted hphase hmatch
  refine tryExpandRule_eq_none_of_render htemplate fun text cursor hrender => Or.inl ?_
  obtain ⟨base, hbase, hrendered⟩ := eq_renderBase_of_renderWithCursor hrender
  obtain ⟨unit', hunit', -, rfl, -⟩ := renderNumber_eq_some.mp hbase
  rw [hsome, Option.some.injEq] at hunit'
  subst hunit'
  have hblank : isBlank (replaceAll numberPlaceholder (List.replicate n unit).flatten template) =
      true := by
    rw [hreplace, List.nil_append, isBlank_append] at hkey
    rw [htemplate_eq, hreplace, isBlank_append, isBlank_append, isBlank_replicate_flatten hn]
    exact ⟨hkey.1, hunit unit hsome, hkey.2⟩
  have hnone : splitOnce cursorPlaceholder
      (replaceAll numberPlaceholder (List.replicate n unit).flatten template) = none :=
    splitOnce_eq_none.mpr fun h => not_open_of_isBlank hblank (h.subset (by decide))
  have htext : text = _ := congrArg Prod.fst hrendered
  rw [renderBase_number, extractCursorPlaceholder_of_none hnone] at htext
  rw [htext]
  exact hblank

/-- A glob rule that is always skipped leaves no brace in the rendering of an ordinary token. -/
theorem certain_of_glob (hexpand : template ∈ abbr.expand.allValues) (hphase : phaseOf abbr = .glob)
    (hmet : ¬ NeverMet abbr template) (hskipped : AlwaysSkipped engine abbr template) :
    SelfLoopCertain abbr template := by
  obtain ⟨head, tail, hkey, hmark, hstar, hhead, htail, htext⟩ :=
    globText_of_rewrites haccepted hrewrites hphase
  have hmatch : matchRule engine abbr (head ++ (['a'] ++ tail)) =
      some { glob := some ['a'] } := by
    have hfixed : ∀ s : Text, FixedMatches s s := fun s => List.forall₂_same.mpr fun _ _ => Or.inr rfl
    have hglob : matchGlobKey abbr.key (head ++ (['a'] ++ tail)) = some ['a'] := by
      rw [hkey]
      exact (matchGlobKey_of_star hstar).mpr ⟨head, tail, rfl, hfixed head, hfixed tail⟩
    rw [matchRule, phaseOf_eq_glob.mp hphase]
    simp only [hglob, Option.map_some]
  have hloop : isExactSelfLoop abbr template = false := by simp [isExactSelfLoop, hphase]
  have hlen : byteLen (renderBase template { glob := some ['a'] }).1 ≤ maxRenderedExpandBytes := by
    have htemplate := (checkExpandValue_eq_none.mp (haccepted.expand template hexpand)).2.2.1
    have hpart : ∀ s, byteLen (replaceAll globCapturePlaceholder ['a'] s) ≤ byteLen s :=
      byteLen_replaceAll_le globCapturePlaceholder_ne_nil (by decide)
    refine Nat.le_trans ?_ htemplate
    rw [renderBase_glob]
    cases hsplit : splitOnce cursorPlaceholder template with
    | none => exact hpart template
    | some parts =>
      simp only
      rw [eq_append_of_splitOnce hsplit, Text.byteLen_append, Text.byteLen_append,
        Text.byteLen_append]
      have hleft := hpart parts.1
      have hright := hpart parts.2
      omega
  have hrender : renderWithCursor abbr template { glob := some ['a'] } =
      some (renderBase template { glob := some ['a'] }) := by
    have hnumber : renderNumber abbr template { glob := some ['a'] } = some template := rfl
    rw [renderWithCursor_eq, hnumber, Option.bind_some, if_pos hlen]
  have hopen : '{' ∉ (renderBase template { glob := some ['a'] }).1 := by
    rcases hskipped.blank_or_token hmet hloop hmatch hrender with hblank | htoken
    · exact not_open_of_isBlank hblank
    · simp only [isPatternSelfLoop, Bool.and_eq_true, beq_iff_eq] at htoken
      rw [htoken.2]
      simp [hhead, htail]
  obtain ⟨hcount, hcapture⟩ := count_and_capture_of_renderBase htext hopen
  exact .glob hphase hcount hcapture

/-- A number rule that is always skipped renders one and two copies of its unit to white space. -/
theorem certain_of_number (hphase : phaseOf abbr = .number) (hmet : ¬ NeverMet abbr template)
    (hskipped : AlwaysSkipped engine abbr template) : SelfLoopCertain abbr template := by
  obtain ⟨pre, suf, unit, hkey, hunit, hparts, hpre, hsuf, hreplace⟩ :=
    numberKey_of_accepted haccepted hphase
  obtain ⟨hkind, hbrace⟩ := phaseOf_eq_number.mp hphase
  have htemplate_eq : template = abbr.key := by
    simpa [rewritesTokenToItself, hkind] using hrewrites
  have hloop : isExactSelfLoop abbr template = false := by simp [isExactSelfLoop, hphase]
  have hblank : ∀ digits, IsNumeral digits → 1 ≤ numeralValue digits → numeralValue digits ≤ 2 →
      isBlank (extractCursorPlaceholder
        (pre ++ ((List.replicate (numeralValue digits) unit).flatten ++ suf))).1 = true := by
    intro digits hdigits hpos hle
    have hmatch : matchRule engine abbr (pre ++ (digits ++ suf)) =
        some { number := some (numeralValue digits) } := by
      rw [matchRule, hkind]
      exact (matchAbbrKey_eq_some hbrace hparts).mpr ⟨digits, hdigits, rfl, hpos, by omega, rfl⟩
    have hrender := renderWithCursor_key haccepted hkey hunit hreplace hle
    rw [← htemplate_eq] at hrender
    rcases hskipped.blank_or_token hmet hloop hmatch hrender with h | h
    · rwa [renderBase_number] at h
    · simp [isPatternSelfLoop, hphase] at h
  have hone := hblank ['1'] (by decide) (by decide) (by decide)
  have htwo := hblank ['2'] (by decide) (by decide) (by decide)
  rw [show numeralValue ['1'] = 1 from rfl] at hone
  rw [show numeralValue ['2'] = 2 from rfl] at htwo
  simp only [List.replicate_succ, List.replicate_zero, List.flatten_cons, List.flatten_nil,
    List.append_nil] at hone htwo
  obtain ⟨hblankKey, hblankUnit⟩ := isBlank_of_renderings hpre hsuf hone htwo
  refine .number hphase ?_ ?_
  · rw [hreplace, List.nil_append]
    exact hblankKey
  · intro unit' hunit'
    rw [hunit, Option.some.injEq] at hunit'
    exact hunit' ▸ hblankUnit

end Accepted

/-- **When the self-loop warning is right.** For every rule of an accepted configuration and every
    template of it with a positive verdict: no match of the rule fires in a shell with that
    template if and only if the rule is exact, is a glob rule whose template has one cursor
    placeholder at most and not inside its `{*}`, is a number rule that renders nothing but white
    space, or has no condition entry for any shell with that template. -/
theorem self_loop_sound_iff (engine : RegexLite) (config : Config) (haccepted : Accepted engine config)
    (abbr : Abbr) (hmem : abbr ∈ config.abbr) (template : Text)
    (hexpand : template ∈ abbr.expand.allValues)
    (hrewrites : rewritesTokenToItself abbr template = true) :
    (∀ token bindings shell commandExists, matchRule engine abbr token = some bindings →
      abbr.expand.forShell shell = some template →
      tryExpandRule abbr token shell commandExists bindings = none) ↔
    SelfLoopCertain abbr template := by
  have hrule := haccepted.rule hmem
  constructor
  · intro hskipped
    by_cases hmet : NeverMet abbr template
    · exact .neverMet hmet
    · cases hphase : phaseOf abbr with
      | exact => exact .exact hphase
      | number => exact certain_of_number hrule hrewrites hphase hmet hskipped
      | glob => exact certain_of_glob hrule hrewrites hexpand hphase hmet hskipped
      | regex =>
        rw [rewritesTokenToItself, phaseOf_eq_regex.mp hphase] at hrewrites
        exact absurd hrewrites (by simp)
  · intro hcertain
    cases hcertain with
    | exact hphase =>
      intro token bindings shell commandExists _ htemplate
      have hsame : template = abbr.key := by
        simpa [rewritesTokenToItself, (phaseOf_eq_exact.mp hphase).1] using hrewrites
      have hloop : isExactSelfLoop abbr template = true := by simp [isExactSelfLoop, hphase, hsame]
      simp [tryExpandRule, htemplate, hloop]
    | glob hphase hcount hcapture =>
      exact alwaysSkipped_glob hrule hrewrites hphase hcount hcapture
    | number hphase hkey hunit => exact alwaysSkipped_number hrule hrewrites hphase hkey hunit
    | neverMet h => exact alwaysSkipped_of_neverMet h

/-- A number rule whose expansion is its key, and a glob rule that only places the cursor. -/
def selfLoopConfig : Config where
  version := 1
  abbr :=
    [{ key := 'x' :: numberPlaceholder, expand := .all ('x' :: numberPlaceholder), number := some ['a'] },
      { key := ['g', '*'], expand := .all ['g', '{', '}', '{', '*', '}'], matchKind := some .glob }]

theorem selfLoopConfig_accepted : Accepted default selfLoopConfig :=
  accepted_iff.mpr ⟨rfl, by decide, by decide +kernel⟩

/-- The glob rule is skipped, for the token `gb` for one. -/
theorem self_loop_sound_iff_cursor :
    tryExpandRule
      { key := ['g', '*'], expand := .all ['g', '{', '}', '{', '*', '}'], matchKind := some .glob }
      ['g', 'b'] .bash (fun _ => true) { glob := some ['b'] } = none :=
  (self_loop_sound_iff default selfLoopConfig selfLoopConfig_accepted _ (.tail _ (.head _))
    ['g', '{', '}', '{', '*', '}'] (by decide) (by decide +kernel)).mpr
    (.glob rfl (by decide) (by decide)) _ _ _ _ (by decide +kernel) rfl

/-- The number rule is warned about, and expands `x2` to `xaa`. -/
theorem self_loop_unsound : ¬ ∀ (engine : RegexLite) (config : Config), Accepted engine config →
    ∀ abbr ∈ config.abbr, ∀ template ∈ abbr.expand.allValues,
      rewritesTokenToItself abbr template = true →
      ∀ token bindings shell commandExists, matchRule engine abbr token = some bindings →
        abbr.expand.forShell shell = some template →
        tryExpandRule abbr token shell commandExists bindings = none := by
  intro h
  have hskipped := h default selfLoopConfig selfLoopConfig_accepted _ (.head _)
    ('x' :: numberPlaceholder) (by decide) (by decide) ['x', '2'] { number := some 2 } .bash
    (fun _ => true) (by decide +kernel) rfl
  exact absurd hskipped (by decide +kernel)

end Runex
