import Runex.Domain.Expand.Rendering

/-!
# `which` agrees with `expand`

Two guard chains, one that stops at the first failing guard and one that records it, scan the same
rules. What it takes for a rule to fire, and what each skip reason says, is stated once; both
chains are then instances of it.

## Main definitions

- `Fires` — a matched rule passes every guard
- `SkippedBecause` — the first guard a matched rule fails, under the reason that names it
- `ScanOrder` — phase before phase, and config order within a phase
- `Explains` — a skipped list names the rules it covers, each with its reason

## Main results

- `fires_or_skipped` — a matched rule fires or is skipped for one reason
- `which_tells_the_truth` — both scans choose the same rule and see the same rules before it
-/

namespace Runex

open Text (byteLen)

-- ════════════════════════════════════════════════════════════════════════
-- The guards of one rule
-- ════════════════════════════════════════════════════════════════════════

/-- The whole command list of a rule for the shell is installed; a rule without a condition has
    the empty list. -/
def ConditionsMet (abbr : Abbr) (shell : Shell) (commandExists : Text → Bool)
    (commands : List Text) : Prop :=
  match abbr.whenCommandExists with
  | none => commands = []
  | some cmds => cmds.forShell shell = some commands ∧ ∀ cmd ∈ commands, commandExists cmd = true

/-- A matched rule passes every guard and renders to `text`. -/
structure Fires (abbr : Abbr) (token : Text) (shell : Shell) (commandExists : Text → Bool)
    (bindings : Bindings) (template text : Text) (cursor : Option ℕ) (commands : List Text) :
    Prop where
  template_eq : abbr.expand.forShell shell = some template
  not_exact_self_loop : isExactSelfLoop abbr template = false
  conditions : ConditionsMet abbr shell commandExists commands
  render_eq : renderWithCursor abbr template bindings = some (text, cursor)
  not_blank : isBlankExpansion text = false
  not_pattern_self_loop : isPatternSelfLoop abbr text token = false

/-- The first guard a matched rule fails. A rendering over the cap or without a unit counts as a
    self-loop. -/
inductive SkippedBecause (abbr : Abbr) (token : Text) (shell : Shell)
    (commandExists : Text → Bool) (bindings : Bindings) : SkipReason → Prop where
  | noTemplate (h : abbr.expand.forShell shell = none) :
      SkippedBecause abbr token shell commandExists bindings .noShellEntry
  | exactSelfLoop {template : Text} (h : abbr.expand.forShell shell = some template)
      (hloop : isExactSelfLoop abbr template = true) :
      SkippedBecause abbr token shell commandExists bindings .selfLoop
  | noConditions {template : Text} {cmds : PerShellCmds}
      (h : abbr.expand.forShell shell = some template)
      (hloop : isExactSelfLoop abbr template = false)
      (hcmds : abbr.whenCommandExists = some cmds) (hnone : cmds.forShell shell = none) :
      SkippedBecause abbr token shell commandExists bindings .noShellEntry
  | conditionFailed {template : Text} {cmds : PerShellCmds} {commands : List Text}
      (h : abbr.expand.forShell shell = some template)
      (hloop : isExactSelfLoop abbr template = false)
      (hcmds : abbr.whenCommandExists = some cmds) (hlist : cmds.forShell shell = some commands)
      (hmissing : ∃ cmd ∈ commands, commandExists cmd = false) :
      SkippedBecause abbr token shell commandExists bindings
        (.conditionFailed (commands.filter commandExists)
          (commands.filter fun cmd => !commandExists cmd))
  | notRendered {template : Text} {commands : List Text}
      (h : abbr.expand.forShell shell = some template)
      (hloop : isExactSelfLoop abbr template = false)
      (hmet : ConditionsMet abbr shell commandExists commands)
      (hrender : renderWithCursor abbr template bindings = none) :
      SkippedBecause abbr token shell commandExists bindings .selfLoop
  | blank {template text : Text} {cursor : Option ℕ} {commands : List Text}
      (h : abbr.expand.forShell shell = some template)
      (hloop : isExactSelfLoop abbr template = false)
      (hmet : ConditionsMet abbr shell commandExists commands)
      (hrender : renderWithCursor abbr template bindings = some (text, cursor))
      (hblank : isBlankExpansion text = true) :
      SkippedBecause abbr token shell commandExists bindings .blankExpansion
  | patternSelfLoop {template text : Text} {cursor : Option ℕ} {commands : List Text}
      (h : abbr.expand.forShell shell = some template)
      (hloop : isExactSelfLoop abbr template = false)
      (hmet : ConditionsMet abbr shell commandExists commands)
      (hrender : renderWithCursor abbr template bindings = some (text, cursor))
      (hblank : isBlankExpansion text = false)
      (hpattern : isPatternSelfLoop abbr text token = true) :
      SkippedBecause abbr token shell commandExists bindings .selfLoop

/-- `which` shows `text` with the cursor placeholder back in its place. -/
def ShowsCursor (text : Text) (cursor : Option ℕ) (expansion : Text) : Prop :=
  match cursor with
  | none => expansion = text
  | some off => ∃ left right, text = left ++ right ∧ byteLen left = off ∧
      expansion = left ++ (cursorPlaceholder ++ right)

section Rule

variable {abbr : Abbr} {token : Text} {shell : Shell} {commandExists : Text → Bool}
  {bindings : Bindings}

/-- The guard that a skipped rule fails is one of those that a rule passes to fire. -/
theorem SkippedBecause.not_fires {reason : SkipReason} {template text : Text} {cursor : Option ℕ}
    {commands : List Text} (h : SkippedBecause abbr token shell commandExists bindings reason) :
    ¬ Fires abbr token shell commandExists bindings template text cursor commands := by
  rintro ⟨htemplate, hnoloop, hmet, hrender, hvisible, hnopattern⟩
  cases h with
  | noTemplate hnone =>
    rw [htemplate] at hnone
    cases hnone
  | exactSelfLoop hsome hloop =>
    obtain rfl := Option.some.inj (htemplate.symm.trans hsome)
    exact Bool.false_ne_true (hnoloop.symm.trans hloop)
  | noConditions _ _ hcmds hnone =>
    rw [ConditionsMet, hcmds] at hmet
    rw [hmet.1] at hnone
    cases hnone
  | conditionFailed _ _ hcmds hlist hmissing =>
    rw [ConditionsMet, hcmds] at hmet
    obtain rfl := Option.some.inj (hmet.1.symm.trans hlist)
    obtain ⟨cmd, hmem, habsent⟩ := hmissing
    exact Bool.false_ne_true (habsent.symm.trans (hmet.2 cmd hmem))
  | notRendered hsome _ _ hnone =>
    obtain rfl := Option.some.inj (htemplate.symm.trans hsome)
    rw [hrender] at hnone
    cases hnone
  | blank hsome _ _ hrender' hblank =>
    obtain rfl := Option.some.inj (htemplate.symm.trans hsome)
    obtain ⟨rfl, rfl⟩ := Prod.mk.inj (Option.some.inj (hrender.symm.trans hrender'))
    exact Bool.false_ne_true (hvisible.symm.trans hblank)
  | patternSelfLoop hsome _ _ hrender' _ hpattern =>
    obtain rfl := Option.some.inj (htemplate.symm.trans hsome)
    obtain ⟨rfl, rfl⟩ := Prod.mk.inj (Option.some.inj (hrender.symm.trans hrender'))
    exact Bool.false_ne_true (hnopattern.symm.trans hpattern)

/-- The marker goes back at a character boundary, so `insert_str` does not panic. -/
theorem exists_withCursorMarker {template text : Text} {cursor : Option ℕ}
    (h : renderWithCursor abbr template bindings = some (text, cursor)) :
    ∃ expansion, withCursorMarker text cursor = some expansion ∧
      ShowsCursor text cursor expansion := by
  cases cursor with
  | none => exact ⟨text, rfl, rfl⟩
  | some off =>
    obtain ⟨left, right, rfl, rfl⟩ := renderWithCursor_isBoundary h
    exact ⟨left ++ (cursorPlaceholder ++ right), by simp [withCursorMarker, Text.splitAt?_append],
      left, right, rfl, rfl, rfl⟩

/-- What both chains do once the conditions are met. -/
theorem rendered_cases {template : Text} {commands : List Text}
    (h : abbr.expand.forShell shell = some template)
    (hloop : isExactSelfLoop abbr template = false)
    (hmet : ConditionsMet abbr shell commandExists commands) :
    (∃ text cursor expansion,
      Fires abbr token shell commandExists bindings template text cursor commands ∧
      tryExpandRule.fire abbr token bindings template = some (.expanded text cursor) ∧
      tryWhichRule.rendered abbr token bindings template commands =
        some (.hit expansion commands) ∧ ShowsCursor text cursor expansion) ∨
    (∃ reason, SkippedBecause abbr token shell commandExists bindings reason ∧
      tryExpandRule.fire abbr token bindings template = none ∧
      tryWhichRule.rendered abbr token bindings template commands = some (.skip reason)) := by
  unfold tryExpandRule.fire tryWhichRule.rendered
  cases hrender : renderWithCursor abbr template bindings with
  | none => exact Or.inr ⟨_, .notRendered h hloop hmet hrender, rfl, rfl⟩
  | some rendered =>
    obtain ⟨text, cursor⟩ := rendered
    simp only [Option.bind_eq_bind, Option.bind_some]
    cases hblank : isBlankExpansion text with
    | true => exact Or.inr ⟨_, .blank h hloop hmet hrender hblank, by simp, by simp⟩
    | false =>
      cases hpattern : isPatternSelfLoop abbr text token with
      | true =>
        exact Or.inr ⟨_, .patternSelfLoop h hloop hmet hrender hblank hpattern, by simp, by simp⟩
      | false =>
        obtain ⟨expansion, hmarker, hshows⟩ := exists_withCursorMarker hrender
        exact Or.inl ⟨text, cursor, expansion, ⟨h, hloop, hmet, hrender, hblank, hpattern⟩,
          by simp, by simp [hmarker], hshows⟩

/-- A matched rule fires in both chains, or both skip it and one reason names the guard. -/
theorem fires_or_skipped (abbr : Abbr) (token : Text) (shell : Shell)
    (commandExists : Text → Bool) (bindings : Bindings) :
    (∃ template text cursor commands expansion,
      Fires abbr token shell commandExists bindings template text cursor commands ∧
      tryExpandRule abbr token shell commandExists bindings = some (.expanded text cursor) ∧
      tryWhichRule abbr token shell commandExists bindings = some (.hit expansion commands) ∧
      ShowsCursor text cursor expansion) ∨
    (∃ reason, SkippedBecause abbr token shell commandExists bindings reason ∧
      tryExpandRule abbr token shell commandExists bindings = none ∧
      tryWhichRule abbr token shell commandExists bindings = some (.skip reason)) := by
  unfold tryExpandRule tryWhichRule
  cases htemplate : abbr.expand.forShell shell with
  | none => exact Or.inr ⟨_, .noTemplate htemplate, rfl, rfl⟩
  | some template =>
    simp only [Option.bind_eq_bind, Option.bind_some]
    cases hloop : isExactSelfLoop abbr template with
    | true => exact Or.inr ⟨_, .exactSelfLoop htemplate hloop, rfl, rfl⟩
    | false =>
      simp only [Bool.false_eq_true, if_false]
      cases hcmds : abbr.whenCommandExists with
      | none =>
        have hmet : ConditionsMet abbr shell commandExists [] := by simp [ConditionsMet, hcmds]
        rcases rendered_cases htemplate hloop hmet with
          ⟨text, cursor, expansion, hfires⟩ | hskip
        · exact Or.inl ⟨template, text, cursor, [], expansion, hfires⟩
        · exact Or.inr hskip
      | some cmds =>
        cases hlist : cmds.forShell shell with
        | none =>
          exact Or.inr ⟨_, .noConditions htemplate hloop hcmds hlist, by simp [hlist],
            by simp only [hlist]⟩
        | some commands =>
          simp only [hlist, Option.bind_some, List.partition_eq_filter_filter, Function.comp_def]
          by_cases hall : commands.all commandExists = true
          · have hmet : ConditionsMet abbr shell commandExists commands := by
              simpa [ConditionsMet, hcmds, hlist] using hall
            have hmissing : commands.filter (fun cmd => !commandExists cmd) = [] := by
              simpa using hall
            simp only [hall, Bool.not_true, Bool.false_eq_true, if_false, hmissing, ne_eq,
              not_true_eq_false]
            rcases rendered_cases htemplate hloop hmet with
              ⟨text, cursor, expansion, hfires⟩ | hskip
            · exact Or.inl ⟨template, text, cursor, commands, expansion, hfires⟩
            · exact Or.inr hskip
          · have hexists : ∃ cmd ∈ commands, commandExists cmd = false := by simpa using hall
            have hmissing : commands.filter (fun cmd => !commandExists cmd) ≠ [] := by
              simpa using hall
            exact Or.inr ⟨_, .conditionFailed htemplate hloop hcmds hlist hexists, by simp [hall],
              by rw [if_pos hmissing]⟩

end Rule

-- ════════════════════════════════════════════════════════════════════════
-- The two scans
-- ════════════════════════════════════════════════════════════════════════

/-- Earlier in the scan: an earlier phase, or the same phase and earlier in the configuration. -/
def ScanOrder (r s : ℕ × Abbr) : Prop :=
  phases.idxOf (phaseOf r.2) < phases.idxOf (phaseOf s.2) ∨
    (phaseOf r.2 = phaseOf s.2 ∧ r.1 < s.1)

/-- The rule is in the list with its index. -/
theorem mem_rulesInPhaseOrder {config : Config} {i : ℕ} {abbr : Abbr} :
    (i, abbr) ∈ rulesInPhaseOrder config ↔ config.abbr[i]? = some abbr := by
  simp only [rulesInPhaseOrder, List.mem_flatMap, List.mem_map, List.mem_filter, Prod.mk.injEq,
    Prod.exists, beq_iff_eq, List.mem_zipIdx_iff_getElem?]
  constructor
  · rintro ⟨phase, -, abbr', i', ⟨hget, -⟩, rfl, rfl⟩
    exact hget
  · intro hget
    refine ⟨phaseOf abbr, ?_, abbr, i, ⟨hget, rfl⟩, rfl, rfl⟩
    cases phaseOf abbr <;> decide

theorem zipIdx_pairwise_lt {α : Type} (l : List α) (k : ℕ) :
    (l.zipIdx k).Pairwise fun r s => r.2 < s.2 := by
  induction l generalizing k with
  | nil => simp
  | cons a l ih =>
    simp only [List.zipIdx_cons, List.pairwise_cons]
    refine ⟨fun r hr => ?_, ih (k + 1)⟩
    have := List.le_snd_of_mem_zipIdx hr
    omega

/-- The list is in scan order. -/
theorem rulesInPhaseOrder_pairwise (config : Config) :
    (rulesInPhaseOrder config).Pairwise ScanOrder := by
  have hphase : ∀ phase, ∀ r ∈ (config.abbr.zipIdx.filter fun r => phaseOf r.1 == phase).map
      Prod.swap, phaseOf r.2 = phase := by
    rintro phase ⟨i, abbr⟩ hr
    simp only [List.mem_map, List.mem_filter, Prod.swap_prod_mk, Prod.mk.injEq, Prod.exists,
      beq_iff_eq] at hr
    obtain ⟨abbr', i', ⟨-, hphase⟩, rfl, rfl⟩ := hr
    exact hphase
  rw [rulesInPhaseOrder, List.pairwise_flatMap]
  refine ⟨fun phase _ => ?_, ?_⟩
  · rw [List.pairwise_map]
    refine (List.Pairwise.filter _ (zipIdx_pairwise_lt config.abbr 0)).imp_of_mem ?_
    intro r s hr hs hlt
    simp only [List.mem_filter, beq_iff_eq] at hr hs
    exact Or.inr ⟨hr.2.trans hs.2.symm, hlt⟩
  · have hphases : phases.Pairwise fun p q => phases.idxOf p < phases.idxOf q := by decide
    refine hphases.imp fun {p q} hlt r hr s hs => Or.inl ?_
    rw [hphase p r hr, hphase q s hs]
    exact hlt

theorem findSome?_flatMap {α β γ : Type} (l : List α) (g : α → List β) (f : β → Option γ) :
    (l.flatMap g).findSome? f = l.findSome? fun a => (g a).findSome? f := by
  induction l with
  | nil => rfl
  | cons a l ih =>
    simp only [List.flatMap_cons, List.findSome?_append, List.findSome?_cons, ih]
    cases (g a).findSome? f <;> rfl

section Scan

variable (engine : RegexLite) (token : Text) (shell : Shell) (commandExists : Text → Bool)

/-- What `expand` gets from one rule. -/
def fireRule (abbr : Abbr) : Option ExpandResult :=
  (matchRule engine abbr token).bind fun bindings =>
    tryExpandRule abbr token shell commandExists bindings

/-- `expand` is the first rule of the scan order that fires. -/
theorem expand_eq (config : Config) :
    expand engine config token shell commandExists =
      ((rulesInPhaseOrder config).findSome? fun rule =>
        fireRule engine token shell commandExists rule.2).getD (.passThrough token) := by
  have hphase : ∀ phase, (config.abbr.filter fun abbr => phaseOf abbr == phase).findSome?
        (fireRule engine token shell commandExists) =
      ((config.abbr.zipIdx.filter fun rule => phaseOf rule.1 == phase).map Prod.swap).findSome?
        fun rule => fireRule engine token shell commandExists rule.2 := by
    intro phase
    have hlist : config.abbr = config.abbr.zipIdx.map Prod.fst := by simp
    rw [List.findSome?_map]
    conv_lhs => rw [hlist]
    rw [List.filter_map, List.findSome?_map]
    rfl
  rw [expand, rulesInPhaseOrder, findSome?_flatMap]
  congr 2
  funext phase
  exact hphase phase

/-- A skipped list names the rules it covers in order, each with the reason of its guard. -/
def Explains (skipped : List (ℕ × SkipReason)) (rules : List (ℕ × Abbr)) : Prop :=
  List.Forall₂ (fun entry rule => entry.1 = rule.1 ∧ ∃ bindings,
    matchRule engine rule.2 token = some bindings ∧
    SkippedBecause rule.2 token shell commandExists bindings entry.2) skipped rules

/-- The rules of a list that match the token. -/
def matching (rules : List (ℕ × Abbr)) : List (ℕ × Abbr) :=
  rules.filter fun rule => (matchRule engine rule.2 token).isSome

variable {engine token shell commandExists}

theorem matching_cons_none {i : ℕ} {abbr : Abbr} (h : matchRule engine abbr token = none)
    (rules : List (ℕ × Abbr)) :
    matching engine token ((i, abbr) :: rules) = matching engine token rules := by
  simp [matching, h]

theorem matching_cons_some {i : ℕ} {abbr : Abbr} {bindings : Bindings}
    (h : matchRule engine abbr token = some bindings) (rules : List (ℕ × Abbr)) :
    matching engine token ((i, abbr) :: rules) = (i, abbr) :: matching engine token rules := by
  simp [matching, h]

theorem fireRule_of_match {abbr : Abbr} {bindings : Bindings}
    (h : matchRule engine abbr token = some bindings) :
    fireRule engine token shell commandExists abbr =
      tryExpandRule abbr token shell commandExists bindings := by
  simp [fireRule, h]

/-- Both scans of a list of rules: every matching rule is skipped, or the same one is chosen
    after the same rules were skipped. -/
theorem scan_cases (engine : RegexLite) (token : Text) (shell : Shell)
    (commandExists : Text → Bool) (rules : List (ℕ × Abbr)) (skipped : List (ℕ × SkipReason))
    (anyKeyMatched : Bool) :
    (∃ more, Explains engine token shell commandExists more (matching engine token rules) ∧
      rules.findSome? (fun rule => fireRule engine token shell commandExists rule.2) = none ∧
      whichLoop engine token shell commandExists rules skipped anyKeyMatched =
        some (if anyKeyMatched = true ∨ matching engine token rules ≠ [] then
          .allSkipped token (skipped ++ more) else .noMatch token)) ∨
    (∃ before i abbr after bindings template text cursor commands expansion more,
      matching engine token rules = before ++ (i, abbr) :: after ∧
      Explains engine token shell commandExists more before ∧
      matchRule engine abbr token = some bindings ∧
      Fires abbr token shell commandExists bindings template text cursor commands ∧
      ShowsCursor text cursor expansion ∧
      rules.findSome? (fun rule => fireRule engine token shell commandExists rule.2) =
        some (.expanded text cursor) ∧
      whichLoop engine token shell commandExists rules skipped anyKeyMatched =
        some (.expanded abbr.key expansion i commands (skipped ++ more))) := by
  induction rules generalizing skipped anyKeyMatched with
  | nil => exact Or.inl ⟨[], List.Forall₂.nil, rfl, by simp [whichLoop, matching]⟩
  | cons rule rules ih =>
    obtain ⟨i, abbr⟩ := rule
    cases hmatch : matchRule engine abbr token with
    | none =>
      have hfire : fireRule engine token shell commandExists abbr = none := by
        simp [fireRule, hmatch]
      rw [matching_cons_none hmatch, whichLoop, hmatch, List.findSome?_cons_of_isNone (by simp [hfire])]
      exact ih skipped anyKeyMatched
    | some bindings =>
      rw [matching_cons_some hmatch, whichLoop, hmatch]
      simp only
      rcases fires_or_skipped abbr token shell commandExists bindings with
        ⟨template, text, cursor, commands, expansion, hfires, hexpand, hwhich, hshows⟩ |
        ⟨reason, hskipped, hexpand, hwhich⟩
      · -- The rule fires: nothing was skipped before it in this list.
        refine Or.inr ⟨[], i, abbr, _, bindings, template, text, cursor, commands, expansion, [],
          rfl, List.Forall₂.nil, hmatch, hfires, hshows, ?_, ?_⟩
        · rw [List.findSome?_cons, fireRule_of_match hmatch, hexpand]
        · rw [hwhich, List.append_nil]
      · have hfire : fireRule engine token shell commandExists abbr = none := by
          rw [fireRule_of_match hmatch, hexpand]
        rw [hwhich, List.findSome?_cons_of_isNone (by simp [hfire])]
        simp only
        rcases ih (skipped ++ [(i, reason)]) true with
          ⟨more, hexplains, hnone, hloop⟩ |
          ⟨before, j, chosen, after, bindings', template, text, cursor, commands, expansion, more,
            hrules, hexplains, hrest⟩
        · refine Or.inl ⟨(i, reason) :: more, ?_, hnone, by simp [hloop]⟩
          exact List.Forall₂.cons ⟨rfl, bindings, hmatch, hskipped⟩ hexplains
        · refine Or.inr ⟨(i, abbr) :: before, j, chosen, after, bindings', template, text, cursor,
            commands, expansion, (i, reason) :: more, by simp [hrules], ?_, ?_⟩
          · exact List.Forall₂.cons ⟨rfl, bindings, hmatch, hskipped⟩ hexplains
          · simpa using hrest

end Scan

/-- **`which` tells the truth about `expand`.** For every configuration, token, shell and command
    oracle, `which` does not panic, and with `rules` the matching rules in scan order: either no
    rule is chosen, `expand` passes the token through and `which` explains every matching rule; or
    both choose the same rule, `which` shows its rendering with the cursor placeholder back in
    place and its whole command list, and explains exactly the matching rules before it. -/
theorem which_tells_the_truth (engine : RegexLite) (config : Config) (token : Text) (shell : Shell)
    (commandExists : Text → Bool) :
    ∃ rules result, (∀ i abbr, (i, abbr) ∈ rules ↔
        config.abbr[i]? = some abbr ∧ (matchRule engine abbr token).isSome = true) ∧
      rules.Pairwise ScanOrder ∧
      whichAbbr engine config token shell commandExists = some result ∧
      ((∃ skipped, Explains engine token shell commandExists skipped rules ∧
          expand engine config token shell commandExists = .passThrough token ∧
          result = if rules = [] then .noMatch token else .allSkipped token skipped) ∨
        (∃ before i abbr after bindings template text cursor commands expansion skipped,
          rules = before ++ (i, abbr) :: after ∧
          Explains engine token shell commandExists skipped before ∧
          matchRule engine abbr token = some bindings ∧
          Fires abbr token shell commandExists bindings template text cursor commands ∧
          ShowsCursor text cursor expansion ∧
          expand engine config token shell commandExists = .expanded text cursor ∧
          result = .expanded abbr.key expansion i commands skipped)) := by
  have hmem : ∀ i abbr, (i, abbr) ∈ matching engine token (rulesInPhaseOrder config) ↔
      config.abbr[i]? = some abbr ∧ (matchRule engine abbr token).isSome = true := by
    intro i abbr
    rw [matching, List.mem_filter, mem_rulesInPhaseOrder]
  have horder : (matching engine token (rulesInPhaseOrder config)).Pairwise ScanOrder :=
    (rulesInPhaseOrder_pairwise config).filter _
  refine ⟨matching engine token (rulesInPhaseOrder config), ?_⟩
  rw [expand_eq, whichAbbr]
  rcases scan_cases engine token shell commandExists (rulesInPhaseOrder config) [] false with
    ⟨skipped, hexplains, hnone, hloop⟩ |
    ⟨before, i, abbr, after, bindings, template, text, cursor, commands, expansion, skipped,
      hrules, hexplains, hmatch, hfires, hshows, hfired, hloop⟩
  · refine ⟨_, hmem, horder, hloop, Or.inl ⟨skipped, hexplains, by rw [hnone]; rfl, ?_⟩⟩
    by_cases hnil : matching engine token (rulesInPhaseOrder config) = [] <;> simp [hnil]
  · exact ⟨_, hmem, horder, hloop, Or.inr ⟨before, i, abbr, after, bindings, template, text, cursor,
      commands, expansion, skipped, hrules, hexplains, hmatch, hfires, hshows, by rw [hfired]; rfl,
      by simp⟩⟩

end Runex
