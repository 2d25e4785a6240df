import Runex.App.BashStaticDispatcher.Expansions
import Runex.Domain.Expand.Selection

/-!
# Scans over the baked tables

One entry of a table finds what its rule contributes to `expand`: the three scans of the dispatcher
are `expand` without the regex rules.

## Main definitions

- `Scanning` — what holds between two entries of a scan
- `Leaves` — what a scan that fires leaves
- `DispatcherTables.Carry` — every rule has its row

## Main results

- `cygLookupEntry_finds`, `cygPatternLookupEntry_finds`, `cygGlobLookupEntry_finds` — one entry of a
  table is one rule
- `cygSearch_found` — the three scans in a row
-/

namespace Runex

open Search BashArray Loop ShellPattern
open Text (byteLen)

variable {engine : RegexLite} {shell : GitBash} {config : Config} {rule : Abbr}
  {token template : Text} {point : ℕ} {s : DispatcherState}

-- ════════════════════════════════════════════════════════════════════════
-- The state of a scan
-- ════════════════════════════════════════════════════════════════════════

/-- Every remembered answer is that of `type -P`. -/
def MemoSound (shell : GitBash) (seen : List (Text × Bool)) : Prop :=
  ∀ c found, seen.lookup c = some found → found = shell.typeP c

/-- Between two entries nothing is found, case matters, and the memo is sound. -/
structure Scanning (shell : GitBash) (point : ℕ) (s : DispatcherState) : Prop where
  case_matters : s.nocasematch = false
  memo : MemoSound shell s.cmdSeen
  not_hit : s.hit = false
  point_eq : s.readlinePoint = point

/-- The variables hold an expansion. -/
structure Leaves (result : ExpandResult) (s : DispatcherState) : Prop where
  result_eq : ∃ cursor, result = .expanded s.out cursor ∧ SamePlace s.out s.cursorOff cursor
  case_matters : s.nocasematch = false
  is_hit : s.hit = true

theorem Scanning.fold_eq (h : Scanning shell point s) : shell.fold s = id := by
  simp [GitBash.fold, h.case_matters]

/-- One command: its answer is remembered, and joins the condition. -/
theorem cygSeeCommand_eq (h : MemoSound shell s.cmdSeen) (c : Text) :
    ∃ seen, MemoSound shell seen ∧ cygSeeCommand shell s c =
      { s with cmdSeen := seen, condsMet := s.condsMet && shell.typeP c } := by
  unfold cygSeeCommand
  cases hlookup : s.cmdSeen.lookup c with
  | none =>
    have hmemo : MemoSound shell ((c, shell.typeP c) :: s.cmdSeen) := by
      intro d found hfound
      rw [List.lookup_cons] at hfound
      split at hfound
      · next heq => rw [eq_of_beq heq, Option.some.inj hfound]
      · exact h d found hfound
    refine ⟨_, hmemo, ?_⟩
    cases htype : shell.typeP c <;> simp
  | some found =>
    refine ⟨s.cmdSeen, h, ?_⟩
    obtain rfl := h c found hlookup
    cases htype : shell.typeP c <;> simp [htype, hlookup]

theorem foldl_cygSeeCommand (cmds : List Text) (h : MemoSound shell s.cmdSeen) :
    ∃ seen, MemoSound shell seen ∧ cmds.foldl (cygSeeCommand shell) s =
      { s with cmdSeen := seen, condsMet := s.condsMet && cmds.all shell.typeP } := by
  induction cmds generalizing s with
  | nil => exact ⟨s.cmdSeen, h, by simp⟩
  | cons c cmds ih =>
    obtain ⟨seen, hseen, hstep⟩ := cygSeeCommand_eq h c
    obtain ⟨seen', hseen', hrun⟩ := ih (s := { s with
      cmdSeen := seen
      condsMet := s.condsMet && shell.typeP c }) hseen
    exact ⟨seen', hseen', by rw [List.foldl_cons, hstep, hrun, List.all_cons, Bool.and_assoc]⟩

/-- The condition is met when every command is found. -/
theorem Scanning.condsMet (h : Scanning shell point s) (conds : Text) :
    Scanning shell point (cygCondsMet shell conds s) ∧
      (cygCondsMet shell conds s).condsMet = (splitConditions conds).all shell.typeP := by
  unfold cygCondsMet
  by_cases hconds : conds = []
  · rw [if_pos hconds, splitConditions, if_pos hconds]
    exact ⟨⟨h.case_matters, h.memo, h.not_hit, h.point_eq⟩, rfl⟩
  · obtain ⟨seen, hseen, hrun⟩ := foldl_cygSeeCommand (splitConditions conds)
      (s := { s with condsMet := true }) h.memo
    rw [if_neg hconds, hrun]
    exact ⟨⟨h.case_matters, hseen, h.not_hit, h.point_eq⟩, Bool.true_and _⟩

theorem Scanning.byteLen (h : Scanning shell point s) (text : Text) :
    Scanning shell point (cygByteLen text s) :=
  ⟨h.case_matters, h.memo, h.not_hit, h.point_eq⟩

/-- The cap of the functions is that of the program. -/
theorem cygByteLen_over (text : Text) (s : DispatcherState) :
    (cygByteLen text s).len > 4096 ↔ Text.byteLen text > maxRenderedExpandBytes := Iff.rfl

/-- Rendering takes the cursor placeholder out, and fails when what is left is blank. -/
theorem cygRender_eq (shell : GitBash) (text : Text) (s : DispatcherState) :
    ∃ off, SamePlace (extractCursorPlaceholder text).1 off (extractCursorPlaceholder text).2 ∧
      cygRender shell text s =
        if cygIsBlank (shell.fold s) (extractCursorPlaceholder text).1 then
          (false, { s with out := [], cursorOff := none })
        else
          (true, { s with out := (extractCursorPlaceholder text).1, cursorOff := off, hit := true }) := by
  unfold cygRender
  simp only [removeLongestSuffix_from, removeShortestPrefix_upTo]
  cases hsplit : splitOnce cursorPlaceholder text with
  | none =>
    refine ⟨none, ?_⟩
    rw [extractCursorPlaceholder_of_none hsplit, Option.map_none, Option.getD_none, if_pos rfl]
    exact ⟨trivial, rfl⟩
  | some parts =>
    obtain ⟨left, right⟩ := parts
    have hne : left ≠ text := by
      rintro rfl
      have hlength := congrArg List.length (eq_append_of_splitOnce hsplit)
      simp [cursorPlaceholder] at hlength
    refine ⟨some left.length, ?_⟩
    rw [extractCursorPlaceholder_of_some hsplit, Option.map_some, Option.getD_some, if_neg hne,
      Option.map_some, Option.getD_some]
    exact ⟨⟨left, right, rfl, rfl, rfl⟩, rfl⟩

/-- The end of an entry: `__runex_cyg_render "$text" && return`. -/
theorem Scanning.render (h : Scanning shell point s) (text : Text) :
    (if (cygRender shell text s).1 then Flow.done (cygRender shell text s).2
      else .next (cygRender shell text s).2).Answers (Scanning shell point) Leaves
      (if isBlankExpansion (extractCursorPlaceholder text).1 then none
        else some (.expanded (extractCursorPlaceholder text).1 (extractCursorPlaceholder text).2)) := by
  obtain ⟨off, hplace, hrender⟩ := cygRender_eq shell text s
  rw [hrender, h.fold_eq, cygIsBlank_eq, isBlankExpansion]
  cases Text.isBlank (extractCursorPlaceholder text).1 with
  | true => exact answers_next.mpr ⟨h.case_matters, h.memo, h.not_hit, h.point_eq⟩
  | false => exact answers_done.mpr ⟨⟨_, rfl, hplace⟩, h.case_matters, rfl⟩

-- ════════════════════════════════════════════════════════════════════════
-- What a rule contributes on Bash
-- ════════════════════════════════════════════════════════════════════════

/-- The guards of a rule with its Bash template and commands. -/
theorem tryExpandRule_bash {commandExists : Text → Bool} {cmds : List Text} {bindings : Bindings}
    (htemplate : rule.expand.forShell .bash = some template)
    (hcmds : bashCommands rule = some cmds) :
    tryExpandRule rule token .bash commandExists bindings =
      if isExactSelfLoop rule template then none
      else if cmds.all commandExists then tryExpandRule.fire rule token bindings template
      else none := by
  unfold bashCommands at hcmds
  rw [tryExpandRule, htemplate]
  simp only [Option.bind_eq_bind, Option.bind_some]
  split
  · rfl
  · cases hwhen : rule.whenCommandExists with
    | none =>
      rw [hwhen] at hcmds
      obtain rfl := Option.some.inj hcmds
      rfl
    | some perShell =>
      rw [hwhen] at hcmds
      simp only [hcmds, Option.bind_some]
      cases cmds.all commandExists <;> rfl

/-- A rule that fires on Bash has a row. -/
theorem isBakedIn_of_fireRule {commandExists : Text → Bool} {result : ExpandResult}
    (h : fireRule engine token .bash commandExists rule = some result) :
    isBakedIn (phaseOf rule) rule = true := by
  obtain ⟨_, _, _, _, template, commands, _, hfires⟩ := fireRule_eq_some.mp h
  have hcmds : bashCommands rule = some commands := by
    have hmet := hfires.conditions
    unfold ConditionsMet at hmet
    unfold bashCommands
    cases hwhen : rule.whenCommandExists with
    | none =>
      rw [hwhen] at hmet
      rw [hmet]
    | some perShell =>
      rw [hwhen] at hmet
      exact hmet.1
  simp [isBakedIn, hfires.template_eq, hcmds]

/-- An exact or `{number}` rule fires when its base text is within the cap and not blank. -/
theorem fire_of_no_captures {base : Text} {bindings : Bindings}
    (hphase : phaseOf rule = .exact ∨ phaseOf rule = .number)
    (hnone : ∀ name, resolveCapture name bindings = none)
    (hbase : renderNumber rule template bindings = some base)
    (hlen : byteLen base ≤ maxRenderedExpandBytes) :
    tryExpandRule.fire rule token bindings template =
      if isBlankExpansion (extractCursorPlaceholder base).1 then none
      else some (.expanded (extractCursorPlaceholder base).1 (extractCursorPlaceholder base).2) := by
  have hloop : ∀ text, isPatternSelfLoop rule text token = false := by
    intro text
    rcases hphase with hphase | hphase <;> simp [isPatternSelfLoop, hphase]
  have hcap := (byteLen_extractCursorPlaceholder_le base).trans hlen
  rw [tryExpandRule.fire, renderWithCursor_eq, hbase]
  simp only [Option.bind_eq_bind, Option.bind_some, renderBase_of_no_captures hnone, if_pos hcap,
    hloop, Bool.or_false]

/-- An exact rule fires on its key if its text differs from it and its conditions are met. -/
theorem fireRule_exact (haccepted : RuleAccepted engine rule) (hphase : phaseOf rule = .exact)
    {conds : Text} (htemplate : rule.expand.forShell .bash = some template)
    (hcmds : bashCommands rule = some (splitConditions conds)) :
    fireRule engine token .bash shell.typeP rule =
      if rule.key = token then
        if template = rule.key then none
        else if (splitConditions conds).all shell.typeP then
          if isBlankExpansion (extractCursorPlaceholder template).1 then none
          else some (.expanded (extractCursorPlaceholder template).1
            (extractCursorPlaceholder template).2)
        else none
      else none := by
  obtain ⟨hkind, hkey⟩ := phaseOf_eq_exact.mp hphase
  have hcap : byteLen template ≤ maxRenderedExpandBytes :=
    (checkExpandValue_eq_none.mp
      (haccepted.expand template (PerShell.mem_allValues_of_forShell htemplate))).2.2.1
  have hnone : ∀ name, resolveCapture name {} = none := fun _ =>
    resolveCapture_without_captures rfl rfl
  rw [fireRule, matchRule, hkind]
  simp only [matchAbbrKey, if_pos hkey]
  by_cases htoken : rule.key = token
  · rw [if_pos htoken, if_pos htoken, Option.bind_some, tryExpandRule_bash htemplate hcmds,
      fire_of_no_captures (Or.inl hphase) hnone rfl hcap]
    simp only [isExactSelfLoop, hphase, beq_self_eq_true, Bool.true_and, beq_iff_eq,
      eq_comm (a := rule.key)]
  · rw [if_neg htoken, if_neg htoken, Option.bind_none]

-- ════════════════════════════════════════════════════════════════════════
-- One entry is one rule
-- ════════════════════════════════════════════════════════════════════════

/-- A row of the exact table finds what its rule contributes. -/
theorem cygLookupEntry_finds (haccepted : RuleAccepted engine rule)
    (hphase : phaseOf rule = .exact) {entry : Text}
    (hrow : ExactRow rule (readFields unitSeparator 3 entry)) :
    Finds (Scanning shell point) Leaves (cygLookupEntry shell token) entry
      (fireRule engine token .bash shell.typeP rule) := by
  obtain ⟨template, conds, hfields, htemplate, hcmds⟩ := hrow
  intro s hs
  obtain ⟨hs', hmet⟩ := hs.condsMet conds
  rw [fireRule_exact haccepted hphase htemplate hcmds, cygLookupEntry, hfields]
  dsimp only
  by_cases htoken : rule.key = token
  · rw [if_pos htoken, if_neg (not_not_intro htoken)]
    by_cases hloop : template = rule.key
    · rw [if_pos hloop, if_pos hloop]
      exact answers_next.mpr hs
    · rw [if_neg hloop, if_neg hloop, hmet]
      cases (splitConditions conds).all shell.typeP with
      | false =>
        rw [Bool.not_false, if_pos rfl, if_neg Bool.false_ne_true]
        exact answers_next.mpr hs'
      | true =>
        rw [Bool.not_true, if_neg Bool.false_ne_true, if_pos rfl]
        exact hs'.render template
  · rw [if_neg htoken, if_pos htoken]
    exact answers_next.mpr hs

/-- Repeating the unit in a loop. -/
theorem iterate_append (unit : Text) (n : ℕ) :
    (· ++ unit)^[n] [] = (List.replicate n unit).flatten := by
  induction n with
  | zero => rfl
  | succ n ih =>
    rw [Function.iterate_succ_apply', ih, List.replicate_succ', List.flatten_append,
      List.flatten_singleton]

/-- A matched `{number}` rule fires with its unit repeated, when no step exceeds the cap. -/
theorem fire_number {unit : Text} (hphase : phaseOf rule = .number)
    (hunit : rule.number = some unit) (n : ℕ) :
    tryExpandRule.fire rule token { number := some n } template =
      if byteLen (List.replicate n unit).flatten > maxRenderedExpandBytes then none
      else
        let base := replaceAll numberPlaceholder (List.replicate n unit).flatten template
        if byteLen base > maxRenderedExpandBytes then none
        else if isBlankExpansion (extractCursorPlaceholder base).1 then none
        else some (.expanded (extractCursorPlaceholder base).1 (extractCursorPlaceholder base).2) := by
  have hrender : renderNumber rule template { number := some n } =
      if byteLen (List.replicate n unit).flatten > maxRenderedExpandBytes then none
      else if byteLen (replaceAll numberPlaceholder (List.replicate n unit).flatten template) >
        maxRenderedExpandBytes then none
      else some (replaceAll numberPlaceholder (List.replicate n unit).flatten template) := by
    rw [Text.byteLen_replicate_flatten, Nat.mul_comm]
    simp only [renderNumber, hunit, Option.bind_eq_bind, Option.bind_some]
  have hnone : renderNumber rule template { number := some n } = none →
      tryExpandRule.fire rule token { number := some n } template = none := by
    intro h
    rw [tryExpandRule.fire, renderWithCursor_eq, h]
    rfl
  split at hrender
  · next hlong => rw [if_pos hlong, hnone hrender]
  · next hrepeated =>
    rw [if_neg hrepeated]
    split at hrender
    · next hlong => simp only [if_pos hlong, hnone hrender]
    · next hlen =>
      simp only [if_neg hlen]
      exact fire_of_no_captures (Or.inr hphase)
        (fun _ => resolveCapture_without_captures rfl rfl) hrender (Nat.le_of_not_lt hlen)

/-- A row of the `{number}` table finds what its rule contributes. -/
theorem cygPatternLookupEntry_finds (haccepted : RuleAccepted engine rule)
    (hphase : phaseOf rule = .number) {entry : Text}
    (hrow : NumberRow rule (readFields unitSeparator 5 entry)) :
    Finds (Scanning shell point) Leaves (cygPatternLookupEntry shell token) entry
      (fireRule engine token .bash shell.typeP rule) := by
  obtain ⟨pre, suf, template, unit, conds, hfields, hkeyEq, hunit, htemplate, hcmds⟩ := hrow
  obtain ⟨hkind, hkey⟩ := phaseOf_eq_number.mp hphase
  obtain ⟨_, _, haround⟩ := splitOnceNumberPlaceholder_of_accepted haccepted hkind hkey
  have hsplit := splitOnceNumberPlaceholder_of_parts hkeyEq haround
  intro s hs
  have hloop : isExactSelfLoop rule template = false := by simp [isExactSelfLoop, hphase]
  rw [fireRule, matchRule, hkind, cygPatternLookupEntry, hfields]
  simp only [matchAbbrKey_eq_cygPatternNumber token hkey hsplit, hs.fold_eq]
  cases cygPatternNumber id pre suf token with
  | none => exact answers_next.mpr hs
  | some n =>
    obtain ⟨hs', hmet⟩ := hs.condsMet conds
    rw [Option.map_some, Option.bind_some, tryExpandRule_bash htemplate hcmds, hloop,
      if_neg Bool.false_ne_true]
    dsimp only
    rw [hmet]
    cases (splitConditions conds).all shell.typeP with
    | false =>
      rw [Bool.not_false, if_pos rfl, if_neg Bool.false_ne_true]
      exact answers_next.mpr hs'
    | true =>
      rw [Bool.not_true, if_neg Bool.false_ne_true, if_pos rfl, iterate_append,
        fire_number hphase hunit]
      simp only [cygByteLen_over, (hs'.byteLen _).fold_eq,
        replaceMatches_literal numberPlaceholder_ne_nil]
      by_cases hrepeated : byteLen (List.replicate n unit).flatten > maxRenderedExpandBytes
      · rw [if_pos hrepeated, if_pos hrepeated]
        exact answers_next.mpr (hs'.byteLen _)
      · rw [if_neg hrepeated, if_neg hrepeated]
        by_cases hlen : byteLen (replaceAll numberPlaceholder (List.replicate n unit).flatten
            template) > maxRenderedExpandBytes
        · rw [if_pos hlen, if_pos hlen]
          exact answers_next.mpr ((hs'.byteLen _).byteLen _)
        · rw [if_neg hlen, if_neg hlen]
          exact ((hs'.byteLen _).byteLen _).render _

/-- A matched glob rule fires when its text is within the cap, not blank and not the token. -/
theorem fire_glob (hphase : phaseOf rule = .glob) (captured : Text) :
    tryExpandRule.fire rule token { glob := some captured } template =
      if byteLen (renderBase template { glob := some captured }).1 > maxRenderedExpandBytes then none
      else if isBlankExpansion (renderBase template { glob := some captured }).1 ||
          (renderBase template { glob := some captured }).1 = token then none
      else some (.expanded (renderBase template { glob := some captured }).1
        (renderBase template { glob := some captured }).2) := by
  have hloop : ∀ text, isPatternSelfLoop rule text token = decide (text = token) := by
    intro text
    rw [isPatternSelfLoop, hphase, Bool.eq_iff_iff]
    simp
  rw [tryExpandRule.fire, renderWithCursor_eq]
  simp only [renderNumber, Option.bind_eq_bind, Option.bind_some, hloop]
  by_cases hlen : byteLen (renderBase template { glob := some captured }).1 > maxRenderedExpandBytes
  · rw [if_pos hlen, if_neg (Nat.not_le_of_lt hlen), Option.bind_none]
  · rw [if_neg hlen, if_pos (Nat.le_of_not_lt hlen), Option.bind_some]

/-- The characters of the parts of a key are those of the key. -/
theorem mem_key_of_globRow {key head tail : Text} {c : Char}
    (hkey : key = head ++ '*' :: tail ∨ ('*' ∉ key ∧ head = key ∧ tail = []))
    (hc : c ∈ head ∨ c ∈ tail) : c ∈ key := by
  rcases hkey with rfl | ⟨-, rfl, rfl⟩
  · simpa using hc.imp_right Or.inr
  · simpa using hc

/-- The end of an entry of the glob table: a text that is blank or the token is refused. -/
theorem Scanning.acceptGlob (h : Scanning shell point s) {cursor : Option ℕ}
    (hplace : SamePlace s.out s.cursorOff cursor) (token : Text) :
    (if cygIsBlank (shell.fold s) s.out || s.out = token then
        Flow.next { s with out := [], cursorOff := none }
      else .done { s with hit := true }).Answers (Scanning shell point) Leaves
      (if isBlankExpansion s.out || s.out = token then none else some (.expanded s.out cursor)) := by
  rw [h.fold_eq, cygIsBlank_eq, isBlankExpansion]
  cases Text.isBlank s.out || decide (s.out = token) with
  | true => exact answers_next.mpr ⟨h.case_matters, h.memo, h.not_hit, h.point_eq⟩
  | false => exact answers_done.mpr ⟨⟨_, rfl, hplace⟩, h.case_matters, rfl⟩

/-- A row of the glob table finds what its rule contributes. -/
theorem cygGlobLookupEntry_finds (hshell : shell.Documented) (haccepted : RuleAccepted engine rule)
    (hphase : phaseOf rule = .glob) {entry : Text}
    (hrow : GlobRow rule (readFields unitSeparator 5 entry)) :
    Finds (Scanning shell point) Leaves (cygGlobLookupEntry shell token) entry
      (fireRule engine token .bash shell.typeP rule) := by
  obtain ⟨head, tail, template, conds, hfields, hkey, htemplate, hcmds⟩ := hrow
  have hkind := phaseOf_eq_glob.mp hphase
  obtain ⟨hplain, hcount, -⟩ := haccepted.glob hkind
  intro s hs
  have hpattern : ∀ part : Text, (∀ c ∈ part, c ∈ rule.key) →
      shell.readPattern part = unquoted part := fun part hpart =>
    hshell.readPattern_unquoted part (fun h => hplain _ (hpart _ h) (by decide))
      (fun h => hplain _ (hpart _ h) (by decide)) (fun h => hplain _ (hpart _ h) (by decide))
  have hloop : isExactSelfLoop rule template = false := by simp [isExactSelfLoop, hphase]
  rw [fireRule, matchRule, hkind, cygGlobLookupEntry, hfields]
  simp only [matchGlobKey_eq token hcount hkey, hs.fold_eq, hpattern rule.key fun _ h => h,
    hpattern head fun _ h => mem_key_of_globRow hkey (Or.inl h),
    hpattern tail fun _ h => mem_key_of_globRow hkey (Or.inr h)]
  cases isMatch id (unquoted rule.key) token with
  | false => exact answers_next.mpr hs
  | true =>
    obtain ⟨hs', hmet⟩ := hs.condsMet conds
    rw [if_pos rfl, Option.map_some, Option.bind_some, tryExpandRule_bash htemplate hcmds, hloop,
      if_neg Bool.false_ne_true, Bool.not_true, if_neg Bool.false_ne_true, ← hmet]
    generalize cygCondsMet shell conds s = s' at hs' ⊢
    by_cases hmet' : s'.condsMet = true
    · have hgoOn : ¬ (!s'.condsMet) = true := by simp [hmet']
      rw [if_pos hmet', if_neg hgoOn, fire_glob hphase]
      generalize removeShortestSuffix (unquoted tail) (removeShortestPrefix (unquoted head) token) =
        captured
      obtain ⟨htext, hplace⟩ := cygGlobText_eq template captured
      simp only [cygByteLen_over, hs'.fold_eq, ← htext]
      by_cases hlen : byteLen (cygGlobText id template captured).1 > maxRenderedExpandBytes
      · rw [if_pos hlen, if_pos hlen]
        exact answers_next.mpr ⟨hs'.case_matters, hs'.memo, hs'.not_hit, hs'.point_eq⟩
      · have hs'' : Scanning shell point (cygByteLen (cygGlobText id template captured).1
            { s' with
              out := (cygGlobText id template captured).1
              cursorOff := (cygGlobText id template captured).2 }) :=
          ⟨hs'.case_matters, hs'.memo, hs'.not_hit, hs'.point_eq⟩
        rw [if_neg hlen, if_neg hlen]
        exact hs''.acceptGlob hplace token
    · have hskip : (!s'.condsMet) = true := by simp [hmet']
      rw [if_neg hmet', if_pos hskip]
      exact answers_next.mpr hs'

-- ════════════════════════════════════════════════════════════════════════
-- The scans
-- ════════════════════════════════════════════════════════════════════════

/-- Each table, read, has one row for each of its rules in config order, and the row carries the
    rule unchanged. -/
structure DispatcherTables.Carry (tables : DispatcherTables) (config : Config) : Prop where
  exact_rows : List.Forall₂ ExactRow (config.abbr.filter (isBakedIn .exact))
    (tables.abbrExact.map (readFields unitSeparator 3))
  pattern_rows : List.Forall₂ NumberRow (config.abbr.filter (isBakedIn .number))
    (tables.abbrPatterns.map (readFields unitSeparator 5))
  glob_rows : List.Forall₂ GlobRow (config.abbr.filter (isBakedIn .glob))
    (tables.abbrGlobs.map (readFields unitSeparator 5))

/-- The tables of the generated block carry its rules when no row loses a character. -/
theorem tablesCarryRules_iff_carry : TablesCarryRules config ↔
    ∃ tables : DispatcherTables, tables.Carry config ∧
      readTables (generateCygwinDispatcher config) =
        some (tables.abbrExact, tables.abbrPatterns, tables.abbrGlobs) := by
  constructor
  · rintro ⟨exact, patterns, globs, hread, hexact, hpatterns, hglobs⟩
    exact ⟨⟨exact, patterns, globs⟩, ⟨hexact, hpatterns, hglobs⟩, hread⟩
  · rintro ⟨tables, hcarry, hread⟩
    exact ⟨_, _, _, hread, hcarry.exact_rows, hcarry.pattern_rows, hcarry.glob_rows⟩

/-- The tables that Bash reads from the block carry the rules of an accepted configuration, unless a
    string has a line separator. -/
theorem DispatcherTables.carry_of_oneLine {tables : DispatcherTables}
    (haccepted : Accepted engine config)
    (hlines : ∀ rule ∈ config.abbr, ∀ s ∈ bakedStrings rule, OneLine s)
    (hread : readTables (generateCygwinDispatcher config) =
      some (tables.abbrExact, tables.abbrPatterns, tables.abbrGlobs)) : tables.Carry config := by
  obtain ⟨found, hcarry, hfound⟩ :=
    tablesCarryRules_iff_carry.mp (tablesCarryRules_of_oneLine haccepted hlines)
  have hsame := Option.some.inj (hread.symm.trans hfound)
  cases tables
  cases found
  simp only [Prod.mk.injEq] at hsame
  obtain ⟨rfl, rfl, rfl⟩ := hsame
  exact hcarry

/-- The configuration without its regex rules. -/
def Config.withoutRegex (config : Config) : Config :=
  { config with abbr := config.abbr.filter fun rule => rule.matchKind ≠ some .regex }

/-- A search depends only on the items that yield something. -/
theorem findSome?_filter_congr {α β : Type} {p q : α → Bool} {f : α → Option β} {l : List α}
    (h : ∀ a ∈ l, ∀ b, f a = some b → p a = q a) :
    (l.filter p).findSome? f = (l.filter q).findSome? f := by
  induction l with
  | nil => rfl
  | cons a l ih =>
    have ih := ih fun b hb => h b (List.mem_cons_of_mem a hb)
    cases hfa : f a with
    | none =>
      have hskip : ∀ keep : Bool, ∀ rest : List α,
          ((if keep = true then a :: rest else rest).findSome? f) = rest.findSome? f := by
        intro keep rest
        cases keep <;> simp [hfa]
      rw [List.filter_cons, List.filter_cons, hskip, hskip, ih]
    | some b =>
      have hsame := h a List.mem_cons_self b hfa
      rw [List.filter_cons, List.filter_cons, hsame]
      cases q a <;> simp [hfa, ih]

/-- What the rules with a row in a table contribute. -/
def bakedSearch (engine : RegexLite) (config : Config) (token : Text)
    (commandExists : Text → Bool) (phase : Phase) : Option ExpandResult :=
  (config.abbr.filter (isBakedIn phase)).findSome? (fireRule engine token .bash commandExists)

/-- Without the regex rules the scan runs over the rules with a row. -/
theorem expand_withoutRegex (commandExists : Text → Bool) :
    expand engine config.withoutRegex token .bash commandExists =
      (((bakedSearch engine config token commandExists .exact).or
        (bakedSearch engine config token commandExists .number)).or
        (bakedSearch engine config token commandExists .glob)).getD (.passThrough token) := by
  have hphase : ∀ phase : Phase, ((config.withoutRegex.abbr.filter fun rule =>
      phaseOf rule == phase).findSome? (fireRule engine token .bash commandExists)) =
      if phase = .regex then none else bakedSearch engine config token commandExists phase := by
    intro phase
    rw [Config.withoutRegex, List.filter_filter]
    by_cases hregex : phase = .regex
    · rw [if_pos hregex, List.filter_eq_nil_iff.mpr, List.findSome?_nil]
      intro rule _
      simp only [hregex, Bool.and_eq_true, beq_iff_eq, phaseOf_eq_regex, decide_eq_true_eq]
      tauto
    · rw [if_neg hregex]
      refine findSome?_filter_congr fun rule _ result hresult => ?_
      have hbaked := isBakedIn_of_fireRule hresult
      by_cases hrule : phaseOf rule = phase
      · have hkind : rule.matchKind ≠ some .regex := fun hkind =>
          hregex (hrule.symm.trans (phaseOf_eq_regex.mpr hkind))
        rw [← hrule, hbaked]
        simpa using hkind
      · have hother : (phaseOf rule == phase) = false := by simpa using hrule
        rw [isBakedIn, hother]
        rfl
  change ((phases.findSome? fun phase => (config.withoutRegex.abbr.filter fun rule =>
    phaseOf rule == phase).findSome? (fireRule engine token .bash commandExists)).getD _) = _
  simp only [hphase, phases, List.findSome?_cons, List.findSome?_nil, reduceCtorEq, if_false, if_true]
  cases bakedSearch engine config token commandExists .exact <;>
    cases bakedSearch engine config token commandExists .number <;>
      cases bakedSearch engine config token commandExists .glob <;> rfl

/-- A scan over a table finds what the rules with a row in it contribute. -/
theorem forEach_bakedSearch {phase : Phase} {R : Abbr → List Text → Prop} {n : ℕ}
    {entries : List Text} {body : Text → DispatcherState → Flow DispatcherState}
    (hrows : List.Forall₂ R (config.abbr.filter (isBakedIn phase))
      (entries.map (readFields unitSeparator n)))
    (hfinds : ∀ rule ∈ config.abbr, phaseOf rule = phase → ∀ entry,
      R rule (readFields unitSeparator n entry) →
      Finds (Scanning shell point) Leaves body entry (fireRule engine token .bash shell.typeP rule))
    (hs : Scanning shell point s) :
    Outcome (Scanning shell point) Leaves (bakedSearch engine config token shell.typeP phase)
      (forEach body entries s) := by
  rw [List.forall₂_map_right_iff] at hrows
  have hmem : ∀ rule ∈ config.abbr.filter (isBakedIn phase),
      rule ∈ config.abbr ∧ phaseOf rule = phase := by
    intro rule hrule
    obtain ⟨hmem, hbaked⟩ := List.mem_filter.mp hrule
    simp only [isBakedIn, Bool.and_eq_true, beq_iff_eq] at hbaked
    exact ⟨hmem, hbaked.1.1⟩
  have hboth := (List.forall₂_and_left _ _).mpr ⟨hmem, hrows⟩
  exact forEach_finds (hboth.imp fun rule entry h => hfinds rule h.1.1 h.1.2 entry h.2) hs

/-- What the search leaves for an outcome of `expand`. -/
def Found (point : ℕ) : ExpandResult → DispatcherState → Prop
  | .expanded text cursor, s => s.hit = true ∧ s.out = text ∧ SamePlace text s.cursorOff cursor
  | .passThrough _, s => s.hit = false ∧ s.readlinePoint = point

theorem found_of_outcome {result : Option ExpandResult}
    (h : Outcome (Scanning shell point) Leaves result s) :
    Found point (result.getD (.passThrough token)) s := by
  cases result with
  | none => exact ⟨h.not_hit, h.point_eq⟩
  | some result =>
    obtain ⟨cursor, hresult, hplace⟩ := h.result_eq
    rw [Option.getD_some, hresult]
    exact ⟨h.is_hit, rfl, hplace⟩

theorem Found.restore {result : ExpandResult} (h : Found point result s) :
    Found point result { s with nocasematch := true } := by
  cases result with
  | expanded text cursor => exact h
  | passThrough _ => exact h

/-- The variables the lookup functions reset first. -/
theorem Scanning.reset (h : Scanning shell point s) :
    Scanning shell point { s with out := [], cursorOff := none } :=
  ⟨h.case_matters, h.memo, h.not_hit, h.point_eq⟩

section Search

variable {tables : DispatcherTables}

theorem cygLookup_outcome (haccepted : Accepted engine config) (hcarry : tables.Carry config)
    (hs : Scanning shell point s) :
    Outcome (Scanning shell point) Leaves (bakedSearch engine config token shell.typeP .exact)
      (cygLookup shell tables token s) :=
  forEach_bakedSearch hcarry.exact_rows
    (fun _ hmem hphase _ hrow => cygLookupEntry_finds (haccepted.rule hmem) hphase hrow) hs.reset

theorem cygPatternLookup_outcome (haccepted : Accepted engine config) (hcarry : tables.Carry config)
    (hs : Scanning shell point s) :
    Outcome (Scanning shell point) Leaves (bakedSearch engine config token shell.typeP .number)
      (cygPatternLookup shell tables token s) :=
  forEach_bakedSearch hcarry.pattern_rows
    (fun _ hmem hphase _ hrow => cygPatternLookupEntry_finds (haccepted.rule hmem) hphase hrow)
    hs.reset

theorem cygGlobLookup_outcome (haccepted : Accepted engine config) (hcarry : tables.Carry config)
    (hshell : shell.Documented) (hs : Scanning shell point s) :
    Outcome (Scanning shell point) Leaves (bakedSearch engine config token shell.typeP .glob)
      (cygGlobLookup shell tables token s) :=
  forEach_bakedSearch hcarry.glob_rows
    (fun _ hmem hphase _ hrow => cygGlobLookupEntry_finds hshell (haccepted.rule hmem) hphase hrow)
    hs.reset

/-- The three scans are `expand` without the regex rules. -/
theorem scans_found (haccepted : Accepted engine config) (hcarry : tables.Carry config)
    (hshell : shell.Documented) (hs : Scanning shell point s) :
    Found point (expand engine config.withoutRegex token .bash shell.typeP)
      (let s := cygLookup shell tables token s
       let s := if !s.hit then cygPatternLookup shell tables token s else s
       if !s.hit then cygGlobLookup shell tables token s else s) := by
  have hnot : ∀ s', Scanning shell point s' → s'.hit = false := fun _ h => h.not_hit
  have hhit : ∀ result s', Leaves result s' → s'.hit = true := fun _ _ h => h.is_hit
  rw [expand_withoutRegex]
  apply found_of_outcome
  apply Outcome.orElse _ hnot hhit
  · exact fun _ hs => cygGlobLookup_outcome haccepted hcarry hshell hs
  · apply Outcome.orElse (cygLookup_outcome haccepted hcarry hs) hnot hhit
    exact fun _ hs => cygPatternLookup_outcome haccepted hcarry hs

/-- The option is off during the scans and set again after them. -/
theorem cygSearch_found (haccepted : Accepted engine config) (hcarry : tables.Carry config)
    (hshell : shell.Documented) (token : Text) (s : DispatcherState) :
    Found s.readlinePoint (expand engine config.withoutRegex token .bash shell.typeP)
      (cygSearch shell tables token s) := by
  have hscans : ∀ s', s'.nocasematch = false → s'.cmdSeen = [] → s'.hit = false →
      s'.readlinePoint = s.readlinePoint →
      Found s.readlinePoint (expand engine config.withoutRegex token .bash shell.typeP)
        (let s' := cygLookup shell tables token s'
         let s' := if !s'.hit then cygPatternLookup shell tables token s' else s'
         if !s'.hit then cygGlobLookup shell tables token s' else s') := by
    intro s' hcase hseen hhit hpoint
    have hmemo : MemoSound shell s'.cmdSeen := by
      intro c found hfound
      simp [hseen] at hfound
    exact scans_found haccepted hcarry hshell ⟨hcase, hmemo, hhit, hpoint⟩
  have hprepared := hscans { s with cmdSeen := [], nocasematch := false, hit := false } rfl rfl rfl rfl
  unfold cygSearch
  cases s.nocasematch with
  | false => exact hprepared
  | true => exact hprepared.restore

end Search

end Runex
