import Runex.App.BashStaticDispatcher.Rows
import Runex.Lib.BashArray

/-!
# What the baked tables carry

Bash reads the three tables as arrays of words and each word with `IFS=$'\037' read -r`. The table
quoting drops line separators, which validation lets through; where no rule contains one, the
tables carry every rule they are for, in order and unchanged.

## Main definitions

- `readTables` — the three arrays at the start of the dispatcher
- `ExactRow`, `NumberRow`, `GlobRow` — the fields that carry a rule unchanged
- `TablesCarryRules` — every rule has its row

## Main results

- `tables_carry_rules_iff` — when the tables lose nothing
-/

namespace Runex

open Search BashArray
open Text (isAsciiControl)

-- ════════════════════════════════════════════════════════════════════════
-- Reading the tables
-- ════════════════════════════════════════════════════════════════════════

/-- The value of the word `$'\037'`. -/
def unitSeparator : Char := '\x1f'

/-- The words of the three tables at the start of the dispatcher. -/
def readTables (script : Text) : Option (List Text × List Text × List Text) := do
  let script ← stripPrefix? "__runex_abbr_exact=(".toList script
  let (exact, script) ← readArray script
  let script ← stripPrefix? "\n__runex_abbr_patterns=(".toList script
  let (patterns, script) ← readArray script
  let script ← stripPrefix? "\n__runex_abbr_globs=(".toList script
  let (globs, _) ← readArray script
  some (exact, patterns, globs)

/-- `for c in $conds` with `IFS=':'`. -/
def splitConditions (conds : Text) : List Text := if conds = [] then [] else conds.splitOn ':'

-- ════════════════════════════════════════════════════════════════════════
-- What the rows are meant to be
-- ════════════════════════════════════════════════════════════════════════

/-- The Bash commands of a rule: none without a condition. -/
def bashCommands (rule : Abbr) : Option (List Text) :=
  match rule.whenCommandExists with
  | none => some []
  | some perShell => perShell.forShell .bash

/-- A rule of a phase with a Bash expansion, and with a Bash condition or none at all. -/
def isBakedIn (phase : Phase) (rule : Abbr) : Bool :=
  phaseOf rule == phase && (rule.expand.forShell .bash).isSome && (bashCommands rule).isSome

/-- Key, template and conditions of an exact rule. -/
def ExactRow (rule : Abbr) (fields : List Text) : Prop :=
  ∃ template conds, fields = [rule.key, template, conds] ∧
    rule.expand.forShell .bash = some template ∧ bashCommands rule = some (splitConditions conds)

/-- Prefix, suffix, template, unit and conditions of a `{number}` rule. -/
def NumberRow (rule : Abbr) (fields : List Text) : Prop :=
  ∃ pre suf template unit conds, fields = [pre, suf, template, unit, conds] ∧
    rule.key = pre ++ (numberPlaceholder ++ suf) ∧ rule.number = some unit ∧
    rule.expand.forShell .bash = some template ∧ bashCommands rule = some (splitConditions conds)

/-- Pattern, head, tail, template and conditions of a glob rule: head and tail are the pattern
    around its `*`, or the whole pattern. -/
def GlobRow (rule : Abbr) (fields : List Text) : Prop :=
  ∃ head tail template conds, fields = [rule.key, head, tail, template, conds] ∧
    (rule.key = head ++ '*' :: tail ∨ ('*' ∉ rule.key ∧ head = rule.key ∧ tail = [])) ∧
    rule.expand.forShell .bash = some template ∧ bashCommands rule = some (splitConditions conds)

/-- Each table, read, has one row for each of its rules in config order, and the row carries the
    rule unchanged. -/
def TablesCarryRules (config : Config) : Prop :=
  ∃ exact patterns globs,
    readTables (generateCygwinDispatcher config) = some (exact, patterns, globs) ∧
    List.Forall₂ ExactRow (config.abbr.filter (isBakedIn .exact))
      (exact.map (readFields unitSeparator 3)) ∧
    List.Forall₂ NumberRow (config.abbr.filter (isBakedIn .number))
      (patterns.map (readFields unitSeparator 5)) ∧
    List.Forall₂ GlobRow (config.abbr.filter (isBakedIn .glob))
      (globs.map (readFields unitSeparator 5))

/-- The strings of a rule that its row carries. -/
def bakedStrings (rule : Abbr) : List Text :=
  match rule.expand.forShell .bash, bashCommands rule with
  | some template, some cmds =>
    if phaseOf rule = .regex then [] else rule.key :: template :: (rule.number.toList ++ cmds)
  | _, _ => []

-- ════════════════════════════════════════════════════════════════════════
-- What Bash reads
-- ════════════════════════════════════════════════════════════════════════

/-- The characters the table quoting keeps. -/
def isKept (c : Char) : Bool :=
  !(isAsciiControl c || isUnicodeLineSeparator c || isDeceptiveUnicode c)

/-- What Bash reads for a row. -/
def rowValue (fields : List Text) : Text := [unitSeparator].intercalate (fields.map (·.filter isKept))

section Words

open ShellLiteral Scanner

theorem drive_bashDoubleQuoteChar (c : Char) :
    bashWord.drive .double (bashDoubleQuoteChar c) = some (.double, [c].filter isKept) := by
  unfold bashDoubleQuoteChar
  split
  · next h =>
    simp only [List.mem_cons, List.not_mem_nil, or_false] at h
    rcases h with rfl | rfl | rfl | rfl <;> decide
  · next hescape =>
    simp only [List.mem_cons, List.not_mem_nil, or_false, not_or] at hescape
    obtain ⟨hquote, hslash, hdollar, htick⟩ := hescape
    split
    · next h => simp [isKept, h]
    · next h =>
      have hstep : bashWord.step .double c = .move .double [c] := by
        simp [bashWord, bashStep, hquote, hslash, hdollar, htick]
      rw [drive_cons hstep, drive_nil]
      simp [isKept, h]

theorem drive_bashDoubleQuoteForAssoc (s : Text) :
    bashWord.drive .bare (bashDoubleQuoteForAssoc s) = some (.bare, s.filter isKept) := by
  have hopen : bashWord.drive .bare ['"'] = some (.double, []) := by decide
  have hclose : bashWord.drive .double ['"'] = some (.bare, []) := by decide
  have hinside : bashWord.drive .double (s.flatMap bashDoubleQuoteChar) =
      some (.double, s.filter isKept) := by
    have hvalue : s.flatMap (fun c => [c].filter isKept) = s.filter isKept := by
      rw [← List.filter_flatMap, List.flatMap_singleton']
    rw [drive_flatMap fun c _ => drive_bashDoubleQuoteChar c, hvalue]
  simpa [bashDoubleQuoteForAssoc] using drive_append hopen (drive_append hinside hclose)

theorem drive_fieldSeparator :
    bashWord.drive .bare fieldSeparator = some (.bare, [unitSeparator]) := by decide

theorem drive_row (fields : List Text) :
    bashWord.drive .bare (fieldSeparator.intercalate (fields.map bashDoubleQuoteForAssoc)) =
      some (.bare, rowValue fields) := by
  induction fields with
  | nil => rfl
  | cons field fields ih =>
    cases fields with
    | nil => simpa [rowValue] using drive_bashDoubleQuoteForAssoc field
    | cons next fields =>
      simp only [rowValue, List.map_cons, List.intercalate_cons_cons] at ih ⊢
      exact drive_append (drive_append (drive_bashDoubleQuoteForAssoc field) drive_fieldSeparator) ih

theorem isWord_row {fields : List Text} (hne : fields ≠ []) :
    IsWord (fieldSeparator.intercalate (fields.map bashDoubleQuoteForAssoc)) (rowValue fields) := by
  obtain ⟨field, fields, rfl⟩ := List.exists_cons_of_ne_nil hne
  have hhead : ∃ t, fieldSeparator.intercalate ((field :: fields).map bashDoubleQuoteForAssoc) =
      '"' :: t := by
    cases fields with
    | nil => exact ⟨_, by rw [List.map_singleton, List.intercalate_singleton]; rfl⟩
    | cons next fields =>
      exact ⟨_, by rw [List.map_cons, List.map_cons, List.intercalate_cons_cons]; rfl⟩
  refine ⟨?_, ?_, drive_row _⟩
  · obtain ⟨t, ht⟩ := hhead
    rw [ht]
    simp [isGap]
  · obtain ⟨t, ht⟩ := hhead
    rw [ht]
    exact List.cons_ne_nil _ _

end Words

/-- A table body is its rows, each after a line break and an indent, and a last line break unless
    it is empty. -/
theorem tableBlock_eq (row : Abbr → Option (List Text)) (config : Config) :
    ∃ closing, (closing = [] ∨ closing = ['\n']) ∧ tableBlock (tableLines row config) =
      (config.abbr.filterMap row).flatMap (fun fields => "\n    ".toList ++
        fieldSeparator.intercalate (fields.map bashDoubleQuoteForAssoc)) ++ closing := by
  have hlines : ∀ rows : List (List Text), rows ≠ [] → '\n' :: Text.join (rows.map tableLine) =
      rows.flatMap fun fields => "\n    ".toList ++
        fieldSeparator.intercalate (fields.map bashDoubleQuoteForAssoc) := by
    intro rows
    induction rows with
    | nil => simp
    | cons fields rows ih =>
      intro _
      cases rows with
      | nil => simp [Text.join, tableLine]
      | cons next rows =>
        rw [List.flatMap_cons, ← ih (by simp)]
        simp [Text.join, tableLine, List.intercalate_cons_cons]
  unfold tableLines tableBlock
  cases hrows : config.abbr.filterMap row with
  | nil => exact ⟨[], Or.inl rfl, by simp [Text.join]⟩
  | cons fields rows =>
    have hne : Text.join ((fields :: rows).map tableLine) ≠ [] := by
      cases rows <;> simp [Text.join, tableLine, List.intercalate_cons_cons]
    refine ⟨['\n'], Or.inr rfl, ?_⟩
    rw [if_neg hne, ← hlines _ (by simp), List.cons_append]

/-- Bash reads an array word for each row. -/
theorem readArray_tableBlock (row : Abbr → Option (List Text)) (n : ℕ)
    (hrow : ∀ rule fields, row rule = some fields → fields.length = n + 1) (config : Config)
    (rest : Text) :
    readArray (tableBlock (tableLines row config) ++ ')' :: rest) =
      some ((config.abbr.filterMap row).map rowValue, rest) := by
  obtain ⟨closing, hclosing, hblock⟩ := tableBlock_eq row config
  rw [hblock, List.append_assoc]
  refine readArray_words (by decide) (by decide) (fun fields hfields => ?_) ?_ rest
  · obtain ⟨rule, -, hsome⟩ := List.mem_filterMap.mp hfields
    exact isWord_row (List.ne_nil_of_length_eq_add_one (hrow rule fields hsome))
  · rcases hclosing with rfl | rfl <;> decide

theorem exactRow_length (rule : Abbr) (fields : List Text) (h : exactRow rule = some fields) :
    fields.length = 3 := by
  obtain ⟨-, -, template, conds, -, -, rfl⟩ := exactRow_eq_some.mp h
  rfl

theorem patternRow_length (rule : Abbr) (fields : List Text) (h : patternRow rule = some fields) :
    fields.length = 5 := by
  obtain ⟨-, pre, suf, template, unit, conds, -, -, -, -, rfl⟩ := patternRow_eq_some.mp h
  rfl

theorem globRow_length (rule : Abbr) (fields : List Text) (h : globRow rule = some fields) :
    fields.length = 5 := by
  obtain ⟨-, template, conds, -, -, rfl⟩ := globRow_eq_some.mp h
  rfl

theorem readTables_dispatcher (config : Config) :
    readTables (generateCygwinDispatcher config) =
      some ((config.abbr.filterMap exactRow).map rowValue,
        (config.abbr.filterMap patternRow).map rowValue,
        (config.abbr.filterMap globRow).map rowValue) := by
  have hexact := readArray_tableBlock exactRow 2 exactRow_length config
  have hpattern := readArray_tableBlock patternRow 4 patternRow_length config
  have hglob := readArray_tableBlock globRow 4 globRow_length config
  have hfirst : ")\n__runex_abbr_patterns=(".toList = ')' :: "\n__runex_abbr_patterns=(".toList := by
    decide
  have hsecond : ")\n__runex_abbr_globs=(".toList = ')' :: "\n__runex_abbr_globs=(".toList := by
    decide
  have hthird : ")\n__runex_blank_multibyte=(".toList =
      ')' :: "\n__runex_blank_multibyte=(".toList := by decide
  unfold generateCygwinDispatcher readTables exactTableLines patternTableLines globTableLines
  simp only [stripPrefix?_append, Option.bind_eq_bind, Option.bind_some, hfirst, hsecond, hthird,
    List.cons_append, hexact, hpattern, hglob]

/-- `read` finds what the quoting kept of each field. -/
theorem readFields_rowValue {fields : List Text} (hne : fields ≠ []) :
    readFields unitSeparator fields.length (rowValue fields) = fields.map (·.filter isKept) := by
  have hfields : ∀ field ∈ fields.map (·.filter isKept), unitSeparator ∉ field := by
    intro field hfield hmem
    obtain ⟨s, -, rfl⟩ := List.mem_map.mp hfield
    exact absurd (List.mem_filter.mp hmem).2 (by decide)
  have hread := readFields_intercalate (by simpa using hne) hfields
  rwa [List.length_map] at hread

-- ════════════════════════════════════════════════════════════════════════
-- When a row carries its rule
-- ════════════════════════════════════════════════════════════════════════

variable {engine : RegexLite} {rule : Abbr}

/-- Free of the characters that validation rejects in every string of a rule. -/
def Clean (s : Text) : Prop := ∀ c ∈ s, isAsciiControl c = false ∧ isDeceptiveUnicode c = false

/-- Free of line separators. -/
def OneLine (s : Text) : Prop := ∀ c ∈ s, isUnicodeLineSeparator c = false

instance (s : Text) : Decidable (OneLine s) := inferInstanceAs (Decidable (∀ c ∈ s, _))

theorem filter_isKept_eq_iff {s : Text} (h : Clean s) : s.filter isKept = s ↔ OneLine s := by
  rw [List.filter_eq_self]
  refine forall₂_congr fun c hc => ?_
  obtain ⟨hcontrol, hdeceptive⟩ := h c hc
  simp [isKept, hcontrol, hdeceptive]

theorem RuleAccepted.clean_key (h : RuleAccepted engine rule) : Clean rule.key := by
  obtain ⟨-, -, -, -, hcontrol, hdeceptive⟩ := checkAbbrKey_eq_none.mp h.key
  exact fun c hc => ⟨hcontrol c hc, hdeceptive c hc⟩

theorem RuleAccepted.clean_template (h : RuleAccepted engine rule) {template : Text}
    (htemplate : rule.expand.forShell .bash = some template) : Clean template := by
  obtain ⟨-, -, -, -, hcontrol, hdeceptive⟩ := checkExpandValue_eq_none.mp
    (h.expand template (PerShell.mem_allValues_of_forShell htemplate))
  exact fun c hc => ⟨hcontrol c hc, hdeceptive c hc⟩

theorem RuleAccepted.clean_unit (h : RuleAccepted engine rule) {unit : Text}
    (hunit : rule.number = some unit) : Clean unit := by
  obtain ⟨-, -, -, hcontrol, hdeceptive⟩ := checkNumberUnit_eq_none.mp (h.unit unit hunit)
  exact fun c hc => ⟨hcontrol c hc, hdeceptive c hc⟩

theorem RuleAccepted.bashCommands (h : RuleAccepted engine rule) {cmds : List Text}
    (hcmds : bashCommands rule = some cmds) : ∀ cmd ∈ cmds, cmd ≠ [] ∧ Clean cmd ∧ ':' ∉ cmd := by
  unfold Runex.bashCommands at hcmds
  split at hcmds
  · obtain rfl := Option.some.inj hcmds
    simp
  · next perShell hwhen =>
    intro cmd hcmd
    have hcheck := (h.cmds perShell hwhen cmds (PerShell.mem_allValues_of_forShell hcmds)).2 cmd hcmd
    obtain ⟨hne, -, -, -, hcontrol, hdeceptive, ⟨-, -, hcolon⟩, -⟩ := checkCmdEntry_eq_none.mp hcheck
    exact ⟨hne, fun c hc => ⟨hcontrol c hc, hdeceptive c hc⟩, hcolon⟩

theorem bashConditions_eq (rule : Abbr) :
    bashConditions rule = (bashCommands rule).map [':'].intercalate := by
  unfold bashConditions bashCommands
  cases rule.whenCommandExists <;> rfl

theorem oneLine_append {s t : Text} : OneLine (s ++ t) ↔ OneLine s ∧ OneLine t :=
  List.forall_mem_append

theorem clean_append {s t : Text} : Clean (s ++ t) ↔ Clean s ∧ Clean t := List.forall_mem_append

theorem oneLine_intercalate {cmds : List Text} :
    OneLine ([':'].intercalate cmds) ↔ ∀ cmd ∈ cmds, OneLine cmd := by
  induction cmds with
  | nil => simp [OneLine]
  | cons cmd cmds ih =>
    cases cmds with
    | nil => simp
    | cons next cmds =>
      have hcolon : OneLine [':'] := by decide
      rw [List.intercalate_cons_cons, List.forall_mem_cons, ← ih, oneLine_append, oneLine_append,
        and_iff_left hcolon]

/-- The condition field gives the commands back exactly when no command has a line separator. -/
theorem splitConditions_eq_iff (h : RuleAccepted engine rule) {cmds : List Text}
    (hcmds : bashCommands rule = some cmds) :
    splitConditions (([':'].intercalate cmds).filter isKept) = cmds ↔ ∀ cmd ∈ cmds, OneLine cmd := by
  have hall := h.bashCommands hcmds
  have hclean : Clean ([':'].intercalate cmds) := by
    intro c hc
    rcases mem_of_mem_intercalate hc with hc | ⟨cmd, hcmd, hc⟩
    · obtain rfl := List.mem_singleton.mp hc
      decide
    · exact (hall cmd hcmd).2.1 c hc
  constructor
  · intro hsplit
    rw [← oneLine_intercalate, ← filter_isKept_eq_iff hclean]
    -- Joining the commands that were split gives the kept text back.
    have hjoin : ∀ kept, splitConditions kept = cmds → kept = [':'].intercalate cmds := by
      rintro kept rfl
      unfold splitConditions
      split
      · next hempty => rw [hempty]; rfl
      · exact (List.intercalate_splitOn ':').symm
    exact hjoin _ hsplit
  · intro honeLine
    rw [(filter_isKept_eq_iff hclean).mpr (oneLine_intercalate.mpr honeLine)]
    unfold splitConditions
    cases cmds with
    | nil => rfl
    | cons cmd cmds =>
      have hne : [':'].intercalate (cmd :: cmds) ≠ [] := by
        obtain ⟨hcmd, -, -⟩ := hall cmd (by simp)
        cases cmds <;> simp [List.intercalate_cons_cons, hcmd]
      rw [if_neg hne, List.splitOn_intercalate ':' (fun cmd hcmd => (hall cmd hcmd).2.2) (by simp)]

/-- What `bakedStrings` collects, for a rule that is not a regex. -/
theorem bakedStrings_eq {template : Text} {cmds : List Text}
    (htemplate : rule.expand.forShell .bash = some template) (hcmds : bashCommands rule = some cmds)
    (hphase : phaseOf rule ≠ .regex) :
    bakedStrings rule = rule.key :: template :: (rule.number.toList ++ cmds) := by
  simp [bakedStrings, htemplate, hcmds, hphase]

theorem exactRow_carries_iff (h : RuleAccepted engine rule) (hrow : exactRow rule = some fields) :
    ExactRow rule (readFields unitSeparator 3 (rowValue fields)) ↔
      ∀ s ∈ bakedStrings rule, OneLine s := by
  obtain ⟨hkind, hkey, template, conds, htemplate, hconds, rfl⟩ := exactRow_eq_some.mp hrow
  rw [bashConditions_eq, Option.map_eq_some_iff] at hconds
  obtain ⟨cmds, hcmds, rfl⟩ := hconds
  have hphase : phaseOf rule = .exact := phaseOf_eq_exact.mpr ⟨hkind, hkey⟩
  rw [bakedStrings_eq htemplate hcmds (by simp [hphase]), h.number_eq_none hkey,
    show 3 = [rule.key, template, [':'].intercalate cmds].length from rfl,
    readFields_rowValue (List.cons_ne_nil _ _)]
  have hconds := splitConditions_eq_iff h hcmds
  simp only [ExactRow, List.map_cons, List.map_nil, List.cons.injEq, and_true, htemplate, hcmds,
    Option.some.injEq, filter_isKept_eq_iff h.clean_key, Option.toList_none, List.nil_append,
    List.forall_mem_cons, ← hconds, ← filter_isKept_eq_iff (h.clean_template htemplate)]
  constructor
  · rintro ⟨_, _, ⟨hk, rfl, rfl⟩, ht, hc⟩
    exact ⟨hk, ht.symm, hc.symm⟩
  · rintro ⟨hk, ht, hc⟩
    exact ⟨_, _, ⟨hk, rfl, rfl⟩, ht.symm, hc.symm⟩

theorem filter_around_eq_iff {p : Char → Bool} {pre mid suf : Text} :
    pre ++ (mid ++ suf) = pre.filter p ++ (mid ++ suf.filter p) ↔
      pre.filter p = pre ∧ suf.filter p = suf := by
  constructor
  · intro h
    -- Neither part grows, so equal lengths leave both as they were.
    have hlength := congrArg List.length h
    have hpre := List.length_filter_le p pre
    have hsuf := List.length_filter_le p suf
    simp only [List.length_append] at hlength
    exact ⟨List.length_filter_eq_length_iff.mp (by omega) |> List.filter_eq_self.mpr,
      List.length_filter_eq_length_iff.mp (by omega) |> List.filter_eq_self.mpr⟩
  · rintro ⟨hpre, hsuf⟩
    rw [hpre, hsuf]

theorem patternRow_carries_iff (h : RuleAccepted engine rule) (hrow : patternRow rule = some fields) :
    NumberRow rule (readFields unitSeparator 5 (rowValue fields)) ↔
      ∀ s ∈ bakedStrings rule, OneLine s := by
  obtain ⟨hkind, pre, suf, template, unit, conds, hsplit, hunit, htemplate, hconds, rfl⟩ :=
    patternRow_eq_some.mp hrow
  rw [bashConditions_eq, Option.map_eq_some_iff] at hconds
  obtain ⟨cmds, hcmds, rfl⟩ := hconds
  have hkey : rule.key = pre ++ (numberPlaceholder ++ suf) := eq_append_of_splitOnce hsplit
  have hphase : phaseOf rule = .number :=
    phaseOf_eq_number.mpr ⟨hkind, by simp [hkey, numberPlaceholder]⟩
  have hparts : OneLine rule.key ↔ pre.filter isKept = pre ∧ suf.filter isKept = suf := by
    have hclean := h.clean_key
    rw [hkey, clean_append, clean_append] at hclean
    have hplaceholder : OneLine numberPlaceholder := by decide
    rw [filter_isKept_eq_iff hclean.1, filter_isKept_eq_iff hclean.2.2, hkey, oneLine_append,
      oneLine_append, and_iff_right hplaceholder]
  rw [bakedStrings_eq htemplate hcmds (by simp [hphase]), hunit,
    show 5 = [pre, suf, template, unit, [':'].intercalate cmds].length from rfl,
    readFields_rowValue (List.cons_ne_nil _ _)]
  have hconds := splitConditions_eq_iff h hcmds
  simp only [NumberRow, List.map_cons, List.map_nil, List.cons.injEq, and_true, htemplate, hcmds,
    hunit, Option.some.injEq, Option.toList_some, List.cons_append, List.nil_append,
    List.forall_mem_cons, hparts, ← hconds, ← filter_isKept_eq_iff (h.clean_template htemplate),
    ← filter_isKept_eq_iff (h.clean_unit hunit)]
  constructor
  · rintro ⟨_, _, _, _, _, ⟨rfl, rfl, rfl, rfl, rfl⟩, hk, hu, ht, hc⟩
    exact ⟨filter_around_eq_iff.mp (hkey.symm.trans hk), ht.symm, hu.symm, hc.symm⟩
  · rintro ⟨hk, ht, hu, hc⟩
    exact ⟨_, _, _, _, _, ⟨rfl, rfl, rfl, rfl, rfl⟩,
      hkey.trans (filter_around_eq_iff.mpr hk), hu.symm, ht.symm, hc.symm⟩

/-- Head and tail are the key around its first `*`, or the key. -/
theorem globParts_spec (key : Text) :
    key = (globParts key).1 ++ '*' :: (globParts key).2 ∨
      ('*' ∉ key ∧ (globParts key).1 = key ∧ (globParts key).2 = []) := by
  unfold globParts
  cases hsplit : splitOnce ['*'] key with
  | none => exact Or.inr ⟨splitOnce_singleton_eq_none.mp hsplit, rfl, rfl⟩
  | some parts => exact Or.inl (splitOnce_singleton_eq_some.mp hsplit).1

theorem globRow_carries_iff (h : RuleAccepted engine rule) (hrow : globRow rule = some fields) :
    GlobRow rule (readFields unitSeparator 5 (rowValue fields)) ↔
      ∀ s ∈ bakedStrings rule, OneLine s := by
  obtain ⟨hkind, template, conds, htemplate, hconds, rfl⟩ := globRow_eq_some.mp hrow
  rw [bashConditions_eq, Option.map_eq_some_iff] at hconds
  obtain ⟨cmds, hcmds, rfl⟩ := hconds
  have hphase : phaseOf rule = .glob := phaseOf_eq_glob.mpr hkind
  have hkeep : ∀ s : Text, (∀ c ∈ s, c ∈ rule.key) → rule.key.filter isKept = rule.key →
      s.filter isKept = s := fun s hs hkey =>
    List.filter_eq_self.mpr fun c hc => List.filter_eq_self.mp hkey c (hs c hc)
  have hhead := hkeep (globParts rule.key).1 fun c hc => mem_of_mem_globParts (Or.inl hc)
  have htail := hkeep (globParts rule.key).2 fun c hc => mem_of_mem_globParts (Or.inr hc)
  rw [bakedStrings_eq htemplate hcmds (by simp [hphase]),
    h.number_eq_none fun hmem => (h.glob hkind).1 _ hmem (by decide),
    show 5 = [rule.key, (globParts rule.key).1, (globParts rule.key).2, template,
      [':'].intercalate cmds].length from rfl,
    readFields_rowValue (List.cons_ne_nil _ _)]
  have hconds := splitConditions_eq_iff h hcmds
  simp only [GlobRow, List.map_cons, List.map_nil, List.cons.injEq, and_true, htemplate, hcmds,
    Option.some.injEq, filter_isKept_eq_iff h.clean_key, Option.toList_none, List.nil_append,
    List.forall_mem_cons, ← hconds, ← filter_isKept_eq_iff (h.clean_template htemplate)]
  rw [← filter_isKept_eq_iff h.clean_key]
  constructor
  · rintro ⟨_, _, _, _, ⟨hk, rfl, rfl, rfl, rfl⟩, -, ht, hc⟩
    exact ⟨hk, ht.symm, hc.symm⟩
  · rintro ⟨hk, ht, hc⟩
    refine ⟨_, _, _, _, ⟨hk, rfl, rfl, rfl, rfl⟩, ?_, ht.symm, hc.symm⟩
    rw [hhead hk, htail hk]
    exact globParts_spec rule.key

-- ════════════════════════════════════════════════════════════════════════
-- When the tables carry all rules
-- ════════════════════════════════════════════════════════════════════════

/-- Rules and rows go together in order: every row is that of a rule that passes the filter. -/
theorem forall₂_filter_filterMap {α β γ : Type} {p : α → Bool} {row : α → Option β} {g : β → γ}
    {R : α → γ → Prop} {l : List α} (h : ∀ a ∈ l, p a = (row a).isSome) :
    List.Forall₂ R (l.filter p) ((l.filterMap row).map g) ↔
      ∀ a ∈ l, ∀ b, row a = some b → R a (g b) := by
  induction l with
  | nil => simp
  | cons a l ih =>
    have ha := h a (by simp)
    have hl := ih fun b hb => h b (by simp [hb])
    cases hrow : row a with
    | none => simp [ha, hrow, hl]
    | some b => simp [ha, hrow, hl]

theorem isBakedIn_exact (rule : Abbr) : isBakedIn .exact rule = (exactRow rule).isSome := by
  rw [Bool.eq_iff_iff, Option.isSome_iff_exists]
  simp only [exactRow_eq_some, isBakedIn, bashConditions_eq, Bool.and_eq_true, beq_iff_eq,
    phaseOf_eq_exact, Option.isSome_iff_exists, Option.map_eq_some_iff]
  constructor
  · rintro ⟨⟨⟨hkind, hkey⟩, template, htemplate⟩, cmds, hcmds⟩
    exact ⟨_, hkind, hkey, template, _, htemplate, ⟨cmds, hcmds, rfl⟩, rfl⟩
  · rintro ⟨-, hkind, hkey, template, -, htemplate, ⟨cmds, hcmds, -⟩, -⟩
    exact ⟨⟨⟨hkind, hkey⟩, template, htemplate⟩, cmds, hcmds⟩

/-- An accepted key with a brace has a prefix, a suffix and a unit. -/
theorem isBakedIn_number (h : RuleAccepted engine rule) :
    isBakedIn .number rule = (patternRow rule).isSome := by
  rw [Bool.eq_iff_iff, Option.isSome_iff_exists]
  simp only [patternRow_eq_some, isBakedIn, bashConditions_eq, Bool.and_eq_true, beq_iff_eq,
    phaseOf_eq_number, Option.isSome_iff_exists, Option.map_eq_some_iff]
  constructor
  · rintro ⟨⟨⟨hkind, hkey⟩, template, htemplate⟩, cmds, hcmds⟩
    rcases h.keyShape with ⟨-, hfree, -⟩ | ⟨pre, suf, unit, -, -, hsplit, -, -, hunit⟩ |
      ⟨hglob, -, -⟩ | ⟨hregex⟩
    · exact absurd hkey hfree
    · exact ⟨_, hkind, pre, suf, template, unit, _, hsplit, hunit, htemplate, ⟨cmds, hcmds, rfl⟩, rfl⟩
    · simp [hkind] at hglob
    · simp [hkind] at hregex
  · rintro ⟨-, hkind, pre, suf, template, -, -, hsplit, -, htemplate, ⟨cmds, hcmds, -⟩, -⟩
    have hkey : '{' ∈ rule.key := by
      rw [eq_append_of_splitOnce hsplit]
      simp [numberPlaceholder]
    exact ⟨⟨⟨hkind, hkey⟩, template, htemplate⟩, cmds, hcmds⟩

theorem isBakedIn_glob (rule : Abbr) : isBakedIn .glob rule = (globRow rule).isSome := by
  rw [Bool.eq_iff_iff, Option.isSome_iff_exists]
  simp only [globRow_eq_some, isBakedIn, bashConditions_eq, Bool.and_eq_true, beq_iff_eq,
    phaseOf_eq_glob, Option.isSome_iff_exists, Option.map_eq_some_iff]
  constructor
  · rintro ⟨⟨hkind, template, htemplate⟩, cmds, hcmds⟩
    exact ⟨_, hkind, template, _, htemplate, ⟨cmds, hcmds, rfl⟩, rfl⟩
  · rintro ⟨-, hkind, template, -, htemplate, ⟨cmds, hcmds, -⟩, -⟩
    exact ⟨⟨hkind, template, htemplate⟩, cmds, hcmds⟩

/-- A rule with a baked string has a row in one of the tables. -/
theorem exists_row_of_bakedStrings (h : RuleAccepted engine rule) (hne : bakedStrings rule ≠ []) :
    (exactRow rule).isSome ∨ (patternRow rule).isSome ∨ (globRow rule).isSome := by
  rw [← isBakedIn_exact, ← isBakedIn_number h, ← isBakedIn_glob]
  unfold bakedStrings at hne
  cases hphase : phaseOf rule <;> cases htemplate : rule.expand.forShell .bash <;>
    cases hcmds : bashCommands rule <;> simp_all [isBakedIn]

theorem table_carries_iff {phase : Phase} {row : Abbr → Option (List Text)} {n : ℕ}
    {R : Abbr → List Text → Prop} {rules : List Abbr}
    (hbaked : ∀ rule ∈ rules, isBakedIn phase rule = (row rule).isSome) :
    List.Forall₂ R (rules.filter (isBakedIn phase))
        (((rules.filterMap row).map rowValue).map (readFields unitSeparator n)) ↔
      ∀ rule ∈ rules, ∀ fields, row rule = some fields →
        R rule (readFields unitSeparator n (rowValue fields)) := by
  rw [List.map_map]
  exact forall₂_filter_filterMap hbaked

/-- The tables carry the rules when every row carries its own. -/
theorem tablesCarryRules_iff_rows {config : Config} (haccepted : Accepted engine config) :
    TablesCarryRules config ↔
      (∀ rule ∈ config.abbr, ∀ fields, exactRow rule = some fields →
        ExactRow rule (readFields unitSeparator 3 (rowValue fields))) ∧
      (∀ rule ∈ config.abbr, ∀ fields, patternRow rule = some fields →
        NumberRow rule (readFields unitSeparator 5 (rowValue fields))) ∧
      ∀ rule ∈ config.abbr, ∀ fields, globRow rule = some fields →
        GlobRow rule (readFields unitSeparator 5 (rowValue fields)) := by
  rw [← table_carries_iff fun rule _ => isBakedIn_exact rule,
    ← table_carries_iff fun rule hmem => isBakedIn_number (haccepted.rule hmem),
    ← table_carries_iff fun rule _ => isBakedIn_glob rule]
  unfold TablesCarryRules
  rw [readTables_dispatcher]
  constructor
  · rintro ⟨_, _, _, hread, hcarries⟩
    simp only [Option.some.injEq, Prod.mk.injEq] at hread
    obtain ⟨rfl, rfl, rfl⟩ := hread
    exact hcarries
  · exact fun hcarries => ⟨_, _, _, rfl, hcarries⟩

/-- Strings without a line separator come out of the tables as they went in. -/
theorem tablesCarryRules_of_oneLine {config : Config} (haccepted : Accepted engine config)
    (h : ∀ rule ∈ config.abbr, ∀ s ∈ bakedStrings rule, OneLine s) : TablesCarryRules config := by
  have hrules : ∀ rule ∈ config.abbr, RuleAccepted engine rule := fun _ hmem => haccepted.rule hmem
  rw [tablesCarryRules_iff_rows haccepted]
  exact ⟨fun rule hmem fields hrow => (exactRow_carries_iff (hrules rule hmem) hrow).mpr (h rule hmem),
    fun rule hmem fields hrow => (patternRow_carries_iff (hrules rule hmem) hrow).mpr (h rule hmem),
    fun rule hmem fields hrow => (globRow_carries_iff (hrules rule hmem) hrow).mpr (h rule hmem)⟩

/-- The tables carry the rules exactly when no string they carry has a line separator. -/
theorem tables_carry_rules_iff (engine : RegexLite) (config : Config)
    (haccepted : Accepted engine config) :
    TablesCarryRules config ↔ ∀ rule ∈ config.abbr, ∀ s ∈ bakedStrings rule, OneLine s := by
  refine ⟨fun hcarries => ?_, tablesCarryRules_of_oneLine haccepted⟩
  obtain ⟨hexact, hpattern, hglob⟩ := (tablesCarryRules_iff_rows haccepted).mp hcarries
  intro rule hmem s hs
  have haccept := haccepted.rule hmem
  rcases exists_row_of_bakedStrings haccept (List.ne_nil_of_mem hs) with hrow | hrow | hrow <;>
    obtain ⟨fields, hrow⟩ := Option.isSome_iff_exists.mp hrow
  · exact (exactRow_carries_iff haccept hrow).mp (hexact rule hmem fields hrow) s hs
  · exact (patternRow_carries_iff haccept hrow).mp (hpattern rule hmem fields hrow) s hs
  · exact (globRow_carries_iff haccept hrow).mp (hglob rule hmem fields hrow) s hs

/-- One exact rule with this expansion. -/
def oneRuleConfig (template : Text) : Config where
  version := 1
  abbr := [{ key := "x".toList, expand := .all template }]

/-- A plain expansion comes out of the tables as it went in. -/
theorem tables_carry_rules_plain : TablesCarryRules (oneRuleConfig "echo ab".toList) :=
  (tables_carry_rules_iff default _ (accepted_iff.mpr ⟨rfl, by decide, by decide +kernel⟩)).mpr
    (by decide +kernel)

/-- A line separator in an expansion is accepted and does not reach the table. -/
theorem tables_drop_line_separator :
    ¬ ∀ (engine : RegexLite) (config : Config), Accepted engine config →
      TablesCarryRules config := by
  intro h
  have haccepted : Accepted default (oneRuleConfig "echo a\u2028b".toList) :=
    accepted_iff.mpr ⟨rfl, by decide, by decide +kernel⟩
  obtain ⟨hexact, -, -⟩ := (tablesCarryRules_iff_rows haccepted).mp (h default _ haccepted)
  have hmem : (⟨"x".toList, .all "echo a\u2028b".toList, none, none, none⟩ : Abbr) ∈
    (oneRuleConfig "echo a\u2028b".toList).abbr := List.mem_singleton_self _
  have hcarries := hexact _ hmem _ rfl
  have honeLine := (exactRow_carries_iff (haccepted.rule hmem) rfl).mp hcarries
  exact absurd honeLine (by decide +kernel)

end Runex
