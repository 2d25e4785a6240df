import Runex.Cmd.Timings
import Runex.Domain.Expand.Which
import Runex.Domain.Sanitize.Display
import Runex.Lib.Lines.Split

/-!
# The `which` subcommand

What is printed about a token.

## Main definitions

- `HashOrder` — the order in which a set of texts is gone through
- `formatWhichResult` — the text of a result
- `handleWhich` — what is printed

## Main results

- `formatWhichResult_eq` — the text, line by line
- `which_output` — a line for everything that is said, and nothing that is unsafe to print
-/

namespace Runex

open Text (byteLen)

/-- The order in which a hash set is gone through: some order of its elements. -/
structure HashOrder where
  order : List Text → List Text
  perm : ∀ texts, (order texts).Perm texts

/-- From the last element to the first. -/
def HashOrder.reversed : HashOrder := ⟨List.reverse, List.reverse_perm⟩

/-- The line about a skipped rule, without the line break before it. -/
def skipReasonLine (i : ℕ) : SkipReason → Text
  | .selfLoop =>
    "  rule #".toList ++ (decimal (i + 1) ++ " skipped: key == expand (self-loop)".toList)
  | .conditionFailed foundCommands missingCommands =>
    let parts := foundCommands.map (fun cmd => sanitizeForDisplay cmd ++ ": found".toList) ++
      missingCommands.map fun cmd => sanitizeForDisplay cmd ++ ": NOT FOUND".toList
    "  rule #".toList ++ (decimal (i + 1) ++ (" skipped: when_command_exists [".toList ++
      (", ".toList.intercalate parts ++ [']'])))
  | .noShellEntry =>
    "  rule #".toList ++
      (decimal (i + 1) ++ " skipped: no expand entry for current shell".toList)
  | .blankExpansion =>
    "  rule #".toList ++
      (decimal (i + 1) ++ " skipped: expand is blank once \x7b\x7d is removed".toList)

def formatSkipReason (i : ℕ) (reason : SkipReason) (why : Bool) : Text :=
  if !why then [] else '\n' :: skipReasonLine i reason

def SkipReason.missing : SkipReason → List Text
  | .conditionFailed _ missingCommands => missingCommands.map sanitizeForDisplay
  | _ => []

def collectAllMissingCommands (hash : HashOrder) (skipped : List (ℕ × SkipReason)) : List Text :=
  hash.order (skipped.flatMap fun entry => entry.2.missing).dedup

/-- `matches!(r, SkipReason::ConditionFailed { .. })`. -/
def SkipReason.isConditionFailed : SkipReason → Bool
  | .conditionFailed _ _ => true
  | _ => false

/-- Why every rule was skipped. A blank expansion has no text of its own. -/
def formatAllSkippedHeadline (hash : HashOrder) (token : Text)
    (skipped : List (ℕ × SkipReason)) : Text :=
  let hasConditionFail := skipped.any fun entry => entry.2.isConditionFailed
  let hasSelfLoop := skipped.any fun entry => entry.2 = .selfLoop
  let hasNoShellEntry := skipped.any fun entry => entry.2 = .noShellEntry
  match hasConditionFail, hasSelfLoop, hasNoShellEntry with
  | true, _, _ =>
    let allMissing := collectAllMissingCommands hash skipped
    if allMissing = [] then token ++ "  [skipped: condition failed]".toList
    else token ++ ("  [skipped: ".toList ++
      (", ".toList.intercalate allMissing ++ " not found]".toList))
  | false, true, false => token ++ "  [no-op: key and expansion are identical]".toList
  | false, false, true => token ++ "  [skipped: no entry for current shell]".toList
  | false, true, true => token ++ "  [skipped: self-loop or no entry for current shell]".toList
  | false, false, false => token ++ ": no rule found".toList

/-- The line about a command of the rule that matched. -/
def conditionLine (cmd : Text) : Text :=
  "  condition: when_command_exists '".toList ++
    (sanitizeForDisplay cmd ++ "' -> found".toList)

def formatWhichResult (hash : HashOrder) (result : WhichResult) (why : Bool) : Text :=
  match result with
  | .expanded key expansion ruleIndex satisfiedConditions skipped =>
    (sanitizeForDisplay key ++ ("  ->  ".toList ++ sanitizeForDisplay expansion)) ++
    if why then
      (skipped.flatMap fun entry => formatSkipReason entry.1 entry.2 true) ++
      ('\n' :: ("  rule #".toList ++ (decimal (ruleIndex + 1) ++ " matched".toList)) ++
      if satisfiedConditions = [] then ", no conditions".toList
      else satisfiedConditions.flatMap fun cmd => '\n' :: conditionLine cmd)
    else []
  | .allSkipped token skipped =>
    formatAllSkippedHeadline hash (sanitizeForDisplay token) skipped ++
    if why then skipped.flatMap fun entry => formatSkipReason entry.1 entry.2 true else []
  | .noMatch token => sanitizeForDisplay token ++ ": no rule found".toList

/-- What is printed, and the exit code; `none` is a panic. `toJson` is the printer of `--json`. -/
def handleWhich (engine : RegexLite) (hash : HashOrder) (toJson : WhichResult → Text)
    (config : Config) (token : Text) (shell : Shell) (commandExists : Text → Bool)
    (json why : Bool) : Option (Text × ℕ) :=
  if byteLen token > maxTokenBytes then some ([], 1)
  else (whichAbbr engine config token shell commandExists).map fun result =>
    ((if json then toJson result else formatWhichResult hash result why) ++ ['\n'], 0)

variable {hash : HashOrder} {skipped : List (ℕ × SkipReason)} {why : Bool}

-- ════════════════════════════════════════════════════════════════════════
-- Line by line
-- ════════════════════════════════════════════════════════════════════════

/-- The lines about a rule that matched. -/
def matchedLines (ruleIndex : ℕ) (satisfied : List Text) : List Text :=
  (("  rule #".toList ++ (decimal (ruleIndex + 1) ++ " matched".toList)) ++
    if satisfied = [] then ", no conditions".toList else []) :: satisfied.map conditionLine

def skippedLines (skipped : List (ℕ × SkipReason)) : List Text :=
  skipped.map fun entry => skipReasonLine entry.1 entry.2

/-- The first line. -/
def whichHeadline (hash : HashOrder) : WhichResult → Text
  | .expanded key expansion _ _ _ =>
    sanitizeForDisplay key ++ ("  ->  ".toList ++ sanitizeForDisplay expansion)
  | .allSkipped token skipped => formatAllSkippedHeadline hash (sanitizeForDisplay token) skipped
  | .noMatch token => sanitizeForDisplay token ++ ": no rule found".toList

/-- The lines that say why: one for each rule that was skipped, and for the one that matched one
    more than it has conditions. -/
def whyLines : WhichResult → List Text
  | .expanded _ _ ruleIndex satisfied skipped =>
    skippedLines skipped ++ matchedLines ruleIndex satisfied
  | .allSkipped _ skipped => skippedLines skipped
  | .noMatch _ => []

theorem flatMap_formatSkipReason (skipped : List (ℕ × SkipReason)) :
    (skipped.flatMap fun entry => formatSkipReason entry.1 entry.2 true) =
      (skippedLines skipped).flatMap ('\n' :: ·) := by
  rw [skippedLines, List.flatMap_map]
  rfl

/-- The text is its lines, with a line break before each but the first. -/
theorem formatWhichResult_eq (hash : HashOrder) (result : WhichResult) (why : Bool) :
    formatWhichResult hash result why =
      whichHeadline hash result ++ (if why then whyLines result else []).flatMap ('\n' :: ·) := by
  cases why with
  | false =>
    cases result with
    | noMatch token => exact (List.append_nil _).symm
    | expanded | allSkipped => rfl
  | true =>
    cases result with
    | noMatch token => exact (List.append_nil _).symm
    | allSkipped token skipped =>
      exact congrArg (_ ++ ·) (flatMap_formatSkipReason skipped)
    | expanded key expansion ruleIndex satisfied skipped =>
      have hmatched : ('\n' :: ("  rule #".toList ++
          (decimal (ruleIndex + 1) ++ " matched".toList)) ++
          if satisfied = [] then ", no conditions".toList
          else satisfied.flatMap fun cmd => '\n' :: conditionLine cmd) =
          (matchedLines ruleIndex satisfied).flatMap ('\n' :: ·) := by
        rw [matchedLines, List.flatMap_cons, List.flatMap_map]
        by_cases hnone : satisfied = []
        · rw [if_pos hnone, if_pos hnone, hnone]
          exact (List.append_nil _).symm
        · rw [if_neg hnone, if_neg hnone, List.append_nil]
      have hlines : (whyLines (.expanded key expansion ruleIndex satisfied skipped)).flatMap
          ('\n' :: ·) = (skipped.flatMap fun entry => formatSkipReason entry.1 entry.2 true) ++
            (matchedLines ruleIndex satisfied).flatMap ('\n' :: ·) := by
        rw [flatMap_formatSkipReason]
        exact List.flatMap_append
      rw [if_pos rfl, hlines, ← hmatched]
      rfl

-- ════════════════════════════════════════════════════════════════════════
-- What is safe to print
-- ════════════════════════════════════════════════════════════════════════

theorem isShown_intercalate {parts : List Text} (h : ∀ part ∈ parts, isShown part = true) :
    isShown (", ".toList.intercalate parts) = true := by
  induction parts with
  | nil => rfl
  | cons part parts ih =>
    rw [List.forall_mem_cons] at h
    cases parts with
    | nil =>
      rw [List.intercalate_singleton]
      exact h.1
    | cons next parts =>
      rw [List.intercalate_cons_cons]
      exact isShown_append.mpr ⟨isShown_append.mpr ⟨h.1, isShown_literal (by decide)⟩, ih h.2⟩

theorem isShown_skipReasonLine (i : ℕ) (reason : SkipReason) :
    isShown (skipReasonLine i reason) = true := by
  have hrule : isShown "  rule #".toList = true := isShown_literal (by decide)
  cases reason with
  | selfLoop | noShellEntry | blankExpansion =>
    refine isShown_append.mpr ⟨hrule, isShown_append.mpr ⟨isShown_decimal _, ?_⟩⟩
    exact isShown_literal (by decide)
  | conditionFailed found missing =>
    refine isShown_append.mpr ⟨hrule, isShown_append.mpr ⟨isShown_decimal _, ?_⟩⟩
    refine isShown_append.mpr ⟨isShown_literal (by decide), isShown_append.mpr ⟨?_, ?_⟩⟩
    · refine isShown_intercalate fun part hmem => ?_
      rcases List.mem_append.mp hmem with hmem | hmem <;>
      · obtain ⟨cmd, -, rfl⟩ := List.mem_map.mp hmem
        exact isShown_append.mpr ⟨isShown_sanitizeForDisplay cmd, isShown_literal (by decide)⟩
    · exact isShown_singleton (by decide)

theorem isShown_formatAllSkippedHeadline {token : Text} (htoken : isShown token = true) :
    isShown (formatAllSkippedHeadline hash token skipped) = true := by
  have hmissing : ∀ cmd ∈ collectAllMissingCommands hash skipped, isShown cmd = true := by
    intro cmd hmem
    rw [collectAllMissingCommands, (hash.perm _).mem_iff, List.mem_dedup, List.mem_flatMap] at hmem
    obtain ⟨⟨i, reason⟩, -, hcmd⟩ := hmem
    cases reason with
    | conditionFailed found missing =>
      obtain ⟨c, -, rfl⟩ := List.mem_map.mp hcmd
      exact isShown_sanitizeForDisplay c
    | selfLoop | noShellEntry | blankExpansion => cases hcmd
  rw [formatAllSkippedHeadline]
  dsimp only
  split
  · split
    · exact isShown_append.mpr ⟨htoken, isShown_literal (by decide)⟩
    · refine isShown_append.mpr ⟨htoken, isShown_append.mpr ⟨isShown_literal (by decide), ?_⟩⟩
      exact isShown_append.mpr ⟨isShown_intercalate hmissing, isShown_literal (by decide)⟩
  all_goals exact isShown_append.mpr ⟨htoken, isShown_literal (by decide)⟩

theorem isShown_whichHeadline (hash : HashOrder) (result : WhichResult) :
    isShown (whichHeadline hash result) = true := by
  cases result with
  | expanded key expansion ruleIndex satisfied skipped =>
    refine isShown_append.mpr ⟨isShown_sanitizeForDisplay key, ?_⟩
    exact isShown_append.mpr ⟨isShown_literal (by decide), isShown_sanitizeForDisplay expansion⟩
  | allSkipped token skipped =>
    exact isShown_formatAllSkippedHeadline (isShown_sanitizeForDisplay token)
  | noMatch token =>
    exact isShown_append.mpr ⟨isShown_sanitizeForDisplay token, isShown_literal (by decide)⟩

theorem isShown_whyLines {result : WhichResult} {line : Text} (h : line ∈ whyLines result) :
    isShown line = true := by
  have hskipped : ∀ skipped : List (ℕ × SkipReason), line ∈ skippedLines skipped →
      isShown line = true := by
    intro skipped hmem
    obtain ⟨entry, -, rfl⟩ := List.mem_map.mp hmem
    exact isShown_skipReasonLine _ _
  cases result with
  | noMatch token => cases h
  | allSkipped token skipped => exact hskipped skipped h
  | expanded key expansion ruleIndex satisfied skipped =>
    rcases List.mem_append.mp h with hmem | hmem
    · exact hskipped skipped hmem
    rcases List.mem_cons.mp hmem with rfl | hmem
    · refine isShown_append.mpr ⟨?_, ?_⟩
      · refine isShown_append.mpr ⟨isShown_literal (by decide), ?_⟩
        exact isShown_append.mpr ⟨isShown_decimal _, isShown_literal (by decide)⟩
      · split
        · exact isShown_literal (by decide)
        · rfl
    · obtain ⟨cmd, -, rfl⟩ := List.mem_map.mp hmem
      refine isShown_append.mpr ⟨isShown_literal (by decide), ?_⟩
      exact isShown_append.mpr ⟨isShown_sanitizeForDisplay cmd, isShown_literal (by decide)⟩

/-- Lines that are safe to print are read back. -/
theorem lines_of_isShown {first : Text} {rest : List Text} (hfirst : isShown first = true)
    (hrest : ∀ line ∈ rest, isShown line = true) :
    Text.lines (first ++ rest.flatMap ('\n' :: ·) ++ ['\n']) = first :: rest := by
  have hkept : ∀ line : Text, isShown line = true → Text.stripCr line = line := fun line hline =>
    Text.stripCr_eq_self fun hmem =>
      absurd (List.all_eq_true.mp hline _ hmem) (by decide)
  induction rest generalizing first with
  | nil =>
    rw [List.flatMap_nil, List.append_nil,
      Text.lines_append_cons (newline_not_mem_of_isShown hfirst), hkept first hfirst]
    rfl
  | cons line rest ih =>
    rw [List.forall_mem_cons] at hrest
    rw [List.flatMap_cons, List.cons_append, List.append_assoc, List.cons_append,
      Text.lines_append_cons (newline_not_mem_of_isShown hfirst), hkept first hfirst,
      ih hrest.1 hrest.2]

/-- What `which` finds: it does not panic, and explains all matching rules where none expands. -/
theorem exists_whichAbbr (engine : RegexLite) (config : Config) (token : Text) (shell : Shell)
    (commandExists : Text → Bool) :
    ∃ result, whichAbbr engine config token shell commandExists = some result ∧
      (expand engine config token shell commandExists = .passThrough token →
        (whyLines result).length = (matching engine token (rulesInPhaseOrder config)).length) := by
  rw [whichAbbr, expand_eq]
  rcases scan_cases engine token shell commandExists (rulesInPhaseOrder config) [] false with
    ⟨skipped, hexplains, -, hloop⟩ |
    ⟨before, i, abbr, after, bindings, template, text, cursor, commands, expansion, skipped,
      -, -, -, -, -, hfired, hloop⟩
  · refine ⟨_, hloop, fun _ => ?_⟩
    have hlength : skipped.length = (matching engine token (rulesInPhaseOrder config)).length :=
      hexplains.length_eq
    by_cases hnil : matching engine token (rulesInPhaseOrder config) = []
    · simp [hnil, whyLines]
    · simp [hnil, whyLines, skippedLines, hlength]
  · refine ⟨_, hloop, fun hpass => ?_⟩
    rw [hfired, Option.getD_some] at hpass
    cases hpass

/-- Whatever stands in the rules and in the token: `which` refuses an oversized token, and else
    prints a headline and, with `--why`, a line for each fact. Nothing in them is unsafe to print,
    and no text of the user makes a line. Where the token does not expand, the lines are one for
    each rule that matches it. -/
theorem which_output (engine : RegexLite) (hash : HashOrder) (toJson : WhichResult → Text)
    (config : Config) (token : Text) (shell : Shell) (commandExists : Text → Bool) (why : Bool) :
    byteLen token > maxTokenBytes ∧
        handleWhich engine hash toJson config token shell commandExists false why = some ([], 1) ∨
      ∃ result output, whichAbbr engine config token shell commandExists = some result ∧
        handleWhich engine hash toJson config token shell commandExists false why =
          some (output, 0) ∧
        Text.lines output = whichHeadline hash result :: (if why then whyLines result else []) ∧
        (∀ line ∈ Text.lines output, isShown line = true) ∧
        (expand engine config token shell commandExists = .passThrough token →
          (Text.lines output).length =
            1 + if why then (matching engine token (rulesInPhaseOrder config)).length else 0) := by
  by_cases hlong : byteLen token > maxTokenBytes
  · exact Or.inl ⟨hlong, if_pos hlong⟩
  right
  obtain ⟨result, hresult, hlength⟩ := exists_whichAbbr engine config token shell commandExists
  have hwhy : ∀ line ∈ (if why then whyLines result else []), isShown line = true := by
    intro line hmem
    split at hmem
    · exact isShown_whyLines hmem
    · cases hmem
  have hlines : Text.lines (formatWhichResult hash result why ++ ['\n']) =
      whichHeadline hash result :: if why then whyLines result else [] := by
    rw [formatWhichResult_eq]
    exact lines_of_isShown (isShown_whichHeadline hash result) hwhy
  refine ⟨result, formatWhichResult hash result why ++ ['\n'], hresult, ?_, hlines, ?_, ?_⟩
  · rw [handleWhich, if_neg hlong, hresult]
    rfl
  · rw [hlines, List.forall_mem_cons]
    exact ⟨isShown_whichHeadline hash result, hwhy⟩
  · intro hpass
    rw [hlines, List.length_cons, Nat.add_comm]
    cases why with
    | false => rfl
    | true => exact congrArg (1 + ·) (hlength hpass)

/-- One rule, for two commands. -/
def twoToolsConfig : Config where
  version := 1
  abbr := [{ key := "ll".toList, expand := .all "eza -l".toList,
             whenCommandExists := some (.all ["eza".toList, "git".toList]) }]

/-- Both commands are missing. The headline has them in the order of the hash set, the line below it
    in that of the rule. -/
theorem which_output_missing : ∃ output,
    handleWhich default .reversed (fun _ => []) twoToolsConfig "ll".toList .bash (fun _ => false)
      false true = some (output, 0) ∧
    Text.lines output =
      ["ll  [skipped: git, eza not found]".toList,
        ("  rule #1 skipped: when_command_exists " ++
          "[eza: NOT FOUND, git: NOT FOUND]").toList] := by
  obtain ⟨hlong, -⟩ | ⟨result, output, hresult, hprinted, hlines, -, -⟩ :=
    which_output default .reversed (fun _ => []) twoToolsConfig "ll".toList .bash (fun _ => false)
      true
  · exact absurd hlong (by decide)
  · have hskipped : whichAbbr default twoToolsConfig "ll".toList .bash (fun _ => false) =
        some (.allSkipped "ll".toList
          [(0, .conditionFailed [] ["eza".toList, "git".toList])]) := by
      decide +kernel
    obtain rfl := Option.some.inj (hresult.symm.trans hskipped)
    exact ⟨output, hprinted, hlines.trans (by decide +kernel)⟩

end Runex
