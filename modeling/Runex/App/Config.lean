import Runex.Domain.Expand
import Runex.Lib.Visitor

/-!
# Validation of a configuration

Every check `parse_config` makes, in the order it makes them. The walks hand each issue to a
visitor, which may stop the walk: they are written over an arbitrary monad, and the program's
`FnMut(ValidationIssue) -> ControlFlow<()>` is the monad `Visit` of a mutable state and a break.

## Main definitions

- `ValidationReason`, `ValidationIssue`, `ConfigError` — what can be wrong with a configuration
- `checkAbbrKey`, `checkExpandValue`, `checkCmdEntry`, `checkNumberUnit` — checks of one string
- `visitValidationIssues` — the walk over all issues
- `collectValidationIssues`, `firstValidationError` — its two visitors
- `firstKeybindError` — the separate check of the key bindings
- `parseConfig` — a configuration that passes every check
-/

namespace Runex

open Search
open Text (byteLen isBlank isAsciiControl)

def maxAbbrRules : ℕ := 10000

def maxKeyBytes : ℕ := 1024

def maxExpandBytes : ℕ := 4096

def maxCmdBytes : ℕ := 255

def maxCmdListLen : ℕ := 64

/-- Upper bound on the `number` unit: 128 repeats of it reach the expansion cap exactly. -/
def maxNumberUnitBytes : ℕ := 32

/-- Reason a validation check failed. -/
inductive ValidationReason where
  | tooManyRules
  | keyEmpty
  | keyWhitespaceOnly
  | keyTooLong
  | keyContainsNul
  | keyContainsControlChar
  | keyContainsDeceptiveUnicode
  | expandEmpty
  | expandWhitespaceOnly
  | expandTooLong
  | expandContainsNul
  | expandContainsControlChar
  | expandContainsDeceptiveUnicode
  | tooManyCmds
  | cmdEmpty
  | cmdWhitespaceOnly
  | cmdTooLong
  | cmdContainsNul
  | cmdContainsControlChar
  | cmdContainsDeceptiveUnicode
  | cmdContainsPathSeparator
  | cmdContainsMetacharacter
  | keyHasUnknownPlaceholder
  | keyHasMultipleNumberPlaceholders
  | keyHasNumberWithoutUnit
  | numberFieldWithoutKeyPlaceholder
  | numberEmpty
  | numberContainsNul
  | numberContainsControlChar
  | numberContainsDeceptiveUnicode
  | numberUnitTooLong
  | globKeyWithoutWildcard
  | globKeyHasMultipleStars
  | globKeyHasUnsupportedChar
  /-- Carries the engine's error text, sanitized for display. -/
  | regexKeyInvalid (engineText : Text)
  | regexExpandGroupOutOfRange
  deriving DecidableEq, Repr

/-- A single validation failure. Rule numbers and array indices in a field path are 1-based. -/
inductive ValidationIssue where
  | config (reason : ValidationReason)
  | rule (ruleIndex : ℕ) (fieldPath : Text) (reason : ValidationReason)
  deriving DecidableEq, Repr

/-- The error of a configuration. The variants `ConfigError` has for the validation reasons of a
    rule are one variant here, which carries the reason and the rule number. -/
inductive ConfigError where
  | parse (message : Text)
  | io (message : Text)
  | fileTooLarge
  | tooManyRules
  | unsupportedVersion (version : ℕ)
  | rule (reason : ValidationReason) (n : ℕ)
  | ctrlVAsTrigger (label : Text)
  | ctrlVAsSelfInsert (label : Text)
  | pasteInterceptUnsupportedShell (label : Text)
  | pasteInterceptInvalidKey (label key : Text)
  deriving DecidableEq, Repr

/-- `to_config_error`: the first failure as an error; only `TooManyRules` has no rule number. -/
def ValidationIssue.toConfigError (issue : ValidationIssue) : ConfigError :=
  let (reason, n) := match issue with
    | .config reason => (reason, 0)
    | .rule ruleIndex _ reason => (reason, ruleIndex)
  match reason with
  | .tooManyRules => .tooManyRules
  | reason => .rule reason n

/-- The first reason whose test holds. -/
def firstReason (tests : List (Bool × ValidationReason)) : Option ValidationReason :=
  (tests.find? Prod.fst).map Prod.snd

/-- Validate the `key` of a rule. -/
def checkAbbrKey (key : Text) : Option ValidationReason :=
  firstReason [
    (key.isEmpty, .keyEmpty),
    (isBlank key, .keyWhitespaceOnly),
    (byteLen key > maxKeyBytes, .keyTooLong),
    ('\x00' ∈ key, .keyContainsNul),
    (key.any isAsciiControl, .keyContainsControlChar),
    (key.any isDeceptiveUnicode, .keyContainsDeceptiveUnicode)]

/-- Validate a single expand string. -/
def checkExpandValue (expand : Text) : Option ValidationReason :=
  firstReason [
    (expand.isEmpty, .expandEmpty),
    (isBlank expand, .expandWhitespaceOnly),
    (byteLen expand > maxExpandBytes, .expandTooLong),
    ('\x00' ∈ expand, .expandContainsNul),
    (expand.any isAsciiControl, .expandContainsControlChar),
    (expand.any isDeceptiveUnicode, .expandContainsDeceptiveUnicode)]

/-- Shell and `cmd.exe` metacharacters, white space, glob characters and the delimiters of the
    precache protocol. -/
def metachars : List Char := "&|;<>`$()\x7b\x7d'\"%^ \t*?[],=!#~".toList

/-- Validate a single `when_command_exists` entry: only bare command names are allowed. -/
def checkCmdEntry (cmd : Text) : Option ValidationReason :=
  firstReason [
    (cmd.isEmpty, .cmdEmpty),
    (isBlank cmd, .cmdWhitespaceOnly),
    (byteLen cmd > maxCmdBytes, .cmdTooLong),
    ('\x00' ∈ cmd, .cmdContainsNul),
    (cmd.any isAsciiControl, .cmdContainsControlChar),
    (cmd.any isDeceptiveUnicode, .cmdContainsDeceptiveUnicode),
    ('/' ∈ cmd ∨ '\\' ∈ cmd ∨ ':' ∈ cmd, .cmdContainsPathSeparator),
    (cmd.any (· ∈ metachars), .cmdContainsMetacharacter)]

/-- Validate the `number` repetition unit. -/
def checkNumberUnit (unit : Text) : Option ValidationReason :=
  firstReason [
    (unit.isEmpty, .numberEmpty),
    (byteLen unit > maxNumberUnitBytes, .numberUnitTooLong),
    ('\x00' ∈ unit, .numberContainsNul),
    (unit.any isAsciiControl, .numberContainsControlChar),
    (unit.any isDeceptiveUnicode, .numberContainsDeceptiveUnicode)]

/-- `PER_SHELL_LABELS`, in the order of `PerShell.allValues`. -/
def perShellLabels : List Text :=
  ["default".toList, "bash".toList, "zsh".toList, "pwsh".toList, "nu".toList]

/-- The values of a per-shell field with their labels; a uniform value has none. -/
def PerShell.variants {α : Type} : PerShell α → List (Option Text × α)
  | .all v => [(none, v)]
  | .byShell default bash zsh pwsh nu =>
    (perShellLabels.zip [default, bash, zsh, pwsh, nu]).filterMap fun (label, value) =>
      value.map fun v => (some label, v)

/-- `field`, or `field.label`. -/
def fieldPath (field : Text) : Option Text → Text
  | none => field
  | some label => field ++ '.' :: label

/-- Characters a glob key must not contain. -/
def globKeyForbiddenChars : List Char := ['[', ']', '{', '}', '(', ')', '\\']

/-- `{n}`. -/
def groupPlaceholder (n : ℕ) : Text := '{' :: (decimal n ++ ['}'])

/-- Whether `template` contains a `{N}` (1..9) above `groupCount`. -/
def refersToMissingRegexGroup (template : Text) (groupCount : ℕ) : Bool :=
  (List.range' (groupCount + 1) (9 - groupCount)).any fun n => groupPlaceholder n <:+: template

section Walks

variable {m : Type → Type} [Monad m]

/-- Report one failed check. -/
def reportSome (reason : Option ValidationReason) (report : ValidationReason → m Unit) : m Unit :=
  match reason with
  | some reason => report reason
  | none => pure ()

/-- Report a failed test. -/
def reportIf (test : Prop) [Decidable test] (report : m Unit) : m Unit :=
  if test then report else pure ()

def walkExpandIssues (expand : PerShellString) (ruleIndex : ℕ) (f : ValidationIssue → m Unit) :
    m Unit :=
  expand.variants.forM fun (label, s) =>
    reportSome (checkExpandValue s) fun reason =>
      f (.rule ruleIndex (fieldPath "expand".toList label) reason)

/-- The list-level check comes before the entries, and an oversize list has no entry walk. -/
def walkCmdsIssues (cmds : PerShellCmds) (ruleIndex : ℕ) (f : ValidationIssue → m Unit) : m Unit :=
  cmds.variants.forM fun (label, list) =>
    let path := fieldPath "when_command_exists".toList label
    if list.length > maxCmdListLen then f (.rule ruleIndex path .tooManyCmds)
    else list.zipIdx.forM fun (cmd, j) =>
      reportSome (checkCmdEntry cmd) fun reason =>
        f (.rule ruleIndex (path ++ '[' :: (decimal (j + 1) ++ [']'])) reason)

/-- Validate a glob key: only `*` and `?` are special, at most one `*`, at least one wildcard. -/
def walkGlobKeyIssues (abbr : Abbr) (ruleIndex : ℕ) (f : ValidationIssue → m Unit) : m Unit :=
  if abbr.matchKind ≠ some .glob then pure ()
  else do
    let report := fun reason => f (.rule ruleIndex "key".toList reason)
    reportIf (abbr.key.any (· ∈ globKeyForbiddenChars)) (report .globKeyHasUnsupportedChar)
    reportIf (abbr.key.count '*' > 1) (report .globKeyHasMultipleStars)
    reportIf (¬ abbr.key.any (· ∈ ['*', '?'])) (report .globKeyWithoutWildcard)

/-- Validate a regex rule: the key compiles, and `expand` names only groups it has. -/
def walkRegexKeyIssues (engine : RegexLite) (abbr : Abbr) (ruleIndex : ℕ)
    (f : ValidationIssue → m Unit) : m Unit :=
  if abbr.matchKind ≠ some .regex then pure ()
  else
    match regexKeyGroupCount engine abbr.key with
    | .error error => f (.rule ruleIndex "key".toList (.regexKeyInvalid (sanitizeForDisplay error)))
    | .ok groupCount =>
      abbr.expand.variants.forM fun (label, template) =>
        reportIf (refersToMissingRegexGroup template groupCount)
          (f (.rule ruleIndex (fieldPath "expand".toList label) .regexExpandGroupOutOfRange))

/-- Whether the braces of the key are read as `{number}`: not in a regex key. -/
def hasBrace (abbr : Abbr) : Bool := abbr.matchKind != some .regex && '{' ∈ abbr.key

/-- The `{number}`s of a key whose braces are read so. -/
def numberCount (abbr : Abbr) : ℕ :=
  if hasBrace abbr then countMatches numberPlaceholder abbr.key else 0

/-- Validate the cross-field invariants of `{number}`. -/
def walkNumberPlaceholderIssues (abbr : Abbr) (ruleIndex : ℕ) (f : ValidationIssue → m Unit) :
    m Unit := do
  reportIf (hasBrace abbr) do
    reportIf ('{' ∈ replaceAll numberPlaceholder [] abbr.key)
      (f (.rule ruleIndex "key".toList .keyHasUnknownPlaceholder))
    reportIf (numberCount abbr > 1)
      (f (.rule ruleIndex "key".toList .keyHasMultipleNumberPlaceholders))
  reportIf (numberCount abbr ≥ 1 ∧ abbr.number = none)
    (f (.rule ruleIndex "key".toList .keyHasNumberWithoutUnit))
  reportIf (abbr.number ≠ none ∧ numberCount abbr = 0)
    (f (.rule ruleIndex "number".toList .numberFieldWithoutKeyPlaceholder))
  reportSome (abbr.number.bind checkNumberUnit) fun reason =>
    f (.rule ruleIndex "number".toList reason)

/-- The issues of one rule, in the order `parse_config` reports them. -/
def walkRuleIssues (engine : RegexLite) (abbr : Abbr) (ruleIndex : ℕ)
    (f : ValidationIssue → m Unit) : m Unit := do
  reportSome (checkAbbrKey abbr.key) fun reason => f (.rule ruleIndex "key".toList reason)
  walkExpandIssues abbr.expand ruleIndex f
  match abbr.whenCommandExists with
  | some cmds => walkCmdsIssues cmds ruleIndex f
  | none => pure ()
  walkGlobKeyIssues abbr ruleIndex f
  walkRegexKeyIssues engine abbr ruleIndex f
  walkNumberPlaceholderIssues abbr ruleIndex f

/-- Visit every validation issue of the configuration. -/
def visitValidationIssues (engine : RegexLite) (config : Config) (f : ValidationIssue → m Unit) :
    m Unit :=
  if config.abbr.length > maxAbbrRules then f (.config .tooManyRules)
  else config.abbr.zipIdx.forM fun (abbr, i) => walkRuleIssues engine abbr (i + 1) f

end Walks

/-- Collect every validation issue. -/
def collectValidationIssues (engine : RegexLite) (config : Config) : List ValidationIssue :=
  (visitValidationIssues engine config Visit.collect).finish []

/-- The first validation error: record it and break. -/
def firstValidationError (engine : RegexLite) (config : Config) : Option ConfigError :=
  (visitValidationIssues engine config fun issue => Visit.first issue.toConfigError).finish none

/-- The fields of a keybind table with their labels. -/
def PerShellKey.labelled (key : PerShellKey) : List (Text × Option TriggerKey) :=
  perShellLabels.zip [key.default, key.bash, key.zsh, key.pwsh, key.nu]

/-- The spelling of a key in the configuration. -/
def TriggerKey.spelling : TriggerKey → Text
  | .space => "space".toList
  | .tab => "tab".toList
  | .altSpace => "alt-space".toList
  | .shiftSpace => "shift-space".toList
  | .ctrlV => "ctrl-v".toList

/-- Key bindings that deserialize but mean nothing: `ctrl-v` outside `paste_intercept`, and a
    `paste_intercept` for another shell than nu or with another key. -/
def firstKeybindError (config : Config) : Option ConfigError :=
  let keybind := config.keybind
  let ctrlV := fun (error : Text → ConfigError) (table : PerShellKey) =>
    table.labelled.findSome? fun (label, value) =>
      if value = some .ctrlV then some (error label) else none
  let unsupported := (keybind.pasteIntercept.labelled.take 4).findSome? fun (label, value) =>
    if value.isSome then some (ConfigError.pasteInterceptUnsupportedShell label) else none
  let invalid := match keybind.pasteIntercept.nu with
    | some key =>
      if key ≠ .ctrlV then some (.pasteInterceptInvalidKey "nu".toList key.spelling) else none
    | none => none
  (ctrlV .ctrlVAsTrigger keybind.trigger).orElse fun _ =>
    (ctrlV .ctrlVAsSelfInsert keybind.selfInsert).orElse fun _ =>
      unsupported.orElse fun _ => invalid

/-- Deserialize without validation. `fromStr` is `toml::from_str::<Config>`. -/
def parseConfigLenient (fromStr : Text → Except Text Config) (s : Text) :
    Except ConfigError Config := do
  let config ← (fromStr s).mapError ConfigError.parse
  if config.version ≠ 1 then throw (.unsupportedVersion config.version)
  return config

/-- Deserialize and validate. -/
def parseConfig (engine : RegexLite) (fromStr : Text → Except Text Config) (s : Text) :
    Except ConfigError Config := do
  let config ← parseConfigLenient fromStr s
  if let some error := firstKeybindError config then throw error
  if let some error := firstValidationError engine config then throw error
  return config

end Runex
