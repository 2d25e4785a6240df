import Runex.App.Config.Display
import Runex.App.Doctor.UnknownFields
import Runex.Domain.Sanitize.Display
import Runex.Infra.IntegrationCheck.RcFile

/-!
# The report of the doctor

The rows of the report.

## Main definitions

- `diagnose` — the rows about the environment and the rules
- `checkRejectedRules`, `checkPrecacheDeprecation` — the rows about the text of the configuration
- `isHealthy` — no row is an error
-/

namespace Runex

open FileSystem (Path)
open Toml

-- ════════════════════════════════════════════════════════════════════════
-- The environment
-- ════════════════════════════════════════════════════════════════════════

/-- How many entries of the search path come from where. -/
structure EffectiveSearchPathSummary where
  fromProcess : ℕ
  fromUserRegistry : ℕ
  fromSystemRegistry : ℕ

def EffectiveSearchPathSummary.total (s : EffectiveSearchPathSummary) : ℕ :=
  s.fromProcess + s.fromUserRegistry + s.fromSystemRegistry

def checkEffectiveSearchPath (s : EffectiveSearchPathSummary) : Check where
  name := "effective_search_path".toList
  status := if s.fromProcess = 0 then .warn else .ok
  detail := decimal s.total ++ (" entries (process=".toList ++ (decimal s.fromProcess ++
    (", +user=".toList ++ (decimal s.fromUserRegistry ++ (", +system=".toList ++
      (decimal s.fromSystemRegistry ++ [')']))))))

/-- The shells whose rc file is checked. -/
structure RcfileMarkerSelection where
  bash : Bool := false
  zsh : Bool := false
  pwsh : Bool := false
  nu : Bool := false

def RcfileMarkerSelection.all : RcfileMarkerSelection := ⟨true, true, true, true⟩

def RcfileMarkerSelection.shells (sel : RcfileMarkerSelection) : List Shell :=
  [(sel.bash, Shell.bash), (sel.zsh, .zsh), (sel.pwsh, .pwsh), (sel.nu, .nu)].filterMap
    fun (selected, shell) => if selected then some shell else none

structure DoctorEnvInfo where
  effectiveSearchPath : Option EffectiveSearchPathSummary := none
  clinkExportForDriftCheck : Option Text := none
  checkRcfileMarkers : RcfileMarkerSelection := {}

/-- What the checks look at, apart from the configuration. -/
structure Host where
  disk : Disk
  home : HomeDirs
  clink : ClinkDirs
  windows : Bool

/-- A stale or missing integration is no error. -/
def integrationCheckToCheck : IntegrationCheck → Check
  | .ok name detail => { name, status := .ok, detail }
  | .outdated name detail _ => { name, status := .warn, detail }
  | .missing name detail => { name, status := .warn, detail }
  | .skipped name detail => { name, status := .ok, detail }

def integrationMarkerChecks (host : Host) (sel : RcfileMarkerSelection) : List Check :=
  sel.shells.map fun shell =>
    integrationCheckToCheck (checkRcfileMarker host.disk shell host.home none)

def integrationCacheChecks (host : Host) (sel : RcfileMarkerSelection) : List Check :=
  sel.shells.map fun shell =>
    integrationCheckToCheck (checkCacheFreshness host.disk shell (xdgCacheHomeWith host.home))

-- ════════════════════════════════════════════════════════════════════════
-- The configuration
-- ════════════════════════════════════════════════════════════════════════

/-- `shown` is the path as it is displayed. -/
def checkConfigFile (shown : Text) (found : Bool) : Check where
  name := "config_file".toList
  status := if found then .ok else .error
  detail := (if found then "found: ".toList else "not found: ".toList) ++ sanitizeForDisplay shown

/-- What is said of a configuration that does not load, up to the error. -/
def failedToLoad : Text := "failed to load config".toList

/-- The detail, and the full one where it differs. -/
def configParseDetail (config : Option Config) (parseError : Option Text) : Text × Option Text :=
  match config, parseError with
  | some _, _ => ("config loaded successfully".toList, none)
  | none, some e =>
    let short := failedToLoad ++ (": ".toList ++ sanitizeForDisplay ((Text.lines e).head?.getD e))
    let full := failedToLoad ++ (": ".toList ++ sanitizeMultilineForDisplay e)
    (short, if full ≠ short then some full else none)
  | none, none => (failedToLoad, none)

def checkConfigParse (config : Option Config) (parseError : Option Text) : Check where
  name := "config_parse".toList
  status := if config.isSome then .ok else .error
  detail := (configParseDetail config parseError).1
  detailVerbose := (configParseDetail config parseError).2

/-- The row about a command, with the rule that asks for it. -/
def commandCheck (commandExists : Text → Bool) (cmd key : Text) : Check where
  name := "command:".toList ++ sanitizeForDisplay cmd
  status := if commandExists cmd then .ok else .warn
  detail := '\'' :: (sanitizeForDisplay cmd ++
    ((if commandExists cmd then "' found (required by '".toList
      else "' not found (required by '".toList) ++ (sanitizeForDisplay key ++ "')".toList)))

/-- The commands of the rules, each with the key of its rule, in the order of the loops. -/
def requiredCommands (config : Config) : List (Text × Text) :=
  config.abbr.flatMap fun abbr => abbr.whenCommandExists.toList.flatMap fun cmds =>
    cmds.allValues.flatMap fun cmdList => cmdList.map fun cmd => (cmd, abbr.key)

/-- The loop over the commands. One that has been seen has its row. -/
def commandChecksLoop (commandExists : Text → Bool) : List (Text × Text) → List Text → List Check
  | [], _ => []
  | (cmd, key) :: rest, seen =>
    if seen.contains cmd then commandChecksLoop commandExists rest seen
    else commandCheck commandExists cmd key :: commandChecksLoop commandExists rest (cmd :: seen)

def checkWhenCommandExists (config : Config) (commandExists : Text → Bool) : List Check :=
  commandChecksLoop commandExists (requiredCommands config) []

def shiftSpaceDetail : Text :=
  "self_insert = \"shift-space\" has no effect in bash/zsh ".toList ++
    "(Shift+Space is terminal-dependent); use \"alt-space\" for cross-shell support".toList

def checkKeybind (config : Config) : List Check :=
  let si := config.keybind.selfInsert
  if si.bash.or si.default = some .shiftSpace ∨ si.zsh.or si.default = some .shiftSpace then
    [{ name := "keybind.self_insert".toList, status := .warn, detail := shiftSpaceDetail }]
  else []

def checkRegexGitBash (config : Config) (windows : Bool) : Option Check :=
  let regexRules := config.abbr.countP fun abbr => abbr.matchKind == some .regex
  if windows ∧ regexRules > 0 then
    some {
      name := "abbr.regex_git_bash".toList
      status := .warn
      detail := decimal regexRules ++
        " regex rule(s) do not expand in Git Bash (bake mode); other shells are unaffected".toList }
  else none

/-- The rows after the one about the file and the one about its contents. -/
def diagnoseRest (engine : RegexLite) (host : Host) (config : Option Config)
    (envInfo : DoctorEnvInfo) (commandExists : Text → Bool) : List Check :=
  (envInfo.effectiveSearchPath.map checkEffectiveSearchPath).toList ++
  (integrationMarkerChecks host envInfo.checkRcfileMarkers ++
  (integrationCacheChecks host envInfo.checkRcfileMarkers ++
  ((envInfo.clinkExportForDriftCheck.map fun currentExport => integrationCheckToCheck
    (checkClinkLuaFreshness host.disk currentExport (defaultClinkLuaPaths host.clink))).toList ++
  config.toList.flatMap fun config =>
    checkKeybind config ++ (checkAbbrQuality engine config ++
      ((checkRegexGitBash config host.windows).toList ++
        checkWhenCommandExists config commandExists)))))

/-- `diagnose`. `shown` is the path of the configuration, and `found` whether it exists. -/
def diagnose (engine : RegexLite) (host : Host) (shown : Text) (found : Bool)
    (config : Option Config) (parseError : Option Text) (envInfo : DoctorEnvInfo)
    (commandExists : Text → Bool) : List Check :=
  checkConfigFile shown found :: checkConfigParse config parseError ::
    diagnoseRest engine host config envInfo commandExists

/-- `DiagResult::is_healthy`. -/
def isHealthy (checks : List Check) : Bool := checks.all fun check => check.status ≠ .error

-- ════════════════════════════════════════════════════════════════════════
-- The text of the configuration
-- ════════════════════════════════════════════════════════════════════════

/-- What `reason_text` says, without a rule number. -/
def ValidationReason.text : ValidationReason → Text
  | .tooManyRules => "config has too many abbr rules".toList
  | .keyEmpty => "key is empty".toList
  | .keyWhitespaceOnly => "key contains only whitespace".toList
  | .keyTooLong => "key exceeds the maximum length".toList
  | .keyContainsNul => "key contains a NUL byte".toList
  | .keyContainsControlChar => "key contains an ASCII control character".toList
  | .keyContainsDeceptiveUnicode => "key contains a Unicode visual-deception character".toList
  | .expandEmpty => "expand is empty".toList
  | .expandWhitespaceOnly => "expand contains only whitespace".toList
  | .expandTooLong => "expand exceeds the maximum length".toList
  | .expandContainsNul => "expand contains a NUL byte".toList
  | .expandContainsControlChar => "expand contains an ASCII control character".toList
  | .expandContainsDeceptiveUnicode =>
    "expand contains a Unicode visual-deception character".toList
  | .tooManyCmds => "when_command_exists has too many entries".toList
  | .cmdEmpty => "when_command_exists entry is empty".toList
  | .cmdWhitespaceOnly => "when_command_exists entry contains only whitespace".toList
  | .cmdTooLong => "when_command_exists entry exceeds the maximum length".toList
  | .cmdContainsNul => "when_command_exists entry contains a NUL byte".toList
  | .cmdContainsControlChar =>
    "when_command_exists entry contains an ASCII control character".toList
  | .cmdContainsDeceptiveUnicode =>
    "when_command_exists entry contains a Unicode visual-deception character".toList
  | .cmdContainsPathSeparator => "when_command_exists entry contains a path separator".toList
  | .cmdContainsMetacharacter =>
    "when_command_exists entry contains a shell metacharacter or glob pattern".toList
  | .keyHasUnknownPlaceholder =>
    "key contains an unrecognised placeholder (only '\x7bnumber\x7d' is supported)".toList
  | .keyHasMultipleNumberPlaceholders =>
    "key contains more than one '\x7bnumber\x7d' placeholder".toList
  | .keyHasNumberWithoutUnit =>
    "key contains '\x7bnumber\x7d' but no `number` field is defined".toList
  | .numberFieldWithoutKeyPlaceholder =>
    "`number` field is set but the key has no '\x7bnumber\x7d' placeholder".toList
  | .numberEmpty => "`number` unit is empty".toList
  | .numberContainsNul => "`number` unit contains a NUL byte".toList
  | .numberContainsControlChar => "`number` unit contains an ASCII control character".toList
  | .numberContainsDeceptiveUnicode =>
    "`number` unit contains a Unicode visual-deception character".toList
  | .numberUnitTooLong => "`number` unit exceeds the maximum length".toList
  | .globKeyWithoutWildcard => "glob key has no `*` or `?`".toList
  | .globKeyHasMultipleStars => "glob key contains more than one `*`".toList
  | .globKeyHasUnsupportedChar => "glob key contains one of [ ] \x7b \x7d ( ) \\".toList
  | .regexKeyInvalid engineText => "regex key does not compile: ".toList ++ engineText
  | .regexExpandGroupOutOfRange =>
    "expand refers to a group \x7b1\x7d..\x7b9\x7d that the regex key does not have".toList

/-- The row about an issue. -/
def issueCheck : ValidationIssue → Check
  | .config reason =>
    { name := "config_validation".toList
      status := .warn
      detail := "config rejected: ".toList ++ reason.text }
  | .rule ruleIndex fieldPath reason =>
    { name := "config_validation.abbr[".toList ++ (decimal ruleIndex ++
        ("].".toList ++ sanitizeForDisplay fieldPath))
      status := .warn
      detail := "rule #".toList ++ (decimal ruleIndex ++ (" field '".toList ++
        (sanitizeForDisplay fieldPath ++ ("' rejected: ".toList ++ reason.text)))) }

/-- The row before those of the issues. -/
def rejectedRulesCheck (issues : ℕ) : Check where
  name := "config_rejected_rules".toList
  status := .warn
  detail := decimal issues ++
    " invalid abbr field(s) found; config loading still stops at the first one".toList

def checkRejectedRules (engine : RegexLite) (fromStr : Text → Except Text Config)
    (configSource : Text) : List Check :=
  match parseConfigLenient fromStr configSource with
  | .error _ => []
  | .ok config =>
    let issues := collectValidationIssues engine config
    if issues = [] then [] else rejectedRulesCheck issues.length :: issues.map issueCheck

def checkPrecacheDeprecation (parse : Text → Except Text Table) (configSource : Text) :
    List Check :=
  match parse configSource with
  | .error _ => []
  | .ok table =>
    if (table.get "precache".toList).isSome then
      [{ name := "precache_deprecation".toList
         status := .warn
         detail := "[precache] is deprecated and has no effect since the shell integration moved to ".toList
          ++ "runtime hook calls. Remove the section to silence this warning.".toList }]
    else []

end Runex
