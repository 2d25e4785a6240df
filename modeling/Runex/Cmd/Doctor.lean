import Runex.App.Config.Loaded
import Runex.App.Config.PlainReader
import Runex.App.Doctor.Unreachable
import Runex.App.ShellAliasConflicts
import Runex.App.ShellExport
import Runex.Infra.IntegrationCheck.Probe
import Runex.Infra.WinPath.Merge
import Runex.Util.Path

/-!
# The `doctor` subcommand

The report, as it is printed, and the exit code.

## Main definitions

- `DoctorWorld` — what `runex doctor` finds
- `DoctorWorld.checks` — the rows
- `handleDoctor` — what is printed, and the exit code

## Main results

- `doctor_exit` — where the doctor panics, and the exit code, which is that of loading the
  configuration
- `doctor_report` — what is printed: a line for each row
-/

namespace Runex

open FileStore
open FileSystem (Path)

-- ════════════════════════════════════════════════════════════════════════
-- A line of the report
-- ════════════════════════════════════════════════════════════════════════

def ansiReset : Text := "\x1b[0m".toList

def ansiGreen : Text := "\x1b[32m".toList

def ansiRed : Text := "\x1b[31m".toList

def ansiYellow : Text := "\x1b[33m".toList

def checkTagWidth : ℕ := 8

/-- `{:>width$}`. -/
def padStart (width : ℕ) (s : Text) : Text := List.replicate (width - s.length) ' ' ++ s

def formatCheckTag : CheckStatus → Text
  | .ok => '[' :: (ansiGreen ++ ("OK".toList ++ (ansiReset ++ [']'])))
  | .warn => '[' :: (ansiYellow ++ ("WARN".toList ++ (ansiReset ++ [']'])))
  | .error => '[' :: (ansiRed ++ ("ERROR".toList ++ (ansiReset ++ [']'])))

def formatCheckLine (check : Check) (verbose : Bool) : Text :=
  let detail := if verbose then check.detailVerbose.getD check.detail else check.detail
  padStart checkTagWidth (formatCheckTag check.status) ++
    (' ' :: ' ' :: (check.name ++ (':' :: ' ' :: detail)))

-- ════════════════════════════════════════════════════════════════════════
-- The report
-- ════════════════════════════════════════════════════════════════════════

structure DoctorFlags where
  noShellAliases : Bool
  verbose : Bool
  strict : Bool
  json : Bool

/-- What `runex doctor` finds. -/
structure DoctorWorld where
  tree : Tree
  elsewhere : Text → Bool
  /-- Where the configuration is looked for. There is none without a home directory. -/
  configPath : Option Path
  home : HomeDirs
  clink : ClinkDirs
  lookups : Lookups
  pathPrepend : Option Path
  pathSources : PathSources
  currentExe : Option Text
  pwshAliases : Option Text
  bashAliases : Option Text

namespace DoctorWorld

variable (engine : RegexLite) (reader : ConfigReader) (w : DoctorWorld)

/-- `read_config_source`. The empty path is none. -/
def source : Except ConfigError Text :=
  w.configPath.elim (.error (Stepwise.io OsError.noEntry)) (sourceOf w.tree)

/-- `load_config`. -/
def loaded : Except ConfigError Config :=
  w.source.bind fun content => parseConfig engine reader.fromStr content

def host : Host where
  disk := Disk.ofTree w.tree w.elsewhere
  home := w.home
  clink := w.clink
  windows := w.lookups.windows

def aliasHost : AliasHost where
  pwshOutput := w.pwshAliases
  bashOutput := w.bashAliases
  windows := w.lookups.windows

/-- `build_doctor_env_info`; `none` is a panic. On Windows the closure for commands reads the search
    path as well, and panics where this does. -/
def buildDoctorEnvInfo (config : Option Config) : Option DoctorEnvInfo := do
  let found ← searchPathFor w.lookups.windows w.pathSources
  let script ← exportScript .clink (w.currentExe.getD "runex".toList) config
  return {
    effectiveSearchPath := found.map fun p =>
      { fromProcess := p.fromProcess
        fromUserRegistry := p.fromUserRegistry
        fromSystemRegistry := p.fromSystemRegistry }
    clinkExportForDriftCheck := some script
    checkRcfileMarkers := .all }

/-- The rows about the text of the configuration. -/
def sourceChecks (strict : Bool) (source : Text) : List Check :=
  checkRejectedRules engine reader.fromStr source ++
    if strict then
      checkUnknownFields reader.toml source ++ checkPrecacheDeprecation reader.toml source
    else []

/-- The rows, with the live answers about commands; `none` is a panic. -/
def checks (flags : DoctorFlags) : Option (List Check) := do
  let config := (w.loaded engine reader).toOption
  let parseError := match w.loaded engine reader with
    | .ok _ => none
    | .error e => some e.display
  let envInfo ← w.buildDoctorEnvInfo config
  let shown := w.configPath.elim [] displayPath
  let found := w.configPath.any fun path => (w.tree.canonicalize path).isOk
  return diagnose engine w.host shown found config parseError envInfo
      (commandExists w.lookups w.pathPrepend none) ++
    ((if flags.noShellAliases then [] else addShellAliasConflicts w.aliasHost config) ++
    (w.source.toOption.toList.flatMap (sourceChecks engine reader flags.strict) ++
    if flags.strict then config.toList.flatMap (checkUnreachableDuplicates engine) else []))

end DoctorWorld

/-- What is printed, and the exit code. `toJson` is the pretty printer. -/
def handleDoctor (engine : RegexLite) (reader : ConfigReader) (toJson : List Check → Text)
    (w : DoctorWorld) (flags : DoctorFlags) : Option (Text × ℕ) :=
  (w.checks engine reader flags).map fun checks =>
    (if flags.json then toJson checks ++ ['\n']
      else checks.flatMap fun check => formatCheckLine check flags.verbose ++ ['\n'],
    if isHealthy checks then 0 else 1)

variable {engine : RegexLite} {reader : ConfigReader} {w : DoctorWorld} {flags : DoctorFlags}
  {checks : List Check} {check : Check}

-- ════════════════════════════════════════════════════════════════════════
-- The exit code
-- ════════════════════════════════════════════════════════════════════════

namespace DoctorWorld

theorem loaded_eq_ok {config : Config} : w.loaded engine reader = .ok config ↔
    ∃ content, w.source = .ok content ∧ parseConfig engine reader.fromStr content = .ok config := by
  rw [loaded]
  cases w.source with
  | error e => simp [Except.bind]
  | ok content => simp [Except.bind]

/-- The script of clink cannot be made exactly for a trigger that it cannot bind. -/
theorem exportScript_clink_eq_none (config : Option Config) (bin : Text) :
    exportScript .clink bin config = none ↔
      triggerFor .clink config = some .shiftSpace ∨ triggerFor .clink config = some .ctrlV := by
  rw [exportScript, Option.map_eq_none_iff, ← Option.not_isSome_iff_eq_none,
    exportSlots_isSome_iff, not_and_or, not_not, not_not]

/-- A configuration that loads has no `ctrl-v` for a trigger. -/
theorem triggerFor_loaded :
    triggerFor .clink (w.loaded engine reader).toOption = some .shiftSpace ∨
        triggerFor .clink (w.loaded engine reader).toOption = some .ctrlV ↔
      ∃ config, w.loaded engine reader = .ok config ∧
        triggerFor .clink (some config) = some .shiftSpace := by
  cases hloaded : w.loaded engine reader with
  | error e => simp [Except.toOption, triggerFor]
  | ok config =>
    have haccepted : Accepted engine config := by
      obtain ⟨content, -, hparse⟩ := loaded_eq_ok.mp hloaded
      exact ⟨_, _, hparse⟩
    have hctrlV := haccepted.trigger_ne_ctrlV .clink
    simp [Except.toOption, hctrlV]

/-- Where the search path cannot be read or the script of clink cannot be made, the doctor
    panics. -/
theorem checks_eq_none_iff : w.checks engine reader flags = none ↔
    w.lookups.windows = true ∧
        ¬ (CanBeRead w.pathSources.user ∧ CanBeRead w.pathSources.system) ∨
      ∃ config, w.loaded engine reader = .ok config ∧
        triggerFor .clink (some config) = some .shiftSpace := by
  have hnone : w.checks engine reader flags = none ↔
      w.buildDoctorEnvInfo (w.loaded engine reader).toOption = none := by
    rw [checks]
    cases w.buildDoctorEnvInfo (w.loaded engine reader).toOption with
    | none => exact ⟨fun _ => rfl, fun _ => rfl⟩
    | some envInfo => exact ⟨fun h => absurd h (Option.some_ne_none _), fun h => by cases h⟩
  rw [hnone, ← triggerFor_loaded, ← searchPathFor_eq_none_iff,
    ← exportScript_clink_eq_none _ (w.currentExe.getD "runex".toList), buildDoctorEnvInfo]
  cases searchPathFor w.lookups.windows w.pathSources with
  | none => exact ⟨fun _ => Or.inl rfl, fun _ => rfl⟩
  | some found =>
    cases exportScript .clink (w.currentExe.getD "runex".toList)
        (w.loaded engine reader).toOption with
    | none => exact ⟨fun _ => Or.inr rfl, fun _ => rfl⟩
    | some script => exact ⟨nofun, fun h => h.elim nofun nofun⟩

/-- The two rows that can fail, and advice. -/
theorem checks_eq (h : w.checks engine reader flags = some checks) :
    ∃ rest : List Check,
      checks = checkConfigFile (w.configPath.elim [] displayPath)
          (w.configPath.any fun path => (w.tree.canonicalize path).isOk) ::
        checkConfigParse (w.loaded engine reader).toOption
          (match w.loaded engine reader with
          | .ok _ => none
          | .error e => some e.display) :: rest ∧
      ∀ check ∈ rest, check.IsAdvice := by
  obtain ⟨envInfo, -, hchecks⟩ := Option.bind_eq_some_iff.mp h
  obtain rfl := Option.some.inj hchecks
  refine ⟨_, rfl, fun check hmem => ?_⟩
  rcases List.mem_append.mp hmem with hmem | hmem
  · exact diagnoseRest_isAdvice hmem
  rcases List.mem_append.mp hmem with hmem | hmem
  · split at hmem
    · cases hmem
    · exact addShellAliasConflicts_isAdvice hmem
  rcases List.mem_append.mp hmem with hmem | hmem
  · obtain ⟨source, -, hmem⟩ := List.mem_flatMap.mp hmem
    rcases List.mem_append.mp hmem with hmem | hmem
    · exact checkRejectedRules_isAdvice hmem
    · split at hmem
      · rcases List.mem_append.mp hmem with hmem | hmem
        · exact checkUnknownFields_isAdvice hmem
        · exact checkPrecacheDeprecation_isAdvice hmem
      · cases hmem
  · split at hmem
    · obtain ⟨config, -, hmem⟩ := List.mem_flatMap.mp hmem
      exact checkUnreachableDuplicates_isAdvice hmem
    · cases hmem

/-- A configuration that loads is found. -/
theorem found_of_loaded {config : Config} (h : w.loaded engine reader = .ok config) :
    (w.configPath.any fun path => (w.tree.canonicalize path).isOk) = true := by
  obtain ⟨content, hsource, -⟩ := loaded_eq_ok.mp h
  rw [source] at hsource
  cases hpath : w.configPath with
  | none =>
    rw [hpath] at hsource
    cases hsource
  | some path =>
    rw [hpath, Option.elim_some, sourceOf] at hsource
    rw [Option.any_some]
    cases hresolved : w.tree.canonicalize path with
    | error e =>
      rw [hresolved] at hsource
      cases hsource
    | ok resolved => rfl

theorem isHealthy_iff (h : w.checks engine reader flags = some checks) :
    isHealthy checks = true ↔ ∃ config, w.loaded engine reader = .ok config := by
  obtain ⟨rest, rfl, hrest⟩ := checks_eq h
  have hadvice : rest.all (fun check => decide (check.status ≠ .error)) = true :=
    List.all_eq_true.mpr fun check hmem => decide_eq_true (hrest check hmem).noError
  rw [isHealthy, List.all_cons, List.all_cons, hadvice, Bool.and_true, Bool.and_eq_true]
  cases hloaded : w.loaded engine reader with
  | error e =>
    have hparse : (checkConfigParse (Except.toOption (.error e : Except ConfigError Config))
        (some e.display)).status = .error := rfl
    constructor
    · rintro ⟨-, hok⟩
      exact absurd hparse (of_decide_eq_true hok)
    · rintro ⟨config, hok⟩
      cases hok
  | ok config =>
    rw [found_of_loaded hloaded]
    exact ⟨fun _ => ⟨config, rfl⟩, fun _ => ⟨rfl, rfl⟩⟩

end DoctorWorld

/-- For all flags: the doctor panics where a build for Windows finds a registry value that cannot be
    read, and where a configuration with `shift-space` as the trigger of clink loads. Otherwise its
    exit code is that of loading the configuration. -/
theorem doctor_exit (engine : RegexLite) (reader : ConfigReader) (toJson : List Check → Text)
    (w : DoctorWorld) (flags : DoctorFlags) :
    (handleDoctor engine reader toJson w flags = none ↔
      w.lookups.windows = true ∧
          ¬ (CanBeRead w.pathSources.user ∧ CanBeRead w.pathSources.system) ∨
        ∃ config, w.loaded engine reader = .ok config ∧
          triggerFor .clink (some config) = some .shiftSpace) ∧
    ∀ output code, handleDoctor engine reader toJson w flags = some (output, code) →
      code = if (w.loaded engine reader).isOk then 0 else 1 := by
  constructor
  · rw [handleDoctor, Option.map_eq_none_iff, DoctorWorld.checks_eq_none_iff]
  · intro output code h
    obtain ⟨checks, hchecks, heq⟩ := Option.map_eq_some_iff.mp h
    obtain ⟨-, rfl⟩ := Prod.mk.inj heq
    have hhealthy := DoctorWorld.isHealthy_iff hchecks
    cases hloaded : w.loaded engine reader with
    | error e =>
      rw [hloaded] at hhealthy
      have hsick : isHealthy checks = false := by
        rw [Bool.eq_false_iff]
        intro hok
        obtain ⟨config, hconfig⟩ := hhealthy.mp hok
        cases hconfig
      rw [hsick]
      rfl
    | ok config =>
      rw [hhealthy.mpr ⟨config, hloaded⟩]
      rfl

/-- A directory with a configuration file. -/
def configOnly (content : Text) : Tree where
  entry path :=
    if path = [] then .directory
    else if path = ["runex.toml".toList] then .file 0
    else .absent
  content _ := utf8 content
  next := 1
  entry_lt path inode h := by
    split at h
    · cases h
    split at h
    · cases h
      decide
    · cases h

/-- A host with this configuration and, in the registry, one giant entry. -/
def doctorWorld (windows : Bool) (content : Text) : DoctorWorld where
  tree := configOnly content
  elsewhere _ := false
  configPath := some ["runex.toml".toList]
  home := ⟨none, none, none⟩
  clink := ⟨none, none, none⟩
  lookups := { windows, isFile := fun _ => false, which := fun _ => false }
  pathPrepend := none
  pathSources := ⟨none, some giantEntry, none, fun _ => none⟩
  currentExe := none
  pwshAliases := none
  bashAliases := none

theorem doctorWorld_loaded (windows : Bool) :
    (doctorWorld windows "version = 1\n".toList).loaded default plainReader =
      .ok { version := 1 } := by
  cases windows <;> decide +kernel

theorem doctorWorld_unsupported :
    (doctorWorld false "version = 2\n".toList).loaded default plainReader =
      .error (.unsupportedVersion 2) := by
  decide +kernel

/-- The exit code for a configuration that loads and for one that does not, and the panic on
    Windows. -/
theorem doctor_exit_giantEntry :
    (∃ output, handleDoctor default plainReader (fun _ => [])
      (doctorWorld false "version = 1\n".toList) ⟨false, false, false, false⟩ =
        some (output, 0)) ∧
    (∃ output, handleDoctor default plainReader (fun _ => [])
      (doctorWorld false "version = 2\n".toList) ⟨false, false, false, false⟩ =
        some (output, 1)) ∧
    handleDoctor default plainReader (fun _ => []) (doctorWorld true "version = 1\n".toList)
      ⟨false, false, false, false⟩ = none := by
  refine ⟨?_, ?_, ?_⟩
  · obtain ⟨hnone, hcode⟩ := doctor_exit default plainReader (fun _ => [])
      (doctorWorld false "version = 1\n".toList) ⟨false, false, false, false⟩
    rw [doctorWorld_loaded] at hnone hcode
    obtain ⟨⟨output, code⟩, hended⟩ := Option.ne_none_iff_exists'.mp fun hpanic => by
      rcases hnone.mp hpanic with ⟨hwindows, -⟩ | ⟨config, hconfig, htrigger⟩
      · cases hwindows
      · cases hconfig
        cases htrigger
    obtain rfl : code = 0 := hcode output code hended
    exact ⟨output, hended⟩
  · obtain ⟨hnone, hcode⟩ := doctor_exit default plainReader (fun _ => [])
      (doctorWorld false "version = 2\n".toList) ⟨false, false, false, false⟩
    rw [doctorWorld_unsupported] at hnone hcode
    obtain ⟨⟨output, code⟩, hended⟩ := Option.ne_none_iff_exists'.mp fun hpanic => by
      rcases hnone.mp hpanic with ⟨hwindows, -⟩ | ⟨config, hconfig, -⟩
      · cases hwindows
      · cases hconfig
    obtain rfl : code = 1 := hcode output code hended
    exact ⟨output, hended⟩
  · refine (doctor_exit _ _ _ _ _).1.mpr (Or.inl ⟨rfl, fun hread => ?_⟩)
    exact not_boundary_giantEntry (hread.1 giantEntry rfl)

-- ════════════════════════════════════════════════════════════════════════
-- What is printed
-- ════════════════════════════════════════════════════════════════════════

/-- What stands behind the tag of a row. -/
def Check.shownText (check : Check) (verbose : Bool) : Text :=
  check.name ++ (':' :: ' ' :: if verbose then check.detailVerbose.getD check.detail
    else check.detail)

/-- No tag is shorter than its column. -/
theorem padStart_formatCheckTag (status : CheckStatus) :
    padStart checkTagWidth (formatCheckTag status) = formatCheckTag status := by
  cases status <;> decide

theorem formatCheckLine_eq (check : Check) (verbose : Bool) :
    formatCheckLine check verbose =
      formatCheckTag check.status ++ (' ' :: ' ' :: check.shownText verbose) := by
  rw [formatCheckLine, padStart_formatCheckTag]
  rfl

theorem isShown_shownText {verbose : Bool} (hname : isShown check.name = true)
    (hdetail : isShown (if verbose then check.detailVerbose.getD check.detail
      else check.detail) = true) : isShown (check.shownText verbose) = true := by
  have hcolon : isShown [':', ' '] = true := by decide
  exact isShown_append.mpr ⟨hname, isShown_append.mpr ⟨hcolon, hdetail⟩⟩

theorem Check.IsAdvice.isShown_shownText (h : check.IsAdvice) (verbose : Bool) :
    isShown (check.shownText verbose) = true := by
  refine Runex.isShown_shownText h.name ?_
  rw [h.verbose, Option.getD_none, ite_self]
  exact h.detail

theorem checkConfigFile_isShown (shown : Text) (found verbose : Bool) :
    isShown ((checkConfigFile shown found).shownText verbose) = true := by
  have hdetail : isShown (checkConfigFile shown found).detail = true := by
    refine isShown_append.mpr ⟨?_, isShown_sanitizeForDisplay shown⟩
    cases found <;> exact isShown_literal (by decide)
  refine isShown_shownText (isShown_literal (by decide)) ?_
  cases verbose <;> exact hdetail

theorem isShown_failedToLoad : isShown failedToLoad = true := isShown_literal (by decide)

theorem isShown_colon : isShown ": ".toList = true := isShown_literal (by decide)

theorem checkConfigParse_isShown (config : Option Config) (parseError : Option Text) :
    isShown ((checkConfigParse config parseError).shownText false) = true := by
  refine isShown_shownText (isShown_literal (by decide)) ?_
  cases config with
  | some config => exact isShown_literal (by decide)
  | none =>
    cases parseError with
    | none => exact isShown_failedToLoad
    | some e =>
      exact isShown_append.mpr ⟨isShown_failedToLoad,
        isShown_append.mpr ⟨isShown_colon, isShown_sanitizeForDisplay _⟩⟩

theorem checkConfigParse_isShownMultiline (config : Option Config) (parseError : Option Text)
    (verbose : Bool) :
    isShownMultiline ((checkConfigParse config parseError).shownText verbose) = true := by
  have hshort := isShownMultiline_of_isShown (checkConfigParse_isShown config parseError)
  cases verbose with
  | false => exact hshort
  | true =>
    cases hdetail : (checkConfigParse config parseError).detailVerbose with
    | none =>
      rw [Check.shownText, hdetail]
      exact hshort
    | some full =>
      -- The full text is there only for an error, which may have several lines.
      cases config with
      | some config => cases hdetail
      | none =>
        cases parseError with
        | none => cases hdetail
        | some e =>
          obtain ⟨-, hfull⟩ := Option.ite_none_right_eq_some.mp hdetail
          obtain rfl := Option.some.inj hfull
          rw [Check.shownText, hdetail]
          have hname : isShown (checkConfigParse none (some e)).name = true :=
            isShown_literal (by decide)
          refine isShownMultiline_append.mpr ⟨isShownMultiline_of_isShown hname, ?_⟩
          refine (isShownMultiline_append (s := [':', ' '])).mpr ⟨by decide, ?_⟩
          refine isShownMultiline_append.mpr ⟨isShownMultiline_of_isShown isShown_failedToLoad, ?_⟩
          exact isShownMultiline_append.mpr ⟨isShownMultiline_of_isShown isShown_colon,
            isShownMultiline_sanitizeMultilineForDisplay e⟩

/-- A line of the report. -/
def reportLine (row : CheckStatus × Text) : Text := formatCheckTag row.1 ++ (' ' :: ' ' :: row.2)

theorem not_mem_reportLine {row : CheckStatus × Text} {c : Char} (hshown : isShown row.2 = true)
    (hc : c = '\n' ∨ c = '\r') : c ∉ reportLine row := by
  have htag : c ∉ formatCheckTag row.1 := by
    rcases hc with rfl | rfl <;> cases row.1 <;> decide
  have htext : c ∉ row.2 := fun hmem => by
    have hsafe := List.all_eq_true.mp hshown c hmem
    rcases hc with rfl | rfl <;> exact absurd hsafe (by decide)
  have hblank : c ≠ ' ' := by rcases hc with rfl | rfl <;> decide
  simp [reportLine, htag, htext, hblank]

theorem stripCr_reportLine {row : CheckStatus × Text} (hshown : isShown row.2 = true) :
    Text.stripCr (reportLine row) = reportLine row :=
  Text.stripCr_eq_self (not_mem_reportLine hshown (Or.inr rfl))

/-- Only the second row may have several lines, and only where it is printed in full. -/
theorem isShown_row (h : w.checks engine reader flags = some checks) {i : ℕ}
    (hcheck : checks[i]? = some check) (verbose : Bool) :
    isShown (check.shownText verbose) = true ∨ i = 1 ∧ verbose = true := by
  obtain ⟨rest, rfl, hrest⟩ := DoctorWorld.checks_eq h
  rcases i with _ | _ | i
  · obtain rfl := Option.some.inj hcheck
    exact Or.inl (checkConfigFile_isShown _ _ _)
  · obtain rfl := Option.some.inj hcheck
    cases verbose with
    | true => exact Or.inr ⟨rfl, rfl⟩
    | false => exact Or.inl (checkConfigParse_isShown _ _)
  · exact Or.inl ((hrest check (List.mem_of_getElem? hcheck)).isShown_shownText _)

theorem isShownMultiline_row (h : w.checks engine reader flags = some checks)
    (hcheck : check ∈ checks) (verbose : Bool) :
    isShownMultiline (check.shownText verbose) = true := by
  obtain ⟨rest, rfl, hrest⟩ := DoctorWorld.checks_eq h
  rcases List.mem_cons.mp hcheck with rfl | hcheck
  · exact isShownMultiline_of_isShown (checkConfigFile_isShown _ _ _)
  rcases List.mem_cons.mp hcheck with rfl | hcheck
  · exact checkConfigParse_isShownMultiline _ _ _
  · exact isShownMultiline_of_isShown ((hrest check hcheck).isShown_shownText _)

theorem lines_listing_reportLine {rows : List (CheckStatus × Text)}
    (h : ∀ row ∈ rows, isShown row.2 = true) :
    Text.lines (listing reportLine rows) = rows.map reportLine := by
  rw [lines_listing fun row hmem => not_mem_reportLine (h row hmem) (Or.inl rfl)]
  exact List.map_congr_left fun row hmem => stripCr_reportLine (h row hmem)

/-- Whatever stands in the configuration, in the files, in the names of commands and in what the
    shells print: the report has a line for each row, which is a tag and a text that is safe to
    print. Only the error of the configuration has several lines, and only where it is printed in
    full. -/
theorem doctor_report (engine : RegexLite) (reader : ConfigReader) (toJson : List Check → Text)
    (w : DoctorWorld) (flags : DoctorFlags) :
    (handleDoctor engine reader toJson w { flags with json := false } = none ↔
      w.checks engine reader flags = none) ∧
    ∀ checks, w.checks engine reader flags = some checks →
      let rows := checks.map fun check => (check.status, check.shownText flags.verbose)
      handleDoctor engine reader toJson w { flags with json := false } =
        some (listing reportLine rows, if ∀ row ∈ rows, row.1 ≠ .error then 0 else 1) ∧
      ["config_file".toList, "config_parse".toList] <+: checks.map (·.name) ∧
      (∀ row ∈ rows, isShownMultiline row.2 = true) ∧
      (∀ i row, rows[i]? = some row → isShown row.2 = true ∨ i = 1 ∧ flags.verbose = true) ∧
      (flags.verbose = false → Text.lines (listing reportLine rows) = rows.map reportLine) := by
  refine ⟨Option.map_eq_none_iff, ?_⟩
  intro checks hchecks rows
  refine ⟨?_, ?_, ?_, ?_, ?_⟩
  · have hprinted : (checks.flatMap fun check => formatCheckLine check flags.verbose ++ ['\n']) =
        listing reportLine rows := by
      rw [listing, List.flatMap_map]
      exact List.flatMap_congr fun check _ => by rw [formatCheckLine_eq]; rfl
    have hcode : isHealthy checks = true ↔ ∀ row ∈ rows, row.1 ≠ .error := by
      simp [isHealthy, rows]
    rw [handleDoctor, show w.checks engine reader { flags with json := false } = some checks from
      hchecks, Option.map_some, hprinted]
    simp only [hcode]
    rfl
  · obtain ⟨rest, rfl, -⟩ := DoctorWorld.checks_eq hchecks
    exact ⟨rest.map (·.name), rfl⟩
  · intro row hmem
    obtain ⟨check, hcheck, rfl⟩ := List.mem_map.mp hmem
    exact isShownMultiline_row hchecks hcheck _
  · intro i row hrow
    rw [List.getElem?_map, Option.map_eq_some_iff] at hrow
    obtain ⟨check, hcheck, rfl⟩ := hrow
    exact isShown_row hchecks hcheck _
  · intro hverbose
    refine lines_listing_reportLine fun row hmem => ?_
    obtain ⟨check, hcheck, rfl⟩ := List.mem_map.mp hmem
    obtain ⟨i, hi⟩ := List.getElem?_of_mem hcheck
    rw [hverbose]
    exact (isShown_row hchecks hi false).resolve_right fun h => Bool.false_ne_true h.2

/-- A configuration of another version: the report begins with a line for the file and one for the
    error. -/
theorem doctor_report_unsupported : ∃ output rest,
    handleDoctor default plainReader (fun _ => []) (doctorWorld false "version = 2\n".toList)
      ⟨false, false, false, false⟩ = some (output, 1) ∧
    Text.lines output = "[\x1b[32mOK\x1b[0m]  config_file: found: /runex.toml".toList ::
      ("[\x1b[31mERROR\x1b[0m]  config_parse: failed to load config: " ++
        "unsupported config version 2; only version 1 is supported").toList :: rest := by
  have hsome : (doctorWorld false "version = 2\n".toList).checks default plainReader
      ⟨false, false, false, false⟩ ≠ none := by
    rw [ne_eq, DoctorWorld.checks_eq_none_iff, doctorWorld_unsupported]
    rintro (⟨hwindows, -⟩ | ⟨config, hconfig, -⟩)
    · cases hwindows
    · cases hconfig
  obtain ⟨checks, hchecks⟩ := Option.ne_none_iff_exists'.mp hsome
  obtain ⟨hprinted, -, -, -, hlines⟩ := (doctor_report default plainReader (fun _ => [])
    (doctorWorld false "version = 2\n".toList) ⟨false, false, false, false⟩).2 checks hchecks
  obtain ⟨rest, rfl, -⟩ := DoctorWorld.checks_eq hchecks
  rw [doctorWorld_unsupported] at hprinted hlines
  refine ⟨_, rest.map fun check => reportLine (check.status, check.shownText false),
    hprinted.trans ?_, (hlines rfl).trans ?_⟩
  · rw [if_neg fun h => h _ (List.mem_cons_of_mem _ List.mem_cons_self) rfl]
  · rw [List.map_cons, List.map_cons, List.map_cons, List.map_cons, List.map_map]
    refine congrArg₂ List.cons (by decide +kernel) (congrArg₂ List.cons (by decide +kernel) rfl)

end Runex
