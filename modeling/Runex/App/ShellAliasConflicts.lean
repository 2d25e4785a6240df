import Runex.App.Config.Loaded
import Runex.App.Doctor.Advice
import Runex.Infra.ShellAlias

/-!
# Keys that name an alias

The rows of the doctor about the rules whose key is also the name of an alias.

## Main definitions

- `collectShellAliasConflictsWith` — the rows, in the order of the rules
- `AliasHost` — what asking the shells for their aliases gives
- `conflictRows` — the rows about a key, given its definitions

## Main results

- `collectShellAliasConflictsWith_isAdvice` — the rows are warnings that are safe to print
- `alias_conflicts` — a loaded rule has a row for a shell when its key is an alias there
-/

namespace Runex

open Text TakeWithin

/-- The row about a key that is an alias in PowerShell. -/
def checkPwshAliasWith (token : Text) (lookup : Text → Option Text) : Option Check :=
  (lookup token).map fun definition =>
    { name := "shell:pwsh:key:".toList ++ sanitizeForDisplay token
      status := .warn
      detail := "conflicts with existing alias '".toList ++ (sanitizeForDisplay token ++
        ("' -> ".toList ++ sanitizeForDisplay definition)) }

/-- The row about a key that is an alias in Bash. -/
def checkBashAliasWith (token : Text) (lookup : Text → Option Text) : Option Check :=
  (lookup token).map fun definition =>
    { name := "shell:bash:key:".toList ++ sanitizeForDisplay token
      status := .warn
      detail := "conflicts with existing alias ".toList ++ sanitizeForDisplay definition }

def collectShellAliasConflictsWith (abbrs : List Abbr) (pwshLookup bashLookup : Text → Option Text) :
    List Check :=
  abbrs.flatMap fun abbr =>
    (checkPwshAliasWith abbr.key pwshLookup).toList ++
      (checkBashAliasWith abbr.key bashLookup).toList

/-- What asking the shells gives: a shell that is not found, fails, takes too long or prints too
    much gives nothing. -/
structure AliasHost where
  pwshOutput : Option Text
  bashOutput : Option Text
  windows : Bool

def loadPwshAliases (host : AliasHost) : AliasMap := (host.pwshOutput.map parsePwshAliasLines).getD ∅

/-- Bash is not asked on Windows. -/
def loadBashAliases (host : AliasHost) : AliasMap :=
  if host.windows then ∅ else (host.bashOutput.map parseBashAliasLines).getD ∅

def addShellAliasConflicts (host : AliasHost) (config : Option Config) : List Check :=
  match config with
  | none => []
  | some config =>
    collectShellAliasConflictsWith config.abbr (loadPwshAliases host).lookup
      (loadBashAliases host).lookup

variable {sep : Char} {token : Text}

-- ════════════════════════════════════════════════════════════════════════
-- The rows are advice
-- ════════════════════════════════════════════════════════════════════════

theorem checkPwshAliasWith_isAdvice {lookup : Text → Option Text} {check : Check}
    (h : checkPwshAliasWith token lookup = some check) : check.IsAdvice := by
  obtain ⟨definition, -, rfl⟩ := Option.map_eq_some_iff.mp h
  refine isAdvice_warn ?_ ?_ <;> simp only [isShown_append, isShown_sanitizeForDisplay, and_true]
  · exact isShown_literal (by decide)
  · exact ⟨isShown_literal (by decide), true_and _ ▸ isShown_literal (by decide)⟩

theorem checkBashAliasWith_isAdvice {lookup : Text → Option Text} {check : Check}
    (h : checkBashAliasWith token lookup = some check) : check.IsAdvice := by
  obtain ⟨definition, -, rfl⟩ := Option.map_eq_some_iff.mp h
  refine isAdvice_warn ?_ ?_ <;> simp only [isShown_append, isShown_sanitizeForDisplay, and_true]
  · exact isShown_literal (by decide)
  · exact isShown_literal (by decide)

/-- The rows are warnings that are safe to print. -/
theorem collectShellAliasConflictsWith_isAdvice {abbrs : List Abbr}
    {pwshLookup bashLookup : Text → Option Text} {check : Check}
    (h : check ∈ collectShellAliasConflictsWith abbrs pwshLookup bashLookup) : check.IsAdvice := by
  obtain ⟨abbr, -, hmem⟩ := List.mem_flatMap.mp h
  rcases List.mem_append.mp hmem with hpwsh | hbash
  · exact checkPwshAliasWith_isAdvice (Option.mem_toList.mp hpwsh)
  · exact checkBashAliasWith_isAdvice (Option.mem_toList.mp hbash)

theorem addShellAliasConflicts_isAdvice {host : AliasHost} {config : Option Config} {check : Check}
    (h : check ∈ addShellAliasConflicts host config) : check.IsAdvice := by
  cases config with
  | none => cases h
  | some config => exact collectShellAliasConflictsWith_isAdvice h

-- ════════════════════════════════════════════════════════════════════════
-- The keys that have a row
-- ════════════════════════════════════════════════════════════════════════

/-- The alias that is read for a key: of the lines within the limit the last one. -/
def readAlias (shown : ShellAlias sep → Text) (aliases : List (ShellAlias sep)) (key : Text) :
    Option (ShellAlias sep) :=
  (aliases.take maxAliasLines).reverse.find? fun a => shown a = key

theorem lookup_loadPwshAliases (host : AliasHost) (hkey : byteLen token ≤ maxAliasKeyBytes) :
    (loadPwshAliases host).lookup token =
      (host.pwshOutput.bind fun stdout => lastAlias pwshAliasEntry stdout token).map fun definition =>
        takeWithin Char.utf8Size maxAliasValueBytes definition := by
  rw [loadPwshAliases]
  cases host.pwshOutput with
  | none => exact Finmap.lookup_empty token
  | some stdout => exact lookup_parseAliasLines pwshAliasEntry stdout hkey

theorem lookup_loadBashAliases (host : AliasHost) (hkey : byteLen token ≤ maxAliasKeyBytes) :
    (loadBashAliases host).lookup token =
      ((if host.windows then none else host.bashOutput).bind fun stdout =>
        lastAlias bashAliasEntry stdout token).map fun definition =>
          takeWithin Char.utf8Size maxAliasValueBytes definition := by
  rw [loadBashAliases]
  cases host.windows with
  | true => exact Finmap.lookup_empty token
  | false =>
    cases host.bashOutput with
    | none => exact Finmap.lookup_empty token
    | some stdout => exact lookup_parseAliasLines bashAliasEntry stdout hkey

/-- The rows about a key, given its definitions in the two shells. -/
def conflictRows (key : Text) (pwsh bash : Option Text) : List Check :=
  (pwsh.map fun definition =>
    { name := "shell:pwsh:key:".toList ++ sanitizeForDisplay key
      status := CheckStatus.warn
      detail := "conflicts with existing alias '".toList ++ (sanitizeForDisplay key ++
        ("' -> ".toList ++ sanitizeForDisplay
          (takeWithin Char.utf8Size maxAliasValueBytes definition))) }).toList ++
  (bash.map fun definition =>
    { name := "shell:bash:key:".toList ++ sanitizeForDisplay key
      status := CheckStatus.warn
      detail := "conflicts with existing alias ".toList ++
        sanitizeForDisplay (takeWithin Char.utf8Size maxAliasValueBytes definition) }).toList

/-- **The rows about aliases.** Whatever the shells print, a loaded rule has a row for a shell
    exactly when a line that counts gives an alias of its key there, about the definition in that
    line up to the last character within the limit: no key is too long for the names that are read.
    Bash does not count on Windows. Aliases that are printed on one line each count as they are,
    only that Bash puts two dashes before a name that starts with one. -/
theorem alias_conflicts {engine : RegexLite} {config : Config} (hconfig : Accepted engine config)
    (host : AliasHost) :
    ∃ pwsh bash : Text → Option Text,
      addShellAliasConflicts host (some config) =
        config.abbr.flatMap (fun abbr => conflictRows abbr.key (pwsh abbr.key) (bash abbr.key)) ∧
      (∀ key definition, pwsh key = some definition ↔
        ∃ stdout, host.pwshOutput = some stdout ∧ Printed [] '\t' stdout key definition) ∧
      (∀ key definition, bash key = some definition ↔ host.windows = false ∧
        ∃ stdout, host.bashOutput = some stdout ∧
          Printed "alias ".toList '=' stdout key definition) ∧
      (∀ aliases : List (ShellAlias '\t'), (∀ a ∈ aliases, isBlank a.definition = false) →
        host.pwshOutput = some (listing pwshAliasLine aliases) →
        ∀ key, pwsh key = (readAlias ShellAlias.name aliases key).map fun a =>
          trim a.definition) ∧
      ∀ aliases : List (ShellAlias '='), host.windows = false →
        host.bashOutput = some (listing bashAliasLine aliases) →
        ∀ key, bash key = (readAlias (fun a => bashShownName a.name) aliases key).map fun a =>
          bashSingleQuote a.definition := by
  refine ⟨fun key => host.pwshOutput.bind fun stdout => lastAlias pwshAliasEntry stdout key,
    fun key => (if host.windows then none else host.bashOutput).bind fun stdout =>
      lastAlias bashAliasEntry stdout key, ?_, fun key definition => ?_, fun key definition => ?_,
    fun aliases hblank hout key => ?_, fun aliases hwindows hout key => ?_⟩
  · rw [addShellAliasConflicts, collectShellAliasConflictsWith]
    refine List.flatMap_congr fun abbr hmem => ?_
    have hkey : byteLen abbr.key ≤ maxAliasKeyBytes :=
      (checkAbbrKey_eq_none.mp (hconfig.rule hmem).key).2.2.1
    rw [checkPwshAliasWith, checkBashAliasWith, lookup_loadPwshAliases host hkey,
      lookup_loadBashAliases host hkey, Option.map_map, Option.map_map]
    rfl
  · rw [Option.bind_eq_some_iff]
    simp only [lastAlias_eq_some pwshAliasEntry_eq_some]
  · rw [Option.bind_eq_some_iff]
    simp only [lastAlias_eq_some bashAliasEntry_eq_some]
    cases host.windows <;> simp
  · rw [hout]
    exact lastAlias_pwshListing hblank key
  · rw [hwindows, hout]
    exact lastAlias_bashListing aliases key

/-- `ll` in Bash. -/
def llAlias : ShellAlias '=' where
  name := "ll".toList
  definition := "ls -l".toList
  name_ne_nil := by decide
  trim_name := by decide
  sep_not_mem := by decide
  name_one_line := by decide
  definition_one_line := by decide

def llConfig : Config where
  version := 1
  abbr := [{ key := "ll".toList, expand := .all "ls -la".toList }]

theorem llConfig_accepted : Accepted default llConfig :=
  accepted_iff.mpr ⟨rfl, by decide, by decide +kernel⟩

/-- A shell that prints nothing gives no definition. -/
theorem eq_none_of_no_output {found : Option Text} {read : Text → Text → Prop}
    (h : ∀ definition, found = some definition ↔
      ∃ stdout, (none : Option Text) = some stdout ∧ read stdout definition) : found = none := by
  refine Option.eq_none_iff_forall_ne_some.mpr fun definition hfound => ?_
  obtain ⟨_, hout, -⟩ := (h definition).mp hfound
  cases hout

/-- The rule for `ll` conflicts with an alias in Bash, and with a line that looks like one inside the
    definition of another. -/
theorem alias_conflicts_ll :
    addShellAliasConflicts ⟨none, some (listing bashAliasLine [llAlias]), false⟩ (some llConfig) =
      [{ name := "shell:bash:key:ll".toList
         status := .warn
         detail := "conflicts with existing alias 'ls -l'".toList }] ∧
    addShellAliasConflicts ⟨none, some "alias foo='a\nalias ll=b'\n".toList, false⟩ (some llConfig) =
      [{ name := "shell:bash:key:ll".toList
         status := .warn
         detail := "conflicts with existing alias b'".toList }] := by
  constructor
  · obtain ⟨pwsh, bash, hrows, hpwsh, -, -, hbash⟩ := alias_conflicts llConfig_accepted
      ⟨none, some (listing bashAliasLine [llAlias]), false⟩
    have hnone : pwsh "ll".toList = none := eq_none_of_no_output (hpwsh _)
    have hsome : bash "ll".toList = some "'ls -l'".toList := hbash [llAlias] rfl rfl "ll".toList
    rw [hrows]
    show conflictRows "ll".toList (pwsh "ll".toList) (bash "ll".toList) ++ [] = _
    rw [hnone, hsome]
    decide +kernel
  · obtain ⟨pwsh, bash, hrows, hpwsh, hbash, -, -⟩ := alias_conflicts llConfig_accepted
      ⟨none, some "alias foo='a\nalias ll=b'\n".toList, false⟩
    have hnone : pwsh "ll".toList = none := eq_none_of_no_output (hpwsh _)
    have hprinted : Printed "alias ".toList '=' "alias foo='a\nalias ll=b'\n".toList "ll".toList
        "b'".toList :=
      ⟨["alias foo='a".toList], "alias ll=b'".toList, [], by decide +kernel,
        ⟨"ll".toList, "b'".toList, by decide⟩, nofun⟩
    have hsome : bash "ll".toList = some "b'".toList :=
      (hbash _ _).mpr ⟨rfl, _, rfl, hprinted⟩
    rw [hrows]
    show conflictRows "ll".toList (pwsh "ll".toList) (bash "ll".toList) ++ [] = _
    rw [hnone, hsome]
    decide +kernel

end Runex
