import Runex.App.Config.Display
import Runex.App.Precache
import Runex.Domain.Timings
import Runex.Infra.IntegrationCache
import Runex.Infra.WinPath.Merge
import Runex.Util.Shell

/-!
# The `timings` subcommand

The configuration is loaded and the shell is found, each within a phase of its own. Then one key is
timed, or every key of the configuration once, over one closure and one record.

## Main definitions

- `resolveConfig` — the configuration a command works with
- `TimingsWorld`, `TimingsFlags` — what `runex timings` finds and is asked
- `timeKeys` — the loop over the keys
- `handleTimings` — the record that is printed

## Main results

- `timeKeys_spec` — what the loop adds to the record
- `timings_account` — how the command ends, and the whole record
-/

namespace Runex

open FileSystem (Path)
open Text (byteLen)
open Timings (CommandExistsCall)

/-- Upper bound on the token a subcommand looks at. -/
def maxTokenBytes : ℕ := 1024

/-- The keys of the rules, each at its first occurrence. -/
def uniqueKeys (config : Config) : List Text := uniqueCommands [] (config.abbr.map (·.key))

variable {σ : Type}

/-- The loop over the keys, with the memory of the closure, the readings and the record. -/
def timeKeys (engine : RegexLite) (config : Config) (shell : Shell) (clock : Clock)
    (commandExists : Text → σ → Bool × σ) : List Text → σ × ℕ × Timings → σ × ℕ × Timings
  | [], state => state
  | key :: keys, (memory, readings, timings) =>
    timeKeys engine config shell clock commandExists keys
      (expandTimed engine config key shell clock commandExists memory readings timings).2

/-- `resolve_config`. `load` is `load_config`, whatever it finds. -/
def resolveConfig (load : Path → Except ConfigError Config)
    (defaultConfigPath : Except ConfigError Path) (configOverride : Option Path) :
    Except Text (Path × Config) :=
  let loadAt (path : Path) : Except Text (Path × Config) :=
    match load path with
    | .error e =>
      .error ("failed to load config ".toList ++ (sanitizeForDisplay (displayPath path) ++
        (": ".toList ++ e.display)))
    | .ok config => .ok (path, config)
  match configOverride with
  | some path => loadAt path
  | none =>
    match defaultConfigPath with
    | .error e => .error e.display
    | .ok path => loadAt path

/-- What `runex timings` finds. -/
structure TimingsWorld where
  load : Path → Except ConfigError Config
  defaultConfigPath : Except ConfigError Path
  shellEnv : ShellEnv
  lookups : Lookups
  pathSources : PathSources
  /-- The commands of the precache, where its fingerprint is that of this file and shell. -/
  hint : Path → Shell → Option CommandMap

/-- What `runex timings` is asked, apart from the form of the output. -/
structure TimingsFlags where
  key : Option Text
  shell : Option Text
  config : Option Path
  pathPrepend : Option Path

/-- The record that `handle` prints. An error is one that `main` prints, `some (.ok none)` is the
    refusal of a long key, and `none` is a panic. -/
def handleTimings (engine : RegexLite) (clock : Clock) (w : TimingsWorld) (flags : TimingsFlags) :
    Option (Except Text (Option Timings)) :=
  let timings : Timings := {}
  match resolveConfig w.load w.defaultConfigPath flags.config with
  | .error e => some (.error e)
  | .ok (configPath, config) =>
    let timings := timings.recordPhase "config_load".toList (clock.reading 1 - clock.reading 0)
    match resolveShell w.shellEnv flags.shell with
    | .error e => some (.error e)
    | .ok found => do
      let shell := found.getD .bash
      let timings := timings.recordPhase "shell_resolve".toList (clock.reading 3 - clock.reading 2)
      -- On Windows the closure reads the search path as it is made.
      let _ ← searchPathFor w.lookups.windows w.pathSources
      let commandExists := makeCommandExists w.lookups flags.pathPrepend (w.hint configPath shell)
      match flags.key with
      | some key =>
        if byteLen key > maxTokenBytes then return .ok none
        else
          return .ok (some (expandTimed engine config key shell clock commandExists ∅ 4
            timings).2.2.2)
      | none =>
        return .ok (some (timeKeys engine config shell clock commandExists (uniqueKeys config)
          (∅, 4, timings)).2.2)

/-- The keys that are timed. -/
def timedKeys (config : Config) (key : Option Text) : List Text :=
  match key with
  | some key => [key]
  | none => uniqueKeys config

variable {engine : RegexLite} {clock : Clock} {query : Text → σ → Bool × σ} {answer : Text → Bool}
  {inv : σ → Prop} {w : TimingsWorld} {flags : TimingsFlags}

/-- A record whose calls lie within its phases, and its phases within the readings from the first to
    the one with number `last`. -/
structure Accounts (clock : Clock) (last : ℕ) (timings : Timings) : Prop where
  calls_le : timeIn timings.commandExistsCalls ≤ timings.totalDuration
  total_le : clock.reading 0 + timings.totalDuration ≤ clock.reading last

/-- Timing keys keeps the account, and adds a phase and the questions of each key in turn. -/
theorem timeKeys_spec (engine : RegexLite) (config : Config) (shell : Shell)
    (h : Asking.Transparent answer query inv) (keys : List Text) {memory : σ} (hinv : inv memory)
    {last : ℕ} {timings : Timings} (haccounts : Accounts clock last timings) :
    ∃ memory' timings' calls,
      timeKeys engine config shell clock query keys (memory, last + 1, timings) =
        (memory', last + 2 * keys.length + 2 * calls.length + 1, timings') ∧
      Accounts clock (last + 2 * keys.length + 2 * calls.length) timings' ∧
      timings'.phases.map (·.name) =
        timings.phases.map (·.name) ++ keys.map (fun _ => "expand".toList) ∧
      timings'.commandExistsCalls = timings.commandExistsCalls ++ calls ∧
      Records answer (keys.flatMap fun key => expandQuestions engine config key shell answer)
        calls := by
  induction keys generalizing memory last timings with
  | nil => exact ⟨memory, timings, [], rfl, haccounts, by simp, by simp, Records.nil⟩
  | cons key keys ih =>
    obtain ⟨memory', duration, calls, hexpand, hinv', hrecords, hcalls, hclock⟩ :=
      expandTimed_spec clock engine config key shell h hinv (last + 1) timings
    let timings' : Timings :=
      { phases := timings.phases ++ [⟨"expand".toList, duration⟩]
        commandExistsCalls := timings.commandExistsCalls ++ calls }
    have htotal : timings'.totalDuration = timings.totalDuration + duration := by
      simp [timings', Timings.totalDuration]
    have hstart := clock.monotone last
    have hlast : last + 1 + 1 + 2 * calls.length = last + 2 + 2 * calls.length := by omega
    rw [hlast] at hclock
    have haccounts' : Accounts clock (last + 2 + 2 * calls.length) timings' := by
      obtain ⟨hle, htotal_le⟩ := haccounts
      constructor
      · show timeIn (timings.commandExistsCalls ++ calls) ≤ _
        rw [timeIn_append, htotal]
        omega
      · rw [htotal]
        omega
    obtain ⟨memory'', timings'', more, hloop, haccounts'', hphases, hmore, hrecords'⟩ :=
      ih hinv' haccounts'
    have hreadings : last + 2 + 2 * calls.length + 2 * keys.length + 2 * more.length =
        last + 2 * (key :: keys).length + 2 * (calls ++ more).length := by
      rw [List.length_cons, List.length_append]
      omega
    rw [hreadings] at hloop haccounts''
    refine ⟨memory'', timings'', calls ++ more, ?_, haccounts'', ?_, ?_, ?_⟩
    · rw [timeKeys, hexpand]
      have hnext : last + 1 + 2 + 2 * calls.length = last + 2 + 2 * calls.length + 1 := by omega
      rw [hnext]
      exact hloop
    · rw [hphases]
      simp [timings']
    · rw [hmore, ← List.append_assoc]
    · rw [List.flatMap_cons]
      exact hrecords.append hrecords'

/-- The record once the configuration is loaded and the shell is found: one key is timed as a list
    of one. -/
theorem handleTimings_eq {path : Path} {config : Config} {found : Option Shell}
    (hconfig : resolveConfig w.load w.defaultConfigPath flags.config = .ok (path, config))
    (hshell : resolveShell w.shellEnv flags.shell = .ok found) :
    handleTimings engine clock w flags =
      (searchPathFor w.lookups.windows w.pathSources).map fun _ =>
        if ∃ k, flags.key = some k ∧ maxTokenBytes < byteLen k then .ok none
        else
          .ok (some (timeKeys engine config (found.getD .bash) clock
            (makeCommandExists w.lookups flags.pathPrepend (w.hint path (found.getD .bash)))
            (timedKeys config flags.key) (∅, 4,
              { phases :=
                  [⟨"config_load".toList, clock.reading 1 - clock.reading 0⟩,
                    ⟨"shell_resolve".toList, clock.reading 3 - clock.reading 2⟩] })).2.2) := by
  rw [handleTimings, hconfig, hshell]
  cases searchPathFor w.lookups.windows w.pathSources with
  | none => rfl
  | some combined =>
    cases hkey : flags.key with
    | none =>
      rw [Option.map_some, if_neg (by simp)]
      rfl
    | some key =>
      simp only [Option.some.injEq, exists_eq_left', gt_iff_lt, Option.map_some]
      by_cases hlong : maxTokenBytes < byteLen key
      · rw [if_pos hlong, if_pos hlong]
        rfl
      · rw [if_neg hlong, if_neg hlong]
        rfl

/-- An error is that of loading the configuration or of finding the shell. -/
theorem handleTimings_eq_error {message : Text} :
    handleTimings engine clock w flags = some (.error message) ↔
      resolveConfig w.load w.defaultConfigPath flags.config = .error message ∨
        ∃ loaded, resolveConfig w.load w.defaultConfigPath flags.config = .ok loaded ∧
          resolveShell w.shellEnv flags.shell = .error message := by
  cases hconfig : resolveConfig w.load w.defaultConfigPath flags.config with
  | error e =>
    have herror : handleTimings engine clock w flags = some (.error e) := by
      rw [handleTimings, hconfig]
    simp [herror]
  | ok loaded =>
    cases hshell : resolveShell w.shellEnv flags.shell with
    | error e =>
      have herror : handleTimings engine clock w flags = some (.error e) := by
        rw [handleTimings, hconfig, hshell]
      simp [herror]
    | ok found =>
      obtain ⟨record, hrecord⟩ : ∃ record : Timings, handleTimings engine clock w flags =
          (searchPathFor w.lookups.windows w.pathSources).map fun _ =>
            if ∃ k, flags.key = some k ∧ maxTokenBytes < byteLen k then .ok none
            else .ok (some record) := ⟨_, handleTimings_eq hconfig hshell⟩
      rw [hrecord]
      cases searchPathFor w.lookups.windows w.pathSources with
      | none => simp
      | some combined =>
        rw [Option.map_some]
        split <;> simp

/-- **What `runex timings` prints.** For every configuration, shell, clock that never runs backward
    and file system: it fails with the errors of loading the configuration and of finding the shell.
    After that it panics exactly on Windows with a registry value that cannot be read, and else
    refuses a key exactly when the key is too long. Otherwise the record has the phases of loading,
    of finding the shell and one per timed key, and the calls are the questions of the plain scan of
    each key in turn, with its answers, a call being called cached exactly below a tenth of a
    millisecond; the time in the calls is at most the total, and the total at most the time between
    the first and the last reading of the clock, which is read twice for each phase and each
    call. -/
theorem timings_account (engine : RegexLite) (clock : Clock) (w : TimingsWorld)
    (flags : TimingsFlags) :
    (∀ message, handleTimings engine clock w flags = some (.error message) ↔
      resolveConfig w.load w.defaultConfigPath flags.config = .error message ∨
        ∃ loaded, resolveConfig w.load w.defaultConfigPath flags.config = .ok loaded ∧
          resolveShell w.shellEnv flags.shell = .error message) ∧
    ∀ path config found,
      resolveConfig w.load w.defaultConfigPath flags.config = .ok (path, config) →
      resolveShell w.shellEnv flags.shell = .ok found →
      let shell := found.getD .bash
      let installed := commandExists w.lookups flags.pathPrepend (w.hint path shell)
      let keys := timedKeys config flags.key
      let panics := w.lookups.windows = true ∧
        ¬ (CanBeRead w.pathSources.user ∧ CanBeRead w.pathSources.system)
      (handleTimings engine clock w flags = none ↔ panics) ∧
      (handleTimings engine clock w flags = some (.ok none) ↔
        ¬ panics ∧ ∃ k, flags.key = some k ∧ maxTokenBytes < byteLen k) ∧
      ∀ timings, handleTimings engine clock w flags = some (.ok (some timings)) →
        timings.phases.map (·.name) =
          "config_load".toList :: "shell_resolve".toList :: keys.map (fun _ => "expand".toList) ∧
        Records installed (keys.flatMap fun k => expandQuestions engine config k shell installed)
          timings.commandExistsCalls ∧
        Accounts clock (3 + 2 * keys.length + 2 * timings.commandExistsCalls.length) timings := by
  refine ⟨fun _ => handleTimings_eq_error, ?_⟩
  intro path config found hconfig hshell shell installed keys panics
  rw [handleTimings_eq hconfig hshell, Option.map_eq_none_iff, searchPathFor_eq_none_iff]
  refine ⟨Iff.rfl, ?_⟩
  have hpanics : searchPathFor w.lookups.windows w.pathSources = none ↔ panics :=
    searchPathFor_eq_none_iff
  cases hpath : searchPathFor w.lookups.windows w.pathSources with
  | none => exact ⟨iff_of_false nofun fun h => h.1 (hpanics.mp hpath), nofun⟩
  | some combined =>
    have hno : ¬ panics := by
      rw [← hpanics, hpath]
      exact Option.some_ne_none _
    rw [Option.map_some]
    split
    · next hlong => exact ⟨iff_of_true rfl ⟨hno, hlong⟩, nofun⟩
    · next hshort =>
      refine ⟨iff_of_false nofun fun h => hshort h.2, ?_⟩
      rintro _ ⟨⟩
      have hload : clock.reading 0 ≤ clock.reading 1 := clock.monotone 0
      have hbetween : clock.reading 1 ≤ clock.reading 2 := clock.monotone 1
      have hresolve : clock.reading 2 ≤ clock.reading 3 := clock.monotone 2
      have hstart : Accounts clock 3
          { phases :=
              [⟨"config_load".toList, clock.reading 1 - clock.reading 0⟩,
                ⟨"shell_resolve".toList, clock.reading 3 - clock.reading 2⟩] } := by
        constructor
        · exact Nat.zero_le _
        · simp only [Timings.totalDuration, List.map_cons, List.map_nil, List.sum_cons,
            List.sum_nil]
          omega
      have hclosure : Asking.Transparent installed
          (makeCommandExists w.lookups flags.pathPrepend (w.hint path shell))
          (Memo.Sound installed) := answers_makeCommandExists
      obtain ⟨memory', timings', calls, hloop, haccounts, hphases, hcalls, hrecords⟩ :=
        timeKeys_spec engine config shell hclosure keys Memo.sound_empty hstart
      rw [List.nil_append] at hcalls
      subst hcalls
      rw [hloop]
      exact ⟨hphases, hrecords, haccounts⟩

/-- One rule, for a command that is installed. -/
def timedConfig : Config where
  version := 1
  keybind := {}
  precache := {}
  abbr := [{ key := "ll".toList, expand := .all "ls -l".toList,
             whenCommandExists := some (.all ["ls".toList]) }]

def timedWorld : TimingsWorld where
  load _ := .ok timedConfig
  defaultConfigPath := .ok ["config.toml".toList]
  shellEnv := { shellName := some "bash".toList, psModulePath := false }
  lookups := { windows := false, isFile := fun _ => false, which := fun cmd => cmd = "ls".toList }
  pathSources := ⟨none, none, none, fun _ => none⟩
  hint _ _ := none

/-- The clock is read eight times, and the one question is answered in sixty microseconds. -/
theorem timings_account_every : ∃ timings,
    handleTimings default (.every 60000) timedWorld ⟨none, none, none, none⟩ =
      some (.ok (some timings)) ∧
    timings.phases.map (·.name) =
      ["config_load".toList, "shell_resolve".toList, "expand".toList] ∧
    timings.commandExistsCalls.map (·.command) = ["ls".toList] ∧
    (∀ call ∈ timings.commandExistsCalls, call.found = true) ∧
    timings.totalDuration ≤ 420000 := by
  obtain ⟨herror, hrecord⟩ := timings_account default (.every 60000) timedWorld
    ⟨none, none, none, none⟩
  obtain ⟨hpanic, hrefused, hrecord⟩ := hrecord _ timedConfig (some .bash) rfl rfl
  cases hended : handleTimings default (.every 60000) timedWorld ⟨none, none, none, none⟩ with
  | none => exact absurd (hpanic.mp hended).1 Bool.false_ne_true
  | some result =>
    rcases result with message | _ | timings
    · rcases (herror message).mp hended with h | ⟨_, _, h⟩ <;> cases h
    · obtain ⟨-, _, h, -⟩ := hrefused.mp hended
      cases h
    · obtain ⟨hphases, hcalls, haccounts⟩ := hrecord timings hended
      have hcommands : timings.commandExistsCalls.map (·.command) = ["ls".toList] :=
        hcalls.commands.trans (by decide +kernel)
      have hlength : timings.commandExistsCalls.length = 1 := by
        simpa using congrArg List.length hcommands
      refine ⟨timings, rfl, hphases, hcommands, fun call hcall => ?_, ?_⟩
      · have hls : call.command ∈ ["ls".toList] := hcommands ▸ List.mem_map_of_mem hcall
        rw [hcalls.found call hcall, List.mem_singleton.mp hls]
        decide
      · have hkeys : (timedKeys timedConfig none).length = 1 := by decide
        have htotal := haccounts.total_le
        rw [hlength, hkeys] at htotal
        simpa [Clock.every] using htotal

end Runex
