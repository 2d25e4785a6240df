import Runex.App.Config.Edits
import Runex.Cmd.Config

/-!
# The subcommands that edit the configuration

`runex add` and `runex remove` edit the configuration file and then rewrite the installed caches from
what the file loads as; `runex config reload` only does the latter.

## Main definitions

- `refreshExistingCaches` — rewrite the installed caches, whatever the file loads as
- `MaintenanceCommand.program` — the three subcommands
- `Maintained.report` — what they print

## Main results

- `handleReload_eq` — a reload, with its report
-/

namespace Runex

open FileStore Process
open FileSystem (Path)
open Toml (Editor)

/-- `Debug` of a shell. -/
def Shell.debug : Shell → Text
  | .bash => "Bash".toList
  | .zsh => "Zsh".toList
  | .pwsh => "Pwsh".toList
  | .clink => "Clink".toList
  | .nu => "Nu".toList

inductive MaintenanceCommand where
  | add (key expand : Text) (whenCommandExists : Option (List Text))
  | remove (key : Text)
  | reload

/-- How such a command ends. -/
inductive Maintained where
  /-- An edit that is an error. -/
  | refused (e : ConfigError)
  | added (key expand : Text) (outcomes : List CacheRefresh)
  | removed (key : Text) (rules : ℕ) (outcomes : List CacheRefresh)
  | notFound (key : Text)
  /-- A reload of a file that does not load. -/
  | notLoaded (e : ConfigError)
  | reloaded (outcomes : List CacheRefresh)

/-- The warning of a refresh that follows an edit. -/
def CacheRefresh.warning : CacheRefresh → Option (Stream × Text)
  | .failed shell none error =>
    some (.stderr, "warning: cache refresh skipped for ".toList ++ shell.debug ++
      " (cannot resolve path: ".toList ++ error ++ [')'])
  | .failed shell (some path) error =>
    some (.stderr, "warning: failed to refresh ".toList ++ shell.debug ++ " cache at ".toList ++
      sanitizeForDisplay (displayPath path) ++ ": ".toList ++ error)
  | .refreshed _ _ | .notInstalled _ => none

/-- A report of an edit: a line, and the warnings. -/
def editReport (line : Text) (outcomes : List CacheRefresh) : Report where
  lines := (.stdout, line) :: outcomes.filterMap CacheRefresh.warning
  exitCode := 0

/-- What is printed; an error is printed by `main`. -/
def Maintained.report (configPath : Path) : Maintained → Except ConfigError Report
  | .refused e => .error e
  | .added key expand outcomes =>
    .ok (editReport ("Added: ".toList ++ sanitizeForDisplay key ++ " -> ".toList ++
      sanitizeForDisplay expand) outcomes)
  | .removed key rules outcomes =>
    .ok (editReport ("Removed ".toList ++ decimal rules ++ " rule(s) for '".toList ++
      sanitizeForDisplay key ++ ['\'']) outcomes)
  | .notFound key =>
    .ok (editReport ("No rule found for '".toList ++ sanitizeForDisplay key ++ ['\'']) [])
  | .notLoaded e => .ok (reportLoadError configPath e)
  | .reloaded outcomes => .ok (reportOutcomes outcomes)

section Programs

variable (engine : RegexLite) (reader : ConfigReader) (editor : Editor) (cacheHome : Option Path)
  (bin : Text) (configPath : Path)

/-- Rewrite the installed caches from what the file loads as; a file that does not load has no
    rules. An error is a panic. -/
def refreshExistingCaches : FileProgram Unit (List CacheRefresh) := do
  let config ← ExceptT.lift (Stepwise.loadConfig engine reader configPath).run
  refreshCachesWith cacheHome bin config.toOption

def handleAdd (key expand : Text) (whenCommandExists : Option (List Text)) :
    FileProgram Unit Maintained := do
  match ← ExceptT.lift
    (Stepwise.appendAbbrToFile engine reader configPath key expand whenCommandExists).run with
  | .error e => pure (.refused e)
  | .ok _ => do
    let outcomes ← refreshExistingCaches engine reader cacheHome bin configPath
    pure (.added key expand outcomes)

def handleRemove (key : Text) : FileProgram Unit Maintained := do
  match ← ExceptT.lift (Stepwise.removeAbbrFromFile engine reader editor configPath key).run with
  | .error e => pure (.refused e)
  | .ok removed =>
    if removed > 0 then do
      let outcomes ← refreshExistingCaches engine reader cacheHome bin configPath
      pure (.removed key removed outcomes)
    else pure (.notFound key)

/-- A reload refreshes only from a file that loads. -/
def reloadCaches : FileProgram Unit Maintained := do
  match ← ExceptT.lift (Stepwise.loadConfig engine reader configPath).run with
  | .error e => pure (.notLoaded e)
  | .ok config => do
    let outcomes ← refreshCachesWith cacheHome bin (some config)
    pure (.reloaded outcomes)

def MaintenanceCommand.program : MaintenanceCommand → FileProgram Unit Maintained
  | .add key expand whenCommandExists =>
    handleAdd engine reader cacheHome bin configPath key expand whenCommandExists
  | .remove key => handleRemove engine reader editor cacheHome bin configPath key
  | .reload => reloadCaches engine reader cacheHome bin configPath

/-- The reload of `config reload` is this one, and its report. -/
theorem handleReload_eq :
    (handleReload engine reader cacheHome bin configPath).run =
      (reloadCaches engine reader cacheHome bin configPath).run >>= fun ended =>
        pure (ended.bind fun m => (m.report configPath).mapError fun _ => ()) := by
  rw [handleReload, reloadCaches, Prog.run_lift_bind, Prog.run_lift_bind, Prog.bind_assoc]
  refine congrArg _ (funext fun result => ?_)
  cases result with
  | error e => rfl
  | ok config =>
    change (refreshCachesWith cacheHome bin (some config)).run >>= _ =
      ((refreshCachesWith cacheHome bin (some config)).run >>= _) >>= _
    rw [Prog.bind_assoc]
    refine congrArg _ (funext fun outcomes => ?_)
    cases outcomes <;> rfl

end Programs

end Runex
