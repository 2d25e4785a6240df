import Runex.App.Config.Display
import Runex.Cmd.Init
import Runex.Infra.ConfigStore.Stepwise

/-!
# The `config reload` subcommand

## Main definitions

- `handleReload` — regenerate the installed caches from the configuration file
- `Report` — what is printed, and the exit code
-/

namespace Runex

open FileStore Process
open FileSystem (Path)

inductive Stream where
  | stdout
  | stderr
  deriving DecidableEq

structure Report where
  lines : List (Stream × Text)
  exitCode : ℕ
  deriving DecidableEq

/-- `Display` of a shell. -/
def Shell.display : Shell → Text
  | .bash => "bash".toList
  | .zsh => "zsh".toList
  | .pwsh => "pwsh".toList
  | .clink => "clink".toList
  | .nu => "nu".toList

def CacheRefresh.isFailed : CacheRefresh → Bool
  | .failed _ _ _ => true
  | _ => false

/-- The line for one outcome. -/
def CacheRefresh.line : CacheRefresh → Stream × Text
  | .refreshed shell path =>
    (.stdout, shell.display ++ ": refreshed ".toList ++ sanitizeForDisplay (displayPath path))
  | .notInstalled shell =>
    (.stdout, shell.display ++ ": not installed (run `runex init ".toList ++ shell.display ++
      "` to create its cache)".toList)
  | .failed shell _ error => (.stderr, shell.display ++ ": failed: ".toList ++ error)

def reportOutcomes (outcomes : List CacheRefresh) : Report where
  lines := outcomes.map CacheRefresh.line
  exitCode := if outcomes.any CacheRefresh.isFailed then 1 else 0

def reportLoadError (configPath : Path) (e : ConfigError) : Report where
  lines := [(.stderr, "error: config at ".toList ++ sanitizeForDisplay (displayPath configPath) ++
    " did not load, caches left untouched: ".toList ++ e.display)]
  exitCode := 1

/-- Regenerate the installed caches. An error is a panic. -/
def handleReload (engine : RegexLite) (reader : ConfigReader) (cacheHome : Option Path) (bin : Text)
    (configPath : Path) : FileProgram Unit Report := do
  match ← ExceptT.lift (Stepwise.loadConfig engine reader configPath).run with
  | .error e => pure (reportLoadError configPath e)
  | .ok config => do
    let outcomes ← refreshCachesWith cacheHome bin (some config)
    pure (reportOutcomes outcomes)

end Runex
