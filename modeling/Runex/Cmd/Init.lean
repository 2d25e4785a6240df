import Runex.App.ShellExport
import Runex.Infra.IntegrationCache

/-!
# Writing the integration files

The installation of the clink script and the refresh of the caches that are installed.

## Main definitions

- `writeClinkLuaSafely` — replace the clink script
- `refreshCachesWith` — rewrite every installed cache
-/

namespace Runex

open FileStore Process
open FileSystem (Path)

/-- The errors are texts. -/
def clinkWriteErrors : WriteErrors Text where
  noParent path :=
    "clink lua install path has no parent directory: ".toList ++
      sanitizeForDisplay (displayPath path)
  symlinkAtTarget path :=
    "refusing to write through a symlink at ".toList ++ sanitizeForDisplay (displayPath path)
  noFileName path :=
    "clink lua install path has no file name: ".toList ++ sanitizeForDisplay (displayPath path)
  io _ e := e.message

/-- Replace the clink script, but not a link. -/
def writeClinkLuaSafely (installPath : Path) (contents : Text) : FileProgram Text Unit :=
  writeRefusingSymlink clinkWriteErrors installPath contents

/-- What happened to one shell's cache during a refresh. -/
inductive CacheRefresh where
  | refreshed (shell : Shell) (path : Path)
  | notInstalled (shell : Shell)
  | failed (shell : Shell) (path : Option Path) (error : Text)
  deriving DecidableEq

def CacheRefresh.shell : CacheRefresh → Shell
  | .refreshed shell _ | .notInstalled shell | .failed shell _ _ => shell

def cacheShells : List Shell := [.bash, .zsh, .pwsh, .nu]

/-- What a refresh writes to the cache of a shell; `none` is a panic. -/
def cacheContents (shell : Shell) (bin : Text) (config : Option Config) : Option Text :=
  (exportScript shell bin config).map fun body =>
    cacheHeader (commentPrefixFor shell) bin ++ body

section Refresh

variable (cacheHome : Option Path) (bin : Text) (config : Option Config)

/-- Refresh the cache of one shell, if it is installed. An error is a panic. -/
def refreshCache (shell : Shell) : FileProgram Unit (Option CacheRefresh) :=
  match cachePath shell cacheHome with
  | .ok none => pure none
  | .error e => pure (some (.failed shell none e.display))
  | .ok (some target) => do
    match ← attempt (.metadata target) with
    | .error e =>
      if e.kind = .notFound then pure (some (.notInstalled shell))
      else
        pure (some (.failed shell (some target) ("cannot inspect cache at ".toList ++
          sanitizeForDisplay (displayPath target) ++ ": ".toList ++ e.message)))
    | .ok info =>
      if info.fileType ≠ .file then
        pure (some (.failed shell (some target) "cache path is not a regular file".toList))
      else
        match cacheContents shell bin config with
        | none => throw ()
        | some contents =>
          match ← ExceptT.lift (writeCacheFile target contents).run with
          | .ok _ => pure (some (.refreshed shell target))
          | .error e => pure (some (.failed shell (some target) e.display))

def refreshEach : List Shell → FileProgram Unit (List CacheRefresh)
  | [] => pure []
  | shell :: shells => do
    let outcome ← refreshCache cacheHome bin config shell
    let outcomes ← refreshEach shells
    pure (outcome.toList ++ outcomes)

/-- Rewrite every installed cache and report the outcome of each shell. -/
def refreshCachesWith : FileProgram Unit (List CacheRefresh) :=
  refreshEach cacheHome bin config cacheShells

end Refresh

end Runex
