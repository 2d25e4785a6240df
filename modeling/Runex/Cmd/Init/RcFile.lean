import Runex.Cmd.Init
import Runex.Domain.Integration
import Runex.Infra.ConfigStore.Stepwise

/-!
# The integration line of the rc file

`runex init` writes the integration cache of a shell and appends a line to its rc file that sources
it, below a marker that says so.

## Main definitions

- `rcFileFor` — the rc file of a shell
- `readRcContent` — what is read of it
- `installRcfileIntegration` — the installation
-/

namespace Runex

open FileStore Process
open FileSystem (Path)

/-- What the environment says about the directories of the user. -/
structure HomeDirs where
  homeDir : Option Path
  xdgConfigHome : Option Path
  xdgCacheHome : Option Path

def xdgConfigHomeWith (env : HomeDirs) : Option Path :=
  env.xdgConfigHome.or (env.homeDir.map (· ++ [".config".toList]))

def xdgCacheHomeWith (env : HomeDirs) : Option Path :=
  env.xdgCacheHome.or (env.homeDir.map (· ++ [".cache".toList]))

/-- The path of a shell's rc file. Clink has none. -/
def rcFileFor (shell : Shell) (env : HomeDirs) : Option Path :=
  env.homeDir.bind fun home =>
    match shell with
    | .bash => some (home ++ [".bashrc".toList])
    | .zsh => some (home ++ [".zshrc".toList])
    | .pwsh => some (home ++
        [".config".toList, "powershell".toList, "Microsoft.PowerShell_profile.ps1".toList])
    | .nu => some ((xdgConfigHomeWith env).getD (home ++ [".config".toList]) ++
        ["nushell".toList, "env.nu".toList])
    | .clink => none

def runexInitMarker : Text := "# runex-init".toList

def maxRcFileBytes : ℕ := 1024 * 1024

/-- Read an rc file to look for the marker. Whatever goes wrong, nothing has been read. -/
def readRcContent {ε : Type} (path : Path) : FileProgram ε Text := do
  match ← attempt (.openRead path) with
  | .error _ => pure []
  | .ok file =>
    match ← attempt (.openMetadata file) with
    | .error _ => pure []
    | .ok info =>
      if info.fileType ≠ .file then pure []
      else if info.len > maxRcFileBytes then pure []
      else
        match ← attempt (.readInto file) with
        | .error _ => pure []
        | .ok content => pure content

/-- What is appended to the rc file. -/
def rcBlock (shell : Shell) (cacheStr : Text) : Text :=
  '\n' :: (runexInitMarker ++ '\n' :: (integrationLine shell cacheStr ++ ['\n']))

/-- The question before an installation. -/
def installPrompt (markerPresent : Bool) (cachePath rcPath : Path) : Text :=
  if markerPresent then
    "Refresh shell integration cache at ".toList ++ sanitizeForDisplay (displayPath cachePath) ++
      ['?']
  else
    "Install shell integration (cache at ".toList ++ sanitizeForDisplay (displayPath cachePath) ++
      ", source line in ".toList ++ sanitizeForDisplay (displayPath rcPath) ++ ")?".toList

inductive InstallError where
  | message (text : Text)
  | panic

def InstallError.io (e : OsError) : InstallError := .message e.message

/-- Append to the rc file, which may have to be created. -/
def appendToRcFile (rcPath : Path) (block : Text) : FileProgram InstallError Unit := do
  match parent rcPath with
  | none => pure ()
  | some dir => orThrow .io (.createDirAll dir)
  let file ← orThrow .io (.openAppend rcPath)
  writeAll .io file (utf8 block).length (utf8 block)

section Install

variable (engine : RegexLite) (reader : ConfigReader) (shell : Shell) (configPath : Path)
  (yes : Bool) (promptConfirm : Text → Bool) (bin : Text) (env : HomeDirs)

/-- Write the cache and append the line that sources it, unless the marker is there. `promptConfirm`
    is what the user answers. Without an rc file nothing is done. -/
def installRcfileIntegration : FileProgram InstallError (Option Path) :=
  match rcFileFor shell env with
  | none => pure none
  | some rcPath =>
    match cachePath shell (xdgCacheHomeWith env) with
    | .error e => throw (.message e.display)
    | .ok none => throw .panic
    | .ok (some target) => do
      let existing ← readRcContent rcPath
      let markerPresent : Bool := runexInitMarker <:+: existing
      if ¬ (yes || promptConfirm (installPrompt markerPresent target rcPath)) then
        pure (some rcPath)
      else
        let config ← ExceptT.lift (Stepwise.loadConfig engine reader configPath).run
        match cacheContents shell bin config.toOption with
        | none => throw .panic
        | some contents =>
          match ← ExceptT.lift (writeCacheFile target contents).run with
          | .error e => throw (.message e.display)
          | .ok _ =>
            if ¬ markerPresent then appendToRcFile rcPath (rcBlock shell (displayPath target))
            pure (some rcPath)

end Install

end Runex
