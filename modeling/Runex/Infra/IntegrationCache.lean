import Runex.Infra.AtomicWrite

/-!
# The integration cache

The file a shell sources at startup: where it is, its header, and how it is written.

## Main definitions

- `cachePath` — the path of a shell's cache
- `cacheHeader` — the lines before the script
- `writeCacheFile` — replace a cache
-/

namespace Runex

open FileStore
open FileSystem (Path)

/-- `path.display()` -/
def displayPath (path : Path) : Text :=
  if path = [] then ['/'] else path.flatMap fun name => '/' :: name

/-- Why a cache could not be written. -/
inductive CacheError where
  | noCacheDir
  | symlinkAtTarget (path : Path)
  | noParent (path : Path)
  | noFileName (path : Path)
  | io (path : Path) (source : OsError)

def CacheError.display : CacheError → Text
  | .noCacheDir => "cannot resolve cache directory (set $XDG_CACHE_HOME or $HOME)".toList
  | .symlinkAtTarget path => "refusing to write through a symlink at ".toList ++ displayPath path
  | .noParent path => "cache path has no parent directory: ".toList ++ displayPath path
  | .noFileName path => "cache path has no file name: ".toList ++ displayPath path
  | .io path source =>
    "OS error writing cache at ".toList ++ displayPath path ++ ": ".toList ++ source.message

/-- `<cache home>/runex/integration.<ext>`. Clink has no cache. -/
def cachePath (shell : Shell) (cacheHome : Option Path) : Except CacheError (Option Path) :=
  let inCache (ext : Text) : Except CacheError (Option Path) :=
    match cacheHome with
    | none => .error .noCacheDir
    | some cacheRoot => .ok (some (cacheRoot ++ ["runex".toList, "integration.".toList ++ ext]))
  match shell with
  | .bash => inCache "bash".toList
  | .zsh => inCache "zsh".toList
  | .pwsh => inCache "ps1".toList
  | .nu => inCache "nu".toList
  | .clink => .ok none

/-- The name of a cache. -/
def cacheName : Shell → Text
  | .bash => "integration.bash".toList
  | .zsh => "integration.zsh".toList
  | .pwsh => "integration.ps1".toList
  | .nu => "integration.nu".toList
  | .clink => []

theorem cachePath_eq_some {shell : Shell} {cacheHome : Option Path} {target : Path}
    (h : cachePath shell cacheHome = .ok (some target)) :
    shell ≠ .clink ∧ ∃ root, cacheHome = some root ∧
      target = root ++ ["runex".toList] ++ [cacheName shell] := by
  cases cacheHome with
  | none => cases shell <;> cases h
  | some root =>
    cases shell with
    | clink => cases h
    | _ =>
      cases h
      exact ⟨Shell.noConfusion, root, rfl, by rw [List.append_assoc]; rfl⟩

theorem exists_tempPath {shell : Shell} {cacheHome : Option Path} {target : Path}
    (h : cachePath shell cacheHome = .ok (some target)) : ∃ tmp, tempPath target = some tmp := by
  obtain ⟨-, root, -, rfl⟩ := cachePath_eq_some h
  exact ⟨_, tempPath_concat _ _⟩

/-- A file of another name is neither the cache nor its temporary file. -/
theorem ne_cachePath_of_name_ne {shell : Shell} {cacheHome : Option Path} {target : Path}
    (h : cachePath shell cacheHome = .ok (some target)) (dir : Path) {name : Text}
    (hname : name ≠ cacheName shell)
    (htmp : name ≠ '.' :: (cacheName shell ++ ".runex.tmp".toList)) :
    dir ++ [name] ≠ target ∧ tempPath target ≠ some (dir ++ [name]) := by
  obtain ⟨-, root, -, rfl⟩ := cachePath_eq_some h
  rw [tempPath_concat]
  constructor
  · intro heq
    exact hname (List.singleton_inj.mp (List.append_inj' heq rfl).2)
  · intro heq
    exact htmp (List.singleton_inj.mp (List.append_inj' (Option.some.inj heq) rfl).2).symm

def cacheWriteErrors : WriteErrors CacheError where
  noParent := .noParent
  symlinkAtTarget := .symlinkAtTarget
  noFileName := .noFileName
  io := .io

/-- Replace a cache, but not a link. -/
def writeCacheFile (path : Path) (contents : Text) : FileProgram CacheError Unit :=
  writeRefusingSymlink cacheWriteErrors path contents

def integrationCacheVersion : ℕ := 3

def integrationCacheMarker : Text := "runex-integration-version:".toList

/-- The three lines before the script. -/
def cacheHeader (commentPrefix bin : Text) : Text :=
  commentPrefix ++ [' '] ++ integrationCacheMarker ++ [' '] ++ decimal integrationCacheVersion ++
    ['\n'] ++ commentPrefix ++ " runex-bin: ".toList ++ bin ++ ['\n'] ++ commentPrefix ++
    " Generated by `runex init <shell>`; do not edit.\n".toList

def commentPrefixFor : Shell → Text
  | .bash | .zsh | .pwsh | .nu => ['#']
  | .clink => "--".toList

end Runex
