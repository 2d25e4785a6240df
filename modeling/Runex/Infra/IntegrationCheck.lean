import Runex.Cmd.Init
import Runex.Lib.Lines

/-!
# The check of the integration cache

What `runex doctor` finds out about the cache of a shell from its first lines.

## Main definitions

- `scanCacheHeader` — the version and the binary in the first five lines
- `checkCacheFreshness` — the verdict on a cache
-/

namespace Runex

open FileSystem (Path)
open Search Text

inductive IntegrationCheck where
  | ok (name detail : Text)
  | outdated (name detail : Text) (path : Path)
  | missing (name detail : Text)
  | skipped (name detail : Text)
  deriving DecidableEq

def shellShortName : Shell → Text
  | .bash => "bash".toList
  | .zsh => "zsh".toList
  | .pwsh => "pwsh".toList
  | .nu => "nu".toList
  | .clink => "clink".toList

/-- The label before the binary. -/
def runexBinLabel : Text := "runex-bin: ".toList

/-- What is found in the first lines of a cache. The binary still has the blanks of its line. -/
structure CacheHeaderScan where
  versionLine : Option Text := none
  binLine : Option Text := none
  deriving DecidableEq

/-- One line: a later label replaces what an earlier line said. -/
def scanCacheLine (found : CacheHeaderScan) (line : Text) : CacheHeaderScan :=
  match splitOnce integrationCacheMarker line with
  | some (_, version) => { found with versionLine := some (trim version) }
  | none =>
    match splitOnce runexBinLabel line with
    | some (_, bin) => { found with binLine := some bin }
    | none => found

/-- The first five lines. -/
def scanCacheHeader (content : Text) : CacheHeaderScan :=
  ((lines content).take 5).foldl scanCacheLine {}

/-- `str::parse::<u32>`: a sign may precede the digits. -/
def parseVersion (s : Text) : Option ℕ :=
  let digits := if s.head? = some '+' then s.tail else s
  if digits = [] ∨ ¬ digits.all isAsciiDigit then none else parseU32 digits

/-- What the check asks the disk: whether a path exists, and the text of a regular file within the
    limit. -/
structure Disk where
  exists? : Text → Bool
  readCappedRegularFile : Path → Option Text

/-- The verdict on the cache of a shell. -/
def checkCacheFreshness (disk : Disk) (shell : Shell) (cacheHome : Option Path) :
    IntegrationCheck :=
  let name := "integration:".toList ++ shellShortName shell ++ ":cache".toList
  match cachePath shell cacheHome with
  | .ok none =>
    .skipped name "cache layout does not apply to clink (uses lua autoloader instead)".toList
  | .error e => .skipped name ("cache path could not be resolved: ".toList ++ e.display)
  | .ok (some target) =>
    let shown := sanitizeForDisplay (displayPath target)
    let short := shellShortName shell
    if ¬ disk.exists? (displayPath target) then
      .skipped name ("no cache at ".toList ++ shown ++ " — run `runex init ".toList ++ short ++
        "` to install".toList)
    else
      match disk.readCappedRegularFile target with
      | none =>
        .missing name ("cache file at ".toList ++ shown ++
          " exists but could not be read (not a regular file, or exceeds the 10 MB safety cap)".toList)
      | some content =>
        let found := scanCacheHeader content
        match found.versionLine with
        | none =>
          .outdated name ("cache at ".toList ++ shown ++
            " has no `runex-integration-version:` header — likely legacy `eval \"$(runex export ".toList
            ++ short ++ ")\"` content. Re-run `runex init ".toList ++ short ++
            "` to upgrade".toList) target
        | some version =>
          match parseVersion version with
          | none =>
            .outdated name ("cache at ".toList ++ shown ++ " has malformed version header `".toList ++
              sanitizeForDisplay version ++ "` — re-run `runex init ".toList ++ short ++
              "` to refresh".toList) target
          | some parsed =>
            if parsed ≠ integrationCacheVersion then
              .outdated name ("cache at ".toList ++ shown ++ " is version ".toList ++
                decimal parsed ++ " but this runex expects version ".toList ++
                decimal integrationCacheVersion ++ " — re-run `runex init ".toList ++ short ++
                "` to refresh".toList) target
            else
              let upToDate := .ok name ("cache up-to-date at ".toList ++ shown)
              match found.binLine with
              | none => upToDate
              | some binLine =>
                let bin := trim binLine
                if bin ≠ "runex".toList ∧ ¬ disk.exists? bin then
                  .outdated name ("cache at ".toList ++ shown ++
                    " bakes a `runex-bin:` of ".toList ++ sanitizeForDisplay bin ++
                    " which no longer exists. Re-run `runex init ".toList ++ short ++
                    "` to point the cache at the current binary".toList) target
                else upToDate

/-- The version number the check reads. -/
def CacheHeaderScan.version (found : CacheHeaderScan) : Option ℕ :=
  found.versionLine.bind parseVersion

/-- The baked binary the check reads. -/
def CacheHeaderScan.bin (found : CacheHeaderScan) : Option Text := found.binLine.map trim

end Runex
