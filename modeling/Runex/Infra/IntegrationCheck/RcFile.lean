import Runex.Cmd.Init.RcFile
import Runex.Infra.IntegrationCheck
import Runex.Lib.Lines.Split

/-!
# The checks of the rc file and of the clink script

What `runex doctor` finds out about the rc file of a shell and about the script of clink. An rc file
with the marker is outdated if one of its lines still calls `runex export` for the shell.

## Main definitions

- `classifyRcfileContent` — the verdict on the lines of an rc file
- `checkRcfileMarker` — the check of the rc file
- `checkClinkLuaFreshness` — the check of the clink script

## Main results

- `containsLegacyExportToken_append_rcBlock` — what the block of an installation adds to it
- `checkRcfileMarker_of_marked` — the verdict on a file that can be read and has the marker
-/

namespace Runex

open FileSystem (Path)
open Search Text

-- ════════════════════════════════════════════════════════════════════════
-- The rc file
-- ════════════════════════════════════════════════════════════════════════

inductive RcfileIntegrationStatus where
  | ok
  | outdated (hasExpected hasLegacy : Bool)
  deriving DecidableEq, Repr

/-- Some line is this one, up to blanks around it. -/
def containsExpectedLine (content expectedLine : Text) : Bool :=
  let expected := trim expectedLine
  if expected = [] then false
  else (lines (normalizeNewlines content)).any fun line => trim line == expected

def legacyExportToken : Shell → Text
  | .bash => "export bash".toList
  | .zsh => "export zsh".toList
  | .pwsh => "export pwsh".toList
  | .nu => "export nu".toList
  | .clink => "export clink".toList

/-- A line that is no comment has the token. -/
def isLegacyLine (shell : Shell) (line : Text) : Bool :=
  !((trimStart line).head? == some '#') && decide (legacyExportToken shell <:+: line)

/-- Some line that is no comment calls `export` for the shell. -/
def containsLegacyExportToken (shell : Shell) (content : Text) : Bool :=
  (lines (normalizeNewlines content)).any (isLegacyLine shell)

def classifyRcfileContent (shell : Shell) (content expectedLine : Text) :
    RcfileIntegrationStatus :=
  let hasExpected := containsExpectedLine content expectedLine
  if containsLegacyExportToken shell content then .outdated hasExpected true else .ok

/-- What is said about an rc file that still calls `export`. -/
def legacyDetail (shell : Shell) (path cachePath : Path) (hasExpected : Bool) : Text :=
  let short := shellShortName shell
  let found := "marker found in ".toList ++ sanitizeForDisplay (displayPath path)
  if hasExpected then
    found ++ " but a legacy `runex export ".toList ++ short ++
      "` line is still present alongside the cache source line — delete the old line and ".toList ++
      "re-run `runex doctor`".toList
  else
    found ++ " but the rcfile still calls `runex export ".toList ++ short ++
      "` directly instead of sourcing the integration cache at ".toList ++
      sanitizeForDisplay (displayPath cachePath) ++
      " — delete the old line and re-run `runex init ".toList ++ short ++ ['`']

/-- The check of the rc file of a shell, or of another file in its place. -/
def checkRcfileMarker (disk : Disk) (shell : Shell) (env : HomeDirs)
    (rcfileOverride : Option Path) : IntegrationCheck :=
  let name := "integration:".toList ++ shellShortName shell
  match rcfileOverride.or (rcFileFor shell env) with
  | none => .skipped name "no rcfile concept for this shell".toList
  | some path =>
    let shown := sanitizeForDisplay (displayPath path)
    let short := shellShortName shell
    if ¬ disk.exists? (displayPath path) then
      .skipped name ("rcfile not found at ".toList ++ shown ++
        " — assuming this shell is not in use".toList)
    else
      match disk.readCappedRegularFile path with
      | none =>
        .missing name ("could not read ".toList ++ shown ++ " — `runex init ".toList ++ short ++
          "` may not have been run, or the file is not a regular file or exceeds the safety cap".toList)
      | some content =>
        if ¬ runexInitMarker <:+: content then
          .missing name ("marker missing in ".toList ++ shown ++ " — run `runex init ".toList ++
            short ++ ['`'])
        else
          let found := "marker found in ".toList ++ shown
          match cachePath shell (xdgCacheHomeWith env) with
          | .ok (some cachePath) =>
            match classifyRcfileContent shell content
              (integrationLine shell (displayPath cachePath)) with
            | .ok => .ok name found
            | .outdated hasExpected _ =>
              .outdated name (legacyDetail shell path cachePath hasExpected) path
          | _ => .ok name found

-- ════════════════════════════════════════════════════════════════════════
-- The clink script
-- ════════════════════════════════════════════════════════════════════════

/-- What the environment says about the script of clink. -/
structure ClinkDirs where
  clinkLuaPath : Option Path
  localAppData : Option Path
  homeDir : Option Path

def clinkScriptIn (dir : Path) : Path := dir ++ ["clink".toList, "runex.lua".toList]

/-- Where the script may be. -/
def defaultClinkLuaPaths (env : ClinkDirs) : List Path :=
  env.clinkLuaPath.toList ++ (env.localAppData.map clinkScriptIn).toList ++
    (env.homeDir.map fun home => clinkScriptIn (home ++ [".local".toList, "share".toList])).toList

/-- The verdict on a script that has been read. -/
def clinkFreshness (currentExport : Text) (candidate : Path) (onDisk : Text) : IntegrationCheck :=
  let shown := sanitizeForDisplay (displayPath candidate)
  if normalizeNewlines onDisk = normalizeNewlines currentExport then
    .ok "integration:clink".toList ("up-to-date at ".toList ++ shown)
  else
    .outdated "integration:clink".toList
      ("outdated at ".toList ++ shown ++ " — re-run `runex init clink` to refresh".toList) candidate

/-- No script has been found. -/
def clinkNotFound : IntegrationCheck :=
  .skipped "integration:clink".toList
    "no clink integration found — assuming clink is not in use".toList

/-- The check of the script: the first file that can be read decides. -/
def checkClinkLuaFreshness (disk : Disk) (currentExport : Text) : List Path → IntegrationCheck
  | [] => clinkNotFound
  | candidate :: searchPaths =>
    match disk.readCappedRegularFile candidate with
    | none => checkClinkLuaFreshness disk currentExport searchPaths
    | some onDisk => clinkFreshness currentExport candidate onDisk

-- ════════════════════════════════════════════════════════════════════════
-- Lines that call `export`
-- ════════════════════════════════════════════════════════════════════════

variable {shell : Shell} {content : Text}

theorem legacyExportToken_ne (shell : Shell) :
    legacyExportToken shell ≠ [] ∧ '\r' ∉ legacyExportToken shell := by
  cases shell <;> decide

theorem head?_trimStart_concat_cr (line : Text) :
    ((trimStart (line ++ ['\r'])).head? == some '#') = ((trimStart line).head? == some '#') := by
  induction line with
  | nil => decide
  | cons c line ih =>
    rw [List.cons_append, trimStart, trimStart, List.dropWhile_cons, List.dropWhile_cons]
    cases isWhitespace c with
    | true => exact ih
    | false => rfl

/-- A CR at the end of a line changes nothing. -/
theorem isLegacyLine_ignoresCr (shell : Shell) : IgnoresCr (isLegacyLine shell) where
  nil := by cases shell <;> decide
  concat line := by
    obtain ⟨hne, hcr⟩ := legacyExportToken_ne shell
    have hinfix : legacyExportToken shell <:+: line ++ ['\r'] ↔ legacyExportToken shell <:+: line := by
      constructor
      · intro h
        rcases infix_append_cons hcr h with hline | hnil
        · exact hline
        · exact absurd (List.infix_nil.mp hnil) hne
      · exact fun h => h.trans (List.prefix_append _ _).isInfix
    rw [isLegacyLine, isLegacyLine, head?_trimStart_concat_cr, decide_eq_decide.mpr hinfix]

theorem containsLegacyExportToken_eq (shell : Shell) (content : Text) :
    containsLegacyExportToken shell content = anyLine (isLegacyLine shell) content :=
  any_lines_normalizeNewlines (isLegacyLine_ignoresCr shell) content

/-- The marker is a comment. -/
theorem isLegacyLine_marker (shell : Shell) : isLegacyLine shell runexInitMarker = false := by
  cases shell <;> decide

theorem not_mem_quoted {c : Char} {f : Char → Text} {s : Text} (hf : ∀ d, c ∉ f d)
    (hc : c ≠ '\'') : c ∉ '\'' :: (s.flatMap f ++ ['\'']) := by
  have hmap : c ∉ s.flatMap f := by
    rw [List.mem_flatMap]
    rintro ⟨d, -, hd⟩
    exact hf d hd
  simp [hc, hmap]

/-- The integration line is one line. -/
theorem newline_not_mem_integrationLine (hshell : shell ≠ .clink) (cacheStr : Text) :
    '\n' ∉ integrationLine shell cacheStr := by
  have hbash : '\n' ∉ bashQuoteString cacheStr := by
    refine not_mem_quoted (fun d => ?_) (by decide)
    rw [bashQuoteStringChar]
    split
    · decide
    split
    · exact List.not_mem_nil
    · next hd =>
      rw [List.mem_singleton]
      rintro rfl
      exact hd (by decide)
  have hpwsh : '\n' ∉ pwshQuoteString cacheStr := by
    refine not_mem_quoted (fun d => ?_) (by decide)
    rw [pwshQuoteStringChar]
    split
    · decide
    split
    · exact List.not_mem_nil
    · next hd =>
      rw [List.mem_singleton]
      rintro rfl
      exact hd (by decide)
  have hnu : '\n' ∉ sanitizeNuCachePathLiteral cacheStr := by
    rw [sanitizeNuCachePathLiteral, List.mem_filter]
    simp
  cases shell with
  | clink => exact absurd rfl hshell
  | bash | zsh =>
    show '\n' ∉ _ ++ bashQuoteString cacheStr ++ _ ++ bashQuoteString cacheStr
    simp only [List.mem_append, not_or]
    exact ⟨⟨⟨by decide, hbash⟩, by decide⟩, hbash⟩
  | pwsh =>
    show '\n' ∉ _ ++ pwshQuoteString cacheStr ++ _ ++ pwshQuoteString cacheStr ++ _
    simp only [List.mem_append, not_or]
    exact ⟨⟨⟨⟨by decide, hpwsh⟩, by decide⟩, hpwsh⟩, by decide⟩
  | nu =>
    show '\n' ∉ _ ++ sanitizeNuCachePathLiteral cacheStr ++ _ ++
      sanitizeNuCachePathLiteral cacheStr ++ _
    simp only [List.mem_append, not_or]
    exact ⟨⟨⟨⟨by decide, hnu⟩, by decide⟩, hnu⟩, by decide⟩

/-- The lines of a file with a block below it. -/
theorem anyLine_append_rcBlock {p : Text → Bool} (hnil : p [] = false) (hshell : shell ≠ .clink)
    (s cacheStr : Text) :
    anyLine p (s ++ rcBlock shell cacheStr) =
      (anyLine p s || (p runexInitMarker || p (integrationLine shell cacheStr))) := by
  have hend : anyLine p [] = false := by rw [anyLine_of_not_mem List.not_mem_nil, hnil]
  have hmarker : '\n' ∉ runexInitMarker := by decide
  rw [rcBlock, anyLine_append_cons, anyLine_append_cons, anyLine_append_cons, hend,
    anyLine_of_not_mem hmarker, anyLine_of_not_mem (newline_not_mem_integrationLine hshell cacheStr),
    Bool.or_false]

/-- What the block of an installation adds. -/
theorem containsLegacyExportToken_append_rcBlock (hshell : shell ≠ .clink) (s cacheStr : Text) :
    containsLegacyExportToken shell (s ++ rcBlock shell cacheStr) =
      (containsLegacyExportToken shell s || isLegacyLine shell (integrationLine shell cacheStr)) := by
  rw [containsLegacyExportToken_eq, containsLegacyExportToken_eq,
    anyLine_append_rcBlock (isLegacyLine_ignoresCr shell).nil hshell, isLegacyLine_marker,
    Bool.false_or]

/-- The line says something. -/
theorem trim_integrationLine_ne_nil (hshell : shell ≠ .clink) (cacheStr : Text) :
    trim (integrationLine shell cacheStr) ≠ [] := by
  cases shell with
  | clink => exact absurd rfl hshell
  | bash | zsh => exact trim_cons_ne_nil (c := '[') (by decide) _
  | pwsh | nu => exact trim_cons_ne_nil (c := 'i') (by decide) _

/-- After an installation the line is expected and there. -/
theorem containsExpectedLine_append_rcBlock (hshell : shell ≠ .clink) (s cacheStr : Text) :
    containsExpectedLine (s ++ rcBlock shell cacheStr) (integrationLine shell cacheStr) = true := by
  have hne := trim_integrationLine_ne_nil hshell cacheStr
  have hignores : IgnoresCr fun line => trim line == trim (integrationLine shell cacheStr) := by
    refine ⟨?_, fun line => by rw [trim_concat (by decide)]⟩
    exact beq_eq_false_iff_ne.mpr fun heq => hne heq.symm
  rw [containsExpectedLine, if_neg hne, any_lines_normalizeNewlines hignores,
    anyLine_append_rcBlock hignores.nil hshell, beq_self_eq_true, Bool.or_true, Bool.or_true]

/-- The verdict on a file that can be read and has the marker. -/
theorem checkRcfileMarker_of_marked {disk : Disk} {env : HomeDirs} {rcPath target : Path}
    (hrc : rcFileFor shell env = some rcPath)
    (hcache : cachePath shell (xdgCacheHomeWith env) = .ok (some target))
    (hexists : disk.exists? (displayPath rcPath) = true)
    (hread : disk.readCappedRegularFile rcPath = some content)
    (hmarker : runexInitMarker <:+: content) :
    checkRcfileMarker disk shell env none =
      if containsLegacyExportToken shell content then
        .outdated ("integration:".toList ++ shellShortName shell)
          (legacyDetail shell rcPath target
            (containsExpectedLine content (integrationLine shell (displayPath target)))) rcPath
      else
        .ok ("integration:".toList ++ shellShortName shell)
          ("marker found in ".toList ++ sanitizeForDisplay (displayPath rcPath)) := by
  rw [checkRcfileMarker, Option.none_or, hrc]
  dsimp only
  rw [if_neg (not_not_intro hexists), hread]
  dsimp only
  rw [if_neg (not_not_intro hmarker), hcache]
  dsimp only
  by_cases hlegacy : containsLegacyExportToken shell content = true
  · have hstatus : classifyRcfileContent shell content
        (integrationLine shell (displayPath target)) =
          .outdated (containsExpectedLine content (integrationLine shell (displayPath target))) true :=
      if_pos hlegacy
    rw [hstatus, if_pos hlegacy]
  · have hstatus : classifyRcfileContent shell content
        (integrationLine shell (displayPath target)) = .ok := if_neg hlegacy
    rw [hstatus, if_neg hlegacy]

/-- The verdict on a file that cannot be read. -/
theorem checkRcfileMarker_of_unreadable {disk : Disk} {env : HomeDirs} {rcPath : Path}
    (hrc : rcFileFor shell env = some rcPath)
    (hexists : disk.exists? (displayPath rcPath) = true)
    (hread : disk.readCappedRegularFile rcPath = none) :
    ∃ detail, checkRcfileMarker disk shell env none =
      .missing ("integration:".toList ++ shellShortName shell)
        ("could not read ".toList ++ sanitizeForDisplay (displayPath rcPath) ++ detail) := by
  rw [checkRcfileMarker, Option.none_or, hrc]
  dsimp only
  rw [if_neg (not_not_intro hexists), hread]
  exact ⟨_, by simp only [List.append_assoc]; rfl⟩

end Runex
