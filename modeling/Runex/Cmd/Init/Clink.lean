import Runex.App.Config.Loaded
import Runex.Cmd.Init.Idempotent
import Runex.Infra.IntegrationCheck.Probe

/-!
# The script of clink

`runex init clink` writes the script that clink loads, unless the first script it can read is the
one it would write. The user may keep scripts at several places; only the first of them is written.

## Main definitions

- `clinkLuaInstallPath` — where the script is written
- `installClinkLua` — the installation

## Main results

- `sat_installClinkLua` — all that an installation does
- `clink_settles` — after one installation the check is content, and further ones change nothing
-/

namespace Runex

open FileStore Placeholder Process Text
open FileSystem (Path decode)

/-- Where the script is written. Without any directory it is a name without a parent. -/
def clinkLuaInstallPath (env : ClinkDirs) : Option Path :=
  match env.clinkLuaPath with
  | some path => some path
  | none =>
    match env.localAppData with
    | some dir => some (clinkScriptIn dir)
    | none => env.homeDir.map fun home => clinkScriptIn (home ++ [".local".toList, "share".toList])

/-- The check of the script, step by step. -/
def Stepwise.checkClinkLuaFreshness {ε : Type} (currentExport : Text) :
    List Path → FileProgram ε IntegrationCheck
  | [] => pure clinkNotFound
  | candidate :: searchPaths => do
    match ← readCappedRegularFile candidate with
    | none => Stepwise.checkClinkLuaFreshness currentExport searchPaths
    | some onDisk => pure (clinkFreshness currentExport candidate onDisk)

/-- How an installation ends. -/
inductive ClinkInstalled where
  | upToDate (detail : Text)
  | skippedUpdate
  | skipped
  | wrote (path : Path)
  deriving DecidableEq

def overwritePrompt (path : Path) : Text :=
  "clink lua at ".toList ++ sanitizeForDisplay (displayPath path) ++
    " is out of date. Overwrite with the current export?".toList

def writePrompt (installPath : Option Path) : Text :=
  "Write clink integration to ".toList ++
    sanitizeForDisplay (installPath.elim "runex.lua".toList displayPath) ++ ['?']

section Install

variable (engine : RegexLite) (reader : ConfigReader) (configPath : Path) (yes : Bool)
  (promptConfirm : Text → Bool) (bin : Text) (env : ClinkDirs)

/-- Write the script. -/
def writeClinkScript (newContent : Text) : FileProgram InstallError ClinkInstalled :=
  match clinkLuaInstallPath env with
  | none =>
    throw (.message "clink lua install path has no parent directory: runex.lua".toList)
  | some installPath => do
    match ← ExceptT.lift (writeClinkLuaSafely installPath newContent).run with
    | .error e => throw (.message e)
    | .ok _ => pure (.wrote installPath)

/-- Write the script, unless it is up to date or the user declines. -/
def installClinkLua : FileProgram InstallError ClinkInstalled := do
  let config ← ExceptT.lift (Stepwise.loadConfig engine reader configPath).run
  match exportScript .clink bin config.toOption with
  | none => throw .panic
  | some newContent =>
    match ← Stepwise.checkClinkLuaFreshness newContent (defaultClinkLuaPaths env) with
    | .ok _ detail => pure (.upToDate detail)
    | .outdated _ _ path =>
      if ¬ (yes || promptConfirm (overwritePrompt path)) then pure .skippedUpdate
      else writeClinkScript env newContent
    | .skipped .. | .missing .. =>
      if ¬ (yes || promptConfirm (writePrompt (clinkLuaInstallPath env))) then pure .skipped
      else writeClinkScript env newContent

end Install

-- ════════════════════════════════════════════════════════════════════════
-- The check
-- ════════════════════════════════════════════════════════════════════════

variable {engine : RegexLite} {reader : ConfigReader} {configPath path tmp : Path}
  {promptConfirm : Text → Bool} {bin newContent : Text} {env : ClinkDirs}
  {elsewhere : Text → Bool}

/-- The script is written where it is looked for first. -/
theorem clinkLuaInstallPath_eq (env : ClinkDirs) :
    clinkLuaInstallPath env = (defaultClinkLuaPaths env).head? := by
  rw [clinkLuaInstallPath, defaultClinkLuaPaths]
  cases env.clinkLuaPath with
  | some path => rfl
  | none =>
    cases env.localAppData with
    | some dir => rfl
    | none => cases env.homeDir <;> rfl

/-- Where no call fails, the steps find what is there. -/
theorem sat_checkClinkLuaFreshness {ε : Type} (currentExport : Text) (paths : List Path)
    (elsewhere : Text → Bool) (s : Store Unit) :
    (solo readsSucceed).Sat (fun result s' => s' = s ∧
        result = .ok (checkClinkLuaFreshness (Disk.ofTree s.toTree elsewhere) currentExport paths))
      (Stepwise.checkClinkLuaFreshness currentExport paths :
        FileProgram ε IntegrationCheck).run s := by
  induction paths with
  | nil => exact ⟨rfl, rfl⟩
  | cons candidate paths ih =>
    refine Contract.Sat.bindE ((sat_readCappedRegularFile s).mono ?_)
    rintro _ s' ⟨rfl, rfl⟩
    have hdisk : (Disk.ofTree s'.toTree elsewhere).readCappedRegularFile candidate =
        cappedText (s'.node candidate) := rfl
    rw [checkClinkLuaFreshness, hdisk]
    cases cappedText (s'.node candidate) with
    | none => exact ih
    | some onDisk => exact ⟨rfl, rfl⟩

/-- The check only reads files. -/
theorem checkClinkLuaFreshness_elsewhere {tree : Tree} {currentExport : Text} {paths : List Path} :
    checkClinkLuaFreshness (Disk.ofTree tree elsewhere) currentExport paths =
      checkClinkLuaFreshness (Disk.ofTree tree fun _ => false) currentExport paths := by
  induction paths with
  | nil => rfl
  | cons candidate paths ih =>
    rw [checkClinkLuaFreshness, checkClinkLuaFreshness, ih]
    rfl

/-- A script as it would be written is up to date. -/
theorem checkClinkLuaFreshness_of_written {tree : Tree} {paths : List Path}
    (hpath : paths.head? = some path) (hnode : tree.node path = .regular (utf8 newContent))
    (hlength : (utf8 newContent).length ≤ maxProbeFileBytes) :
    checkClinkLuaFreshness (Disk.ofTree tree elsewhere) newContent paths =
      .ok "integration:clink".toList
        ("up-to-date at ".toList ++ sanitizeForDisplay (displayPath path)) := by
  obtain ⟨rest, rfl⟩ := List.head?_eq_some_iff.mp hpath
  have hdisk : (Disk.ofTree tree elsewhere).readCappedRegularFile path = some newContent := by
    show cappedText (tree.node path) = _
    rw [hnode, cappedText, if_neg (Nat.not_lt.mpr hlength), decode_eq_some_iff.mpr rfl]
  rw [checkClinkLuaFreshness, hdisk]
  exact if_pos rfl

-- ════════════════════════════════════════════════════════════════════════
-- One installation
-- ════════════════════════════════════════════════════════════════════════

/-- Writing the script. -/
theorem sat_writeClinkLuaSafely {allowed : Choice → calls.Call → Store Unit → Prop}
    (s : Store Unit) (contents : Text) (htmp : tempPath path = some tmp) :
    (solo allowed).Sat (fun result s' =>
        (result = .ok () → s'.node path = .regular (utf8 contents)) ∧
        Untouched s.toTree path tmp (utf8 contents) s')
      (writeClinkLuaSafely path contents).run s := by
  have hwrite := Writer.sat_writeRefusingSymlink clinkWriteErrors
    (Writer.alone_tolerates s.toTree (utf8 contents) allowed htmp)
    (Writer.alone_before s path tmp (utf8 contents) allowed) rfl
  refine Contract.Sat.mono ((hwrite.keep (K := Untouched s.toTree path tmp (utf8 contents))
    (Untouched.refl s) ?_ ?_).weaken fun _ _ _ => trivial) ?_
  · intro s₁ s₂ h hrely
    rw [show s₂ = s₁ from hrely]
    exact h
  · exact fun s₁ s₂ h hstep => h.step hstep
  · rintro result s' ⟨⟨hended, -⟩, huntouched⟩
    refine ⟨?_, huntouched⟩
    rintro rfl
    exact hended

/-- What an installation that returns and is confirmed leaves. -/
inductive ClinkLeft (env : ClinkDirs) (newContent : Text) (s s' : Store Unit) :
    ClinkInstalled → Prop where
  | upToDate {name detail : Text} (hsame : s' = s)
      (hcheck : ∀ elsewhere, checkClinkLuaFreshness (Disk.ofTree s.toTree elsewhere) newContent
        (defaultClinkLuaPaths env) = .ok name detail) :
      ClinkLeft env newContent s s' (.upToDate detail)
  | wrote {path tmp : Path} (hpath : clinkLuaInstallPath env = some path)
      (htmp : tempPath path = some tmp) (hnode : s'.node path = .regular (utf8 newContent))
      (huntouched : Untouched s.toTree path tmp (utf8 newContent) s') :
      ClinkLeft env newContent s s' (.wrote path)

theorem sat_writeClinkScript (s : Store Unit) (newContent : Text) :
    (solo readsSucceed).Sat (fun result s' => ∀ installed, result = .ok installed →
        ClinkLeft env newContent s s' installed)
      (writeClinkScript env newContent).run s := by
  rw [writeClinkScript]
  cases hpath : clinkLuaInstallPath env with
  | none => exact nofun
  | some path =>
    cases htmp : tempPath path with
    | none =>
      have hnil : path = [] := List.getLast?_eq_none_iff.mp (Option.map_eq_none_iff.mp htmp)
      subst hnil
      exact nofun
    | some tmp =>
      refine Contract.Sat.bindE (Contract.Sat.lift
        ((sat_writeClinkLuaSafely s newContent htmp).mono ?_))
      rintro (e | _) s' ⟨hnode, huntouched⟩
      · exact nofun
      · rintro _ ⟨⟩
        exact .wrote hpath htmp (hnode rfl) huntouched

/-- All that an installation does that is confirmed. -/
theorem sat_installClinkLua (engine : RegexLite) (reader : ConfigReader) (configPath : Path)
    {yes : Bool} (promptConfirm : Text → Bool) (bin : Text) (s : Store Unit)
    (hconfirmed : yes = true ∨ ∀ question, promptConfirm question = true) :
    (solo readsSucceed).Sat (fun result s' => ∀ installed, result = .ok installed →
        ∃ newContent, exportScript .clink bin
            (loadedFrom engine reader configPath s.toTree).toOption = some newContent ∧
          ClinkLeft env newContent s s' installed)
      (installClinkLua engine reader configPath yes promptConfirm bin env).run s := by
  have hyes : ∀ question, (yes || promptConfirm question) = true := by
    intro question
    rcases hconfirmed with rfl | hprompt
    · rfl
    · rw [hprompt, Bool.or_true]
  refine Contract.Sat.bindE (Contract.Sat.lift
    ((sat_loadConfig_reads engine reader configPath s).mono ?_))
  rintro result s₁ ⟨rfl, rfl⟩
  dsimp only
  cases hcontent : exportScript .clink bin
      (loadedFrom engine reader configPath s₁.toTree).toOption with
  | none => exact nofun
  | some newContent =>
    have hwrite : (solo readsSucceed).Sat (fun result s' => ∀ installed, result = .ok installed →
        ∃ content, some newContent = some content ∧ ClinkLeft env content s₁ s' installed)
        (writeClinkScript env newContent).run s₁ :=
      (sat_writeClinkScript s₁ newContent).mono fun _ _ h installed hresult =>
        ⟨newContent, rfl, h installed hresult⟩
    refine Contract.Sat.bindE ((sat_checkClinkLuaFreshness newContent (defaultClinkLuaPaths env)
      (fun _ => false) s₁).mono ?_)
    rintro _ s₂ ⟨rfl, rfl⟩
    dsimp only
    cases hcheck : checkClinkLuaFreshness (Disk.ofTree s₂.toTree fun _ => false) newContent
        (defaultClinkLuaPaths env) with
    | ok name detail =>
      have hcurrent : ∀ elsewhere, checkClinkLuaFreshness (Disk.ofTree s₂.toTree elsewhere)
          newContent (defaultClinkLuaPaths env) = .ok name detail :=
        fun _ => checkClinkLuaFreshness_elsewhere.trans hcheck
      rintro _ ⟨⟩
      exact ⟨newContent, rfl, .upToDate rfl hcurrent⟩
    | outdated name detail path =>
      dsimp only
      rw [if_neg (not_not_intro (hyes _))]
      exact hwrite
    | skipped name detail =>
      dsimp only
      rw [if_neg (not_not_intro (hyes _))]
      exact hwrite
    | missing name detail =>
      dsimp only
      rw [if_neg (not_not_intro (hyes _))]
      exact hwrite

/-- Where the script is up to date, an installation does nothing. -/
theorem sat_installClinkLua_upToDate (engine : RegexLite) (reader : ConfigReader)
    (configPath : Path) (yes : Bool) (promptConfirm : Text → Bool) (bin : Text) (s : Store Unit)
    {name detail : Text}
    (hcontent : exportScript .clink bin (loadedFrom engine reader configPath s.toTree).toOption =
      some newContent)
    (hcheck : ∀ elsewhere, checkClinkLuaFreshness (Disk.ofTree s.toTree elsewhere) newContent
      (defaultClinkLuaPaths env) = .ok name detail) :
    (solo readsSucceed).Sat (fun result s' => s' = s ∧ result = .ok (.upToDate detail))
      (installClinkLua engine reader configPath yes promptConfirm bin env).run s := by
  refine Contract.Sat.bindE (Contract.Sat.lift
    ((sat_loadConfig_reads engine reader configPath s).mono ?_))
  rintro result s₁ ⟨rfl, rfl⟩
  dsimp only
  rw [hcontent]
  refine Contract.Sat.bindE ((sat_checkClinkLuaFreshness newContent (defaultClinkLuaPaths env)
    (fun _ => false) s₁).mono ?_)
  rintro _ s₂ ⟨rfl, rfl⟩
  dsimp only
  rw [hcheck]
  exact ⟨rfl, rfl⟩

-- ════════════════════════════════════════════════════════════════════════
-- Installations in turn
-- ════════════════════════════════════════════════════════════════════════

/-- The way to the configuration file is apart from the script. -/
def ConfigApartFromScript (configPath : Path) (env : ClinkDirs) (tree : Tree) : Prop :=
  ∀ path, clinkLuaInstallPath env = some path → ∀ name ∈ tree.way 41 configPath,
    ¬ name <+: path ∧ tempPath path ≠ some name

/-- What the check says of the script that would be written now. -/
def ClinkUpToDate (engine : RegexLite) (reader : ConfigReader) (configPath : Path) (bin : Text)
    (env : ClinkDirs) (tree : Tree) : Prop :=
  ∃ content name detail, exportScript .clink bin
      (loadedFrom engine reader configPath tree).toOption = some content ∧
    ∀ elsewhere, checkClinkLuaFreshness (Disk.ofTree tree elsewhere) content
      (defaultClinkLuaPaths env) = .ok name detail

/-- What is left is up to date. -/
theorem ClinkLeft.upToDate_after {s s' : Store Unit} {installed : ClinkInstalled}
    (h : ClinkLeft env newContent s s' installed)
    (hcontent : exportScript .clink bin (loadedFrom engine reader configPath s.toTree).toOption =
      some newContent)
    (hlength : (utf8 newContent).length ≤ maxProbeFileBytes)
    (hapart : ConfigApartFromScript configPath env s'.toTree) :
    ClinkUpToDate engine reader configPath bin env s'.toTree := by
  cases h with
  | upToDate hsame hcheck =>
    subst hsame
    exact ⟨newContent, _, _, hcontent, hcheck⟩
  | wrote hpath htmp hnode huntouched =>
    have hloaded : loadedFrom engine reader configPath s'.toTree =
        loadedFrom engine reader configPath s.toTree := by
      refine loadedFrom_congr (fun name hname => ?_) huntouched.files
      obtain ⟨hbeside, hnetmp⟩ := hapart _ hpath name hname
      rcases huntouched.names name (fun heq => hbeside (heq ▸ List.prefix_rfl))
        (fun heq => hnetmp (heq ▸ htmp)) with hsame | ⟨-, -, habove⟩
      · exact hsame
      · exact absurd (habove.trans (List.dropLast_prefix _)) hbeside
    rw [← hloaded] at hcontent
    rw [clinkLuaInstallPath_eq] at hpath
    exact ⟨newContent, _, _, hcontent, fun _ =>
      checkClinkLuaFreshness_of_written hpath hnode hlength⟩

/-- What an installation of the script is called with, and how its calls go. -/
structure ClinkRun where
  yes : Bool
  promptConfirm : Text → Bool
  choices : ℕ → Choice

section Runs

variable (engine : RegexLite) (reader : ConfigReader) (configPath : Path) (bin : Text)
  (env : ClinkDirs)

def ClinkRun.program (run : ClinkRun) : FileProgram InstallError ClinkInstalled :=
  installClinkLua engine reader configPath run.yes run.promptConfirm bin env

/-- Installations one after the other: how they end, and the files after them. -/
def runClinkInstalls :
    List ClinkRun → Store Unit → List (Except InstallError ClinkInstalled) × Store Unit
  | [], s => ([], s)
  | run :: runs, s =>
    let first := runAlone (run.program engine reader configPath bin env) run.choices s
    let rest := runClinkInstalls runs first.2.2
    (first.1 :: rest.1, rest.2)

/-- No read fails. -/
def ReadableInstalls : List ClinkRun → Store Unit → Prop
  | [], _ => True
  | run :: runs, s =>
    (run.program engine reader configPath bin env).run.Meets (act ()) readsSucceed run.choices s ∧
      ReadableInstalls runs
        (runAlone (run.program engine reader configPath bin env) run.choices s).2.2

end Runs

/-- Further installations do nothing. -/
theorem runClinkInstalls_upToDate {s : Store Unit} (runs : List ClinkRun)
    (h : ClinkUpToDate engine reader configPath bin env s.toTree)
    (hreads : ReadableInstalls engine reader configPath bin env runs s) :
    (runClinkInstalls engine reader configPath bin env runs s).2 = s ∧
      ∀ result ∈ (runClinkInstalls engine reader configPath bin env runs s).1,
        ∃ detail, result = .ok (.upToDate detail) := by
  obtain ⟨content, name, detail, hcontent, hcheck⟩ := h
  induction runs with
  | nil => exact ⟨rfl, fun _ hmem => nomatch hmem⟩
  | cons run runs ih =>
    obtain ⟨hmeets, hrest⟩ := hreads
    obtain ⟨hstate, hresult⟩ := (sat_installClinkLua_upToDate engine reader configPath run.yes
      run.promptConfirm bin s hcontent hcheck).exec (fun _ => rfl) hmeets
    have hsame : (runAlone (run.program engine reader configPath bin env) run.choices s).2.2 = s :=
      hstate
    rw [hsame] at hrest
    obtain ⟨hend, hresults⟩ := ih hrest
    rw [runClinkInstalls, hsame]
    refine ⟨hend, fun result hmem => ?_⟩
    rcases List.mem_cons.mp hmem with rfl | hmem
    · exact ⟨detail, hresult⟩
    · exact hresults result hmem

/-- What an installation that is confirmed and returns leaves. -/
theorem clinkLeft_of_returns (engine : RegexLite) (reader : ConfigReader) (configPath : Path)
    {run : ClinkRun} {installed : ClinkInstalled} {s : Store Unit}
    (hconfirmed : run.yes = true ∨ ∀ question, run.promptConfirm question = true)
    (hmeets : (run.program engine reader configPath bin env).run.Meets (act ()) readsSucceed
      run.choices s)
    (hok : (runAlone (run.program engine reader configPath bin env) run.choices s).1 =
      .ok installed) :
    ∃ content, exportScript .clink bin (loadedFrom engine reader configPath s.toTree).toOption =
        some content ∧
      ClinkLeft env content s
        (runAlone (run.program engine reader configPath bin env) run.choices s).2.2 installed :=
  (sat_installClinkLua engine reader configPath run.promptConfirm bin s hconfirmed).exec
    (fun _ => rfl) hmeets installed hok

/-- **Installing the script of clink settles.** An installation that is confirmed and returns, in
    which no read fails, has a script to write. If that is within the limit of the check, the check
    of `runex doctor` finds it up to date afterwards, and every further installation says so too and
    changes nothing. -/
theorem clink_settles (engine : RegexLite) (reader : ConfigReader) (configPath : Path) (bin : Text)
    (env : ClinkDirs) (run : ClinkRun) (installed : ClinkInstalled) (s : Store Unit)
    (hconfirmed : run.yes = true ∨ ∀ question, run.promptConfirm question = true)
    (hmeets : (run.program engine reader configPath bin env).run.Meets (act ()) readsSucceed
      run.choices s)
    (hok : (runAlone (run.program engine reader configPath bin env) run.choices s).1 =
      .ok installed)
    (hapart : ConfigApartFromScript configPath env
      (runAlone (run.program engine reader configPath bin env) run.choices s).2.2.toTree) :
    let after := (runAlone (run.program engine reader configPath bin env) run.choices s).2.2
    ∃ content, exportScript .clink bin (loadedFrom engine reader configPath s.toTree).toOption =
        some content ∧
      ((utf8 content).length ≤ maxProbeFileBytes →
        ClinkUpToDate engine reader configPath bin env after.toTree ∧
        ∀ runs, ReadableInstalls engine reader configPath bin env runs after →
          (runClinkInstalls engine reader configPath bin env runs after).2 = after ∧
          ∀ result ∈ (runClinkInstalls engine reader configPath bin env runs after).1,
            ∃ detail, result = .ok (.upToDate detail)) := by
  intro after
  obtain ⟨content, hcontent, hleft⟩ :=
    clinkLeft_of_returns engine reader configPath hconfirmed hmeets hok
  refine ⟨content, hcontent, fun hlength => ?_⟩
  have hcurrent := hleft.upToDate_after hcontent hlength hapart
  exact ⟨hcurrent, fun runs => runClinkInstalls_upToDate runs hcurrent⟩

-- ════════════════════════════════════════════════════════════════════════
-- A first installation
-- ════════════════════════════════════════════════════════════════════════

theorem sat_unfailing {α : Type} {n : ℕ} {s : Store Unit} {Q : α → Store Unit → Prop}
    {prog : Prog calls α} (h : (solo readsSucceed).Sat Q prog s) :
    (solo (unfailing n)).Sat Q prog s := h.restrict fun _ _ _ hx _ => hx.1

/-- Where no script is found, one is written if no call fails. -/
theorem sat_installClinkLua_unfailing (engine : RegexLite) (reader : ConfigReader)
    (configPath : Path) (promptConfirm : Text → Bool) {n : ℕ} {s : Store Unit}
    (hcontent : exportScript .clink bin (loadedFrom engine reader configPath s.toTree).toOption =
      some newContent)
    (hcheck : checkClinkLuaFreshness (Disk.ofTree s.toTree fun _ => false) newContent
      (defaultClinkLuaPaths env) = clinkNotFound)
    (hpath : clinkLuaInstallPath env = some path) (htmp : tempPath path = some tmp)
    (haccessible : Accessible s.toTree path) (hloose : Loose s.toTree tmp)
    (hn : 0 < n) :
    (solo (unfailing n)).Sat (fun result _ => result = .ok (.wrote path))
      (installClinkLua engine reader configPath true promptConfirm bin env).run s := by
  refine Contract.Sat.bindE (Contract.Sat.lift
    ((sat_unfailing (sat_loadConfig_reads engine reader configPath s)).mono ?_))
  rintro result s₁ ⟨rfl, rfl⟩
  dsimp only
  rw [hcontent]
  refine Contract.Sat.bindE ((sat_unfailing (sat_checkClinkLuaFreshness newContent
    (defaultClinkLuaPaths env) (fun _ => false) s₁)).mono ?_)
  rintro _ s₂ ⟨rfl, rfl⟩
  dsimp only
  rw [hcheck]
  show (solo (unfailing n)).Sat _ (writeClinkScript env newContent).run s₂
  rw [writeClinkScript, hpath]
  refine Contract.Sat.bindE (Contract.Sat.lift ((sat_writeRefusingSymlink_unfailing clinkWriteErrors
    htmp haccessible hloose hn).mono ?_))
  rintro _ s₃ rfl
  rfl

/-- Clink for Linux, without a script yet. -/
def clinkHome : ClinkDirs := ⟨none, none, some ["home".toList]⟩

def clinkScriptPath : Path :=
  ["home".toList, ".local".toList, "share".toList, "clink".toList, "runex.lua".toList]

def homeConfigPath : Path := ["home".toList, "config.toml".toList]

/-- An installation with `--yes`. No call fails. -/
def clinkInstall (n : ℕ) : ClinkRun where
  yes := true
  promptConfirm _ := false
  choices _ := { amount := n }

/-- Nothing is on the way to the configuration afterwards. -/
theorem ClinkLeft.apart {content : Text} {after : Store Unit}
    (h : ClinkLeft clinkHome content (bashFiles []).start after (.wrote clinkScriptPath)) :
    ConfigApartFromScript homeConfigPath clinkHome after.toTree := by
  intro path hpath
  obtain rfl : clinkScriptPath = path := Option.some.inj hpath
  cases h with
  | wrote _ htmp _ huntouched =>
    have hstart : (bashFiles []).entry homeConfigPath = .absent := by decide
    have hnetmp : ∀ tmp ∈ tempPath clinkScriptPath, homeConfigPath ≠ tmp := by decide
    have habsent : after.entry homeConfigPath = .absent := by
      rcases huntouched.names homeConfigPath (by decide) (hnetmp _ htmp) with hsame | ⟨-, -, h⟩
      · exact hsame.trans hstart
      · exact absurd h (by decide)
    intro name hname
    rw [Tree.way_succ_of_absent habsent] at hname
    obtain rfl := List.mem_singleton.mp hname
    exact ⟨by decide, by decide⟩

/-- The template has three texts of at most 100 short lines, and two placeholders. -/
theorem length_clinkTemplate_le : clinkTemplate.length ≤ 5 * (100 * 120) := by
  have htext : ∀ lines : List String, lines.length ≤ 100 →
      (∀ line ∈ lines, line.toList.length ≤ 119) →
      ((Segment.text (joinLines lines)).fill token).length ≤ 100 * 120 := fun lines hlines h =>
    (length_joinLines_le h).trans (Nat.mul_le_mul_right _ hlines)
  have hpieces : ∀ piece ∈ clinkPieces, (piece.fill token).length ≤ 100 * 120 := by
    simp only [clinkPieces, List.forall_mem_cons, List.not_mem_nil, false_implies, implies_true,
      and_true]
    refine ⟨htext _ (by decide) ?_, by decide +kernel, htext _ (by decide) ?_, by decide +kernel,
      htext _ (by decide) ?_⟩
    all_goals
      simp only [List.forall_mem_cons, List.not_mem_nil, false_implies, implies_true, and_true]
      repeat' apply And.intro
      all_goals (rw [String.toList_ofList]; decide)
  rw [clinkTemplate, List.length_flatMap]
  refine (List.sum_le_card_nsmul _ _ (List.forall_mem_map.mpr hpieces)).trans ?_
  rw [List.length_map, show clinkPieces.length = 5 from rfl]
  exact Nat.le_refl _

/-- The script without a configuration is within the limit of the check. -/
theorem exists_clinkScript : ∃ content, exportScript .clink "runex".toList none = some content ∧
    (utf8 content).length ≤ maxProbeFileBytes := by
  have hslots : ∃ slots, exportSlots .clink "runex".toList none = some slots ∧
      ∀ slot ∈ slots, slot.2.length ≤ (token slot.1).length :=
    ⟨_, rfl, by decide +kernel⟩
  obtain ⟨slots, hslots, hshort⟩ := hslots
  refine ⟨_, congrArg (Option.map _) hslots, (length_utf8_le _).trans ?_⟩
  have hlength : (replaceEach slots (Search.replaceAll ['\r', '\n'] ['\n'] clinkTemplate)).length ≤
      clinkTemplate.length :=
    (length_replaceEach_le hshort _).trans
      (Search.length_replaceAll_le (by decide) (by decide) clinkTemplate)
  calc 4 * (replaceEach slots (Search.replaceAll ['\r', '\n'] ['\n'] clinkTemplate)).length
      ≤ 4 * (5 * (100 * 120)) := Nat.mul_le_mul_left 4 (hlength.trans length_clinkTemplate_le)
    _ ≤ maxProbeFileBytes := by decide

/-- The first script for this home is up to date afterwards, and another installation leaves it. -/
theorem clink_settles_first : ∃ n,
    ClinkUpToDate default plainReader homeConfigPath "runex".toList clinkHome
      (runAlone ((clinkInstall n).program default plainReader homeConfigPath "runex".toList
        clinkHome) (clinkInstall n).choices (bashFiles []).start).2.2.toTree ∧
    (runClinkInstalls default plainReader homeConfigPath "runex".toList clinkHome [clinkInstall n]
      (runAlone ((clinkInstall n).program default plainReader homeConfigPath "runex".toList
        clinkHome) (clinkInstall n).choices (bashFiles []).start).2.2).2 =
      (runAlone ((clinkInstall n).program default plainReader homeConfigPath "runex".toList
        clinkHome) (clinkInstall n).choices (bashFiles []).start).2.2 := by
  obtain ⟨n, hn⟩ : ∃ n, 0 < n := ⟨1, Nat.one_pos⟩
  refine ⟨n, ?_⟩
  obtain ⟨content, hcontent, hlength⟩ := exists_clinkScript
  have hloaded : (loadedFrom default plainReader homeConfigPath (bashFiles [])).toOption = none := by
    decide +kernel
  have hcheck : checkClinkLuaFreshness (Disk.ofTree (bashFiles []) fun _ => false) content
      (defaultClinkLuaPaths clinkHome) = clinkNotFound := by
    have hread : (Disk.ofTree (bashFiles []) fun _ => false).readCappedRegularFile clinkScriptPath =
        none := by decide +kernel
    rw [show defaultClinkLuaPaths clinkHome = [clinkScriptPath] from rfl, checkClinkLuaFreshness,
      hread]
    rfl
  have habove : ∀ dir ∈ clinkScriptPath.dropLast.inits,
      bashEntry dir = .absent ∨ bashEntry dir = .directory := by
    decide
  have hloose : ∀ tmp ∈ tempPath clinkScriptPath, bashEntry tmp = .absent := by decide
  have htmp := tempPath_concat clinkScriptPath.dropLast "runex.lua".toList
  have haccessible : Accessible (bashFiles []) clinkScriptPath :=
    ⟨fun dir hdir => habove dir ((List.mem_inits dir _).mpr hdir), Or.inl (by decide)⟩
  have hscript : exportScript .clink "runex".toList
      (loadedFrom default plainReader homeConfigPath
        ((bashFiles []).start : Store Unit).toTree).toOption = some content := hloaded.symm ▸ hcontent
  have hok : (runAlone ((clinkInstall n).program default plainReader homeConfigPath "runex".toList
      clinkHome) (clinkInstall n).choices (bashFiles []).start).1 = .ok (.wrote clinkScriptPath) :=
    (sat_installClinkLua_unfailing default plainReader homeConfigPath
      (clinkInstall n).promptConfirm hscript hcheck rfl htmp haccessible
      (Or.inl (hloose _ htmp)) hn).exec (fun _ => rfl)
        (Prog.meets_of_choices (fun _ _ _ => ⟨rfl, Nat.le_refl _⟩) _ _)
  have hmeets : ∀ s : Store Unit, ((clinkInstall n).program default plainReader homeConfigPath
      "runex".toList clinkHome).run.Meets (act ()) readsSucceed (clinkInstall n).choices s :=
    Prog.meets_of_choices (fun _ _ _ _ => rfl) _
  obtain ⟨_, -, hleft⟩ :=
    clinkLeft_of_returns default plainReader homeConfigPath (Or.inl rfl) (hmeets _) hok
  obtain ⟨content', hcontent', hsettles⟩ := clink_settles default plainReader homeConfigPath
    "runex".toList clinkHome (clinkInstall n) (.wrote clinkScriptPath)
    (bashFiles []).start (Or.inl rfl) (hmeets _) hok hleft.apart
  rw [hscript] at hcontent'
  obtain rfl := Option.some.inj hcontent'
  obtain ⟨hcurrent, hagain⟩ := hsettles hlength
  exact ⟨hcurrent, (hagain [clinkInstall n] ⟨hmeets _, trivial⟩).1⟩

end Runex
