import Runex.App.Config.Loaded
import Runex.Cmd.AddRemove
import Runex.Cmd.Config.Reload

/-!
# Keeping the caches up to date

The caches are made from the configuration file, and nothing but `add`, `remove` and `config reload`
makes them again. The user edits the file between them, and any of their calls may fail. What they
report tells which caches are up to date.

## Main definitions

- `CacheInSync` — a cache that is there and is what the configuration file says
- `CacheReport` — what the reports tell of a cache
- `MaintenanceEvent`, `runMaintenance` — a session, with what the reports tell

## Main results

- `sat_program` — one command
- `maintenance_in_sync` — the reports of a session are right
-/

namespace Runex

open FileStore Process
open FileSystem (Path)
open Toml (Editor)

variable {engine : RegexLite} {reader : ConfigReader} {editor : Editor} {cacheHome : Option Path}
  {bin : Text} {configPath : Path} {config : Option Config} {shell other : Shell}
  {target tmp : Path} {outcome : CacheRefresh} {outcomes : List CacheRefresh}
  {allowed : Choice → calls.Call → Store Unit → Prop} {checked : Prop} {shells : List Shell}

-- ════════════════════════════════════════════════════════════════════════
-- A refresh that may panic
-- ════════════════════════════════════════════════════════════════════════

/-- What holds where the refresh of a shell finds no cache. -/
def NotInstalled (cacheHome : Option Path) (shell : Shell) (tree : Tree) : Prop :=
  ∀ target, cachePath shell cacheHome = .ok (some target) →
    ∀ bytes, tree.node target ≠ .regular bytes

/-- What a refresh does to the files and tells about them. -/
structure RefreshStep (cacheHome : Option Path) (bin : Text) (config : Option Config)
    (checked : Prop) (shells : List Shell) (outcomes : List CacheRefresh) (s s' : Tree) : Prop where
  step : CacheStep cacheHome bin config checked shells outcomes s s'
  notInstalled : ∀ shell, .notInstalled shell ∈ outcomes → NotInstalled cacheHome shell s'

/-- The metadata of a file is found. -/
theorem act_metadata_reads {x : Choice} {s : Store Unit} {bytes : Bytes}
    (hx : readsSucceed x (.metadata target) s) (hnode : s.node target = .regular bytes) :
    ((solo readsSucceed).act x (.metadata target) s).1 = .ok ⟨.file, bytes.length⟩ := by
  obtain ⟨inode, hentry, hcontent⟩ := Tree.node_eq_regular.mp hnode
  rw [act_reads hx rfl, perform, Tree.canonicalize, Tree.follow, hentry]
  show s.metadata (s.entry target) = _
  rw [hentry, Tree.metadata, hcontent]

/-- A refresh of a shell with no script to write leaves everything, or panics. -/
theorem sat_refreshCache_none (s : Store Unit) (hshell : shell ∈ cacheShells)
    (hcontents : cacheContents shell bin config = none) :
    (solo allowed).Sat (fun result s' => ∀ found, result = .ok found →
        ∃ outcome, found = some outcome ∧
          CacheStep cacheHome bin config checked [shell] [outcome] s.toTree s'.toTree)
      (refreshCache cacheHome bin config shell).run s := by
  have hsilent : ∀ outcome : CacheRefresh, outcome.shell = shell →
      (∀ shell target, outcome ≠ .refreshed shell target) → ∀ found,
      (Except.ok (some outcome) : Except Unit _) = .ok found → ∃ outcome', found = some outcome' ∧
        CacheStep cacheHome bin config checked [shell] [outcome'] s.toTree s.toTree := by
    rintro outcome hout hno _ ⟨⟩
    exact ⟨outcome, rfl, CacheStep.refl s.toTree hout hno⟩
  rw [refreshCache]
  cases hpath : cachePath shell cacheHome with
  | error e => exact hsilent _ rfl fun _ _ => CacheRefresh.noConfusion
  | ok found =>
    cases found with
    | none => exact absurd hpath (cachePath_ne_none hshell)
    | some target =>
      refine Contract.Sat.bindE (Contract.Sat.attempt fun s₁ hs₁ x₁ _ => ?_)
      obtain rfl : s₁ = s := hs₁
      rw [show ((solo allowed).act x₁ (.metadata target) s₁).2 = s₁ from
        (act_metadata () x₁ s₁ target).1]
      refine ⟨trivial, ?_⟩
      cases ((solo allowed).act x₁ (.metadata target) s₁).1 with
      | error e =>
        dsimp only
        split
        · exact hsilent _ rfl fun _ _ => CacheRefresh.noConfusion
        · exact hsilent _ rfl fun _ _ => CacheRefresh.noConfusion
      | ok info =>
        dsimp only
        split
        · exact hsilent _ rfl fun _ _ => CacheRefresh.noConfusion
        · rw [hcontents]
          rintro _ ⟨⟩

/-- A shell is reported as not installed only if there is no cache file. -/
theorem sat_refreshCache_notInstalled (s : Store Unit) :
    (solo readsSucceed).Sat (fun result s' => ∀ other, result = .ok (some (.notInstalled other)) →
        NotInstalled cacheHome other s'.toTree)
      (refreshCache cacheHome bin config shell).run s := by
  rw [refreshCache]
  cases hpath : cachePath shell cacheHome with
  | error e => rintro _ ⟨⟩
  | ok found =>
    cases found with
    | none => rintro _ ⟨⟩
    | some target =>
      obtain ⟨tmp, htmp⟩ := exists_tempPath hpath
      refine Contract.Sat.bindE (Contract.Sat.attempt fun s₁ hs₁ x₁ hx₁ => ?_)
      obtain rfl : s₁ = s := hs₁
      rw [show ((solo readsSucceed).act x₁ (.metadata target) s₁).2 = s₁ from
        (act_metadata () x₁ s₁ target).1]
      refine ⟨trivial, ?_⟩
      cases hresponse : ((solo readsSucceed).act x₁ (.metadata target) s₁).1 with
      | error e =>
        have habsent : NotInstalled cacheHome shell s₁.toTree := by
          intro target' hpath' bytes hnode
          rw [hpath] at hpath'
          cases hpath'
          rw [act_metadata_reads hx₁ hnode] at hresponse
          cases hresponse
        dsimp only
        split
        · rintro other ⟨⟩
          exact habsent
        · rintro _ ⟨⟩
      | ok info =>
        dsimp only
        split
        · rintro _ ⟨⟩
        · cases cacheContents shell bin config with
          | none => rintro _ ⟨⟩
          | some contents =>
            refine Contract.Sat.bindE (Contract.Sat.lift
              ((sat_writeCacheFile s₁ htmp).mono fun result s₂ _ => ?_))
            cases result <;> rintro _ ⟨⟩

/-- One shell of a refresh that does not panic. -/
theorem sat_refreshCache_reads (s : Store Unit) (hshell : shell ∈ cacheShells) :
    (solo readsSucceed).Sat (fun result s' => ∀ found, result = .ok found →
        ∃ outcome, found = some outcome ∧
          RefreshStep cacheHome bin config (ChecksLinks readsSucceed) [shell] [outcome] s.toTree
            s'.toTree)
      (refreshCache cacheHome bin config shell).run s := by
  have hstep : (solo readsSucceed).Sat (fun result s' => ∀ found, result = .ok found →
        ∃ outcome, found = some outcome ∧
          CacheStep cacheHome bin config (ChecksLinks readsSucceed) [shell] [outcome] s.toTree
            s'.toTree)
      (refreshCache cacheHome bin config shell).run s := by
    cases hcontents : cacheContents shell bin config with
    | none => exact sat_refreshCache_none s hshell hcontents
    | some contents =>
      refine (sat_refreshCache s hshell hcontents).mono ?_
      rintro _ s' ⟨outcome, rfl, hstep⟩ _ ⟨⟩
      exact ⟨outcome, rfl, hstep⟩
  refine (hstep.and (sat_refreshCache_notInstalled s)).mono fun result s' h found hfound => ?_
  obtain ⟨outcome, rfl, hcache⟩ := h.1 found hfound
  refine ⟨outcome, rfl, hcache, fun other hmem => ?_⟩
  exact h.2 other (by rw [hfound, List.mem_singleton.mp hmem])

/-- Every shell in turn. -/
theorem sat_refreshEach_reads (hnodup : shells.Nodup)
    (hshells : ∀ shell ∈ shells, shell ∈ cacheShells) (s : Store Unit) :
    (solo readsSucceed).Sat (fun result s' => ∀ outcomes, result = .ok outcomes →
        RefreshStep cacheHome bin config (ChecksLinks readsSucceed) shells outcomes s.toTree
          s'.toTree)
      (refreshEach cacheHome bin config shells).run s := by
  induction shells generalizing s with
  | nil =>
    rintro _ ⟨⟩
    exact ⟨CacheStep.nil s.toTree, fun _ h => nomatch h⟩
  | cons shell shells ih =>
    obtain ⟨hshell, hrest⟩ := List.nodup_cons.mp hnodup
    refine Contract.Sat.bindE ((sat_refreshCache_reads s (hshells shell List.mem_cons_self)).mono ?_)
    rintro (e | found) s₁ hfirst
    · exact nofun
    obtain ⟨outcome, rfl, hstep, hhead⟩ := hfirst found rfl
    refine Contract.Sat.bindE ((ih hrest
      (fun other h => hshells other (List.mem_cons_of_mem _ h)) s₁).mono ?_)
    rintro (e | outcomes) s₂ hsteps
    · exact nofun
    obtain ⟨hrefresh, htail⟩ := hsteps outcomes rfl
    rintro _ ⟨⟩
    refine ⟨hstep.cons hshell hrefresh, fun other hmem => ?_⟩
    rcases List.mem_cons.mp hmem with hother | hmem
    · -- The refresh of the other shells has left this cache.
      obtain rfl : other = shell := by
        have hname : outcome.shell = shell := List.singleton_inj.mp hstep.each
        rw [← hname, ← hother]
        rfl
      intro target hpath bytes hnode
      rw [hrefresh.node_other hpath hshell] at hnode
      exact hhead other (by rw [hother]; exact List.mem_cons_self) target hpath bytes hnode
    · exact htail other hmem

-- ════════════════════════════════════════════════════════════════════════
-- Caches that are up to date
-- ════════════════════════════════════════════════════════════════════════

/-- What the reports tell of the cache of a shell. -/
inductive CacheReport where
  | written
  | missing
  | unknown
  deriving DecidableEq

section Sync

variable (engine : RegexLite) (reader : ConfigReader) (cacheHome : Option Path) (bin : Text)
  (configPath : Path)

/-- The cache of a shell is there, and is what the configuration file says. -/
def CacheInSync (tree : Tree) (shell : Shell) : Prop :=
  ∃ target contents, cachePath shell cacheHome = .ok (some target) ∧
    cacheContents shell bin (loadedFrom engine reader configPath tree).toOption = some contents ∧
    tree.node target = .regular (utf8 contents)

/-- What is told of a cache is right. -/
def CacheReport.Right (tree : Tree) (shell : Shell) : CacheReport → Prop
  | .written => CacheInSync engine reader cacheHome bin configPath tree shell
  | .missing => NotInstalled cacheHome shell tree
  | .unknown => True

/-- The way to the configuration file is apart from the caches. -/
def ConfigApart (tree : Tree) : Prop :=
  ∀ name ∈ tree.way 41 configPath, ∀ shell ∈ cacheShells, ∀ target,
    cachePath shell cacheHome = .ok (some target) →
      ¬ name <+: target ∧ tempPath target ≠ some name

end Sync

/-- What an outcome tells of its cache. -/
def CacheRefresh.report : CacheRefresh → CacheReport
  | .refreshed _ _ => .written
  | .notInstalled _ => .missing
  | .failed _ _ _ => .unknown

/-- What the outcomes tell of the cache of a shell. -/
def cacheReport (outcomes : List CacheRefresh) (shell : Shell) : CacheReport :=
  ((outcomes.find? fun outcome => outcome.shell = shell).map CacheRefresh.report).getD .unknown

variable {s s' : Tree}

theorem cacheReport_of_mem (hmem : outcome ∈ outcomes)
    (hnodup : (outcomes.map CacheRefresh.shell).Nodup) :
    cacheReport outcomes outcome.shell = outcome.report := by
  induction outcomes with
  | nil => cases hmem
  | cons first rest ih =>
    rw [List.map_cons, List.nodup_cons] at hnodup
    rcases List.mem_cons.mp hmem with rfl | hrest
    · rw [cacheReport, List.find?_cons_of_pos (by simp)]
      rfl
    · have hne : first.shell ≠ outcome.shell := fun heq =>
        hnodup.1 (heq ▸ List.mem_map_of_mem hrest)
      rw [← ih hrest hnodup.2, cacheReport, cacheReport, List.find?_cons_of_neg (by simp [hne])]

/-- A refresh changes nothing on the way to the configuration file. -/
theorem CacheStep.entry_way
    (h : CacheStep cacheHome bin config checked cacheShells outcomes s s')
    (hapart : ConfigApart cacheHome configPath s') :
    ∀ name ∈ s'.way 41 configPath, s'.entry name = s.entry name := by
  intro name hname
  have hother : Beside cacheHome checked cacheShells s name := by
    intro shell hshell target hpath _
    obtain ⟨hbeside, htmp⟩ := hapart name hname shell hshell target hpath
    exact ⟨fun heq => hbeside (heq ▸ List.prefix_rfl), htmp⟩
  rcases h.names name hother with hsame | ⟨-, -, shell, hshell, target, hpath, -, habove⟩
  · exact hsame
  · exact absurd (habove.trans (List.dropLast_prefix target))
      (hapart name hname shell hshell target hpath).1

/-- After a refresh from what the file loads as, what the outcomes tell is right. -/
theorem RefreshStep.right
    (h : RefreshStep cacheHome bin (loadedFrom engine reader configPath s).toOption checked
      cacheShells outcomes s s')
    (hapart : ConfigApart cacheHome configPath s') (shell : Shell) :
    (cacheReport outcomes shell).Right engine reader cacheHome bin configPath s' shell := by
  have hloaded : loadedFrom engine reader configPath s' = loadedFrom engine reader configPath s :=
    loadedFrom_congr (h.step.entry_way hapart) h.step.files
  rw [cacheReport]
  cases hfind : outcomes.find? fun outcome => outcome.shell = shell with
  | none => trivial
  | some outcome =>
    have hmem := List.mem_of_find?_eq_some hfind
    obtain rfl : outcome.shell = shell := by simpa using List.find?_some hfind
    cases outcome with
    | failed other path error => trivial
    | notInstalled other => exact h.notInstalled other hmem
    | refreshed other path =>
      obtain ⟨hpath, ⟨contents, hcontents, hnew⟩, -⟩ := h.step.refreshed other path hmem
      rw [← hloaded] at hcontents
      exact ⟨path, contents, hpath, hcontents, hnew⟩

-- ════════════════════════════════════════════════════════════════════════
-- One command
-- ════════════════════════════════════════════════════════════════════════

/-- What is told of the caches after a command, from how it has ended. -/
def Maintained.known (known : Shell → CacheReport) : Maintained → Shell → CacheReport
  | .refused (.io _), _ => .unknown
  | .refused _, shell | .notFound _, shell | .notLoaded _, shell => known shell
  | .added _ _ outcomes, shell | .removed _ _ outcomes, shell | .reloaded outcomes, shell =>
    cacheReport outcomes shell

/-- What is told of every cache is right. -/
def ReportsRight (engine : RegexLite) (reader : ConfigReader) (cacheHome : Option Path) (bin : Text)
    (configPath : Path) (known : Shell → CacheReport) (tree : Tree) : Prop :=
  ∀ shell, (known shell).Right engine reader cacheHome bin configPath tree shell

theorem reportsRight_unknown (tree : Tree) :
    ReportsRight engine reader cacheHome bin configPath (fun _ => .unknown) tree := fun _ => trivial

variable (engine reader cacheHome bin configPath) in
/-- The refresh from what the file loads as. -/
theorem sat_refreshFrom (s : Store Unit) :
    (solo readsSucceed).Sat (fun result s' => ∀ outcomes, result = .ok outcomes →
        ConfigApart cacheHome configPath s'.toTree →
        ReportsRight engine reader cacheHome bin configPath (cacheReport outcomes) s'.toTree)
      (refreshCachesWith cacheHome bin
        (loadedFrom engine reader configPath s.toTree).toOption).run s := by
  refine (sat_refreshEach_reads (by decide) (fun _ h => h) s).mono ?_
  intro result s' hstep outcomes hresult hapart
  exact (hstep outcomes hresult).right hapart

theorem sat_refreshExistingCaches (s : Store Unit) :
    (solo readsSucceed).Sat (fun result s' => ∀ outcomes, result = .ok outcomes →
        ConfigApart cacheHome configPath s'.toTree →
        ReportsRight engine reader cacheHome bin configPath (cacheReport outcomes) s'.toTree)
      (refreshExistingCaches engine reader cacheHome bin configPath).run s := by
  refine Contract.Sat.bindE (Contract.Sat.lift
    ((sat_loadConfig_reads engine reader configPath s).mono ?_))
  rintro result s' ⟨rfl, rfl⟩
  exact sat_refreshFrom engine reader cacheHome bin configPath s'

variable (engine reader editor cacheHome bin configPath) in
/-- After a command that does not panic, what its end tells is right. -/
theorem sat_program (command : MaintenanceCommand) (known : Shell → CacheReport) (s : Store Unit)
    (hknown : ReportsRight engine reader cacheHome bin configPath known s.toTree) :
    (solo readsSucceed).Sat (fun result s' => ∀ ended, result = .ok ended →
        ConfigApart cacheHome configPath s'.toTree →
        ReportsRight engine reader cacheHome bin configPath (ended.known known) s'.toTree)
      (command.program engine reader editor cacheHome bin configPath).run s := by
  have hrefused : ∀ e (s' : Store Unit), (∃ message, e = .io message) ∨ s' = s →
      ReportsRight engine reader cacheHome bin configPath ((Maintained.refused e).known known)
        s'.toTree := by
    rintro e s' (⟨message, rfl⟩ | rfl)
    · exact fun _ => trivial
    · intro shell
      cases e with
      | io message => trivial
      | _ => exact hknown shell
  cases command with
  | add key expand cmds =>
    refine Contract.Sat.bindE (Contract.Sat.lift
      ((Stepwise.sat_appendAbbrToFile engine reader readsSucceed configPath key expand cmds s).mono
        ?_))
    rintro (e | _) s₁ hspared
    · rintro _ ⟨⟩ -
      exact hrefused e s₁ hspared
    · refine Contract.Sat.bindE ((sat_refreshExistingCaches s₁).mono ?_)
      rintro (e | outcomes) s₂ hrefresh
      · exact nofun
      · rintro _ ⟨⟩ hapart
        exact hrefresh outcomes rfl hapart
  | remove key =>
    refine Contract.Sat.bindE (Contract.Sat.lift
      ((Stepwise.sat_removeAbbrFromFile engine reader readsSucceed editor configPath key s).mono
        ?_))
    rintro (e | removed) s₁ ⟨hspared, hzero⟩
    · rintro _ ⟨⟩ -
      exact hrefused e s₁ hspared
    · dsimp only
      split
      · refine Contract.Sat.bindE ((sat_refreshExistingCaches s₁).mono ?_)
        rintro (e | outcomes) s₂ hrefresh
        · exact nofun
        · rintro _ ⟨⟩ hapart
          exact hrefresh outcomes rfl hapart
      · next hnone =>
        rintro _ ⟨⟩ -
        rw [hzero (by rw [Nat.eq_zero_of_not_pos hnone])]
        exact hknown
  | reload =>
    refine Contract.Sat.bindE (Contract.Sat.lift
      ((sat_loadConfig_reads engine reader configPath s).mono ?_))
    rintro result s₁ ⟨rfl, rfl⟩
    cases hloaded : loadedFrom engine reader configPath s₁.toTree with
    | error e =>
      rintro _ ⟨⟩ -
      exact hknown
    | ok config =>
      have hrefresh := sat_refreshFrom engine reader cacheHome bin configPath s₁
      rw [hloaded] at hrefresh
      refine Contract.Sat.bindE (hrefresh.mono ?_)
      rintro (e | outcomes) s₂ hsync
      · exact nofun
      · rintro _ ⟨⟩ hapart
        exact hsync outcomes rfl hapart

-- ════════════════════════════════════════════════════════════════════════
-- A session
-- ════════════════════════════════════════════════════════════════════════

/-- What happens to the files: anything at all, or a command. -/
inductive MaintenanceEvent where
  | edit (tree : Tree)
  | command (command : MaintenanceCommand) (choices : ℕ → Choice)

/-- The files, and what the reports tell of each cache. -/
structure MaintenanceState where
  tree : Tree
  known : Shell → CacheReport

section Session

variable (engine : RegexLite) (reader : ConfigReader) (editor : Editor) (cacheHome : Option Path)
  (bin : Text) (configPath : Path)

/-- A command that panics tells nothing. -/
def MaintenanceState.step (state : MaintenanceState) : MaintenanceEvent → MaintenanceState
  | .edit tree => ⟨tree, fun _ => .unknown⟩
  | .command command choices =>
    let run := runAlone (command.program engine reader editor cacheHome bin configPath) choices
      state.tree.start
    ⟨run.2.2.toTree, match run.1 with
      | .ok ended => ended.known state.known
      | .error _ => fun _ => .unknown⟩

def runMaintenance (events : List MaintenanceEvent) (state : MaintenanceState) : MaintenanceState :=
  events.foldl (MaintenanceState.step engine reader editor cacheHome bin configPath) state

/-- No read of a command fails, and no command leaves the configuration among the caches. -/
def ReadableSession : List MaintenanceEvent → MaintenanceState → Prop
  | [], _ => True
  | .edit tree :: events, state =>
    ReadableSession events (state.step engine reader editor cacheHome bin configPath (.edit tree))
  | .command command choices :: events, state =>
    let after := state.step engine reader editor cacheHome bin configPath (.command command choices)
    (command.program engine reader editor cacheHome bin configPath).run.Meets (act ()) readsSucceed
        choices (state.tree.start : Store Unit) ∧
      ConfigApart cacheHome configPath after.tree ∧ ReadableSession events after

variable {engine reader editor cacheHome bin configPath} {state : MaintenanceState}

theorem MaintenanceState.step_command {command : MaintenanceCommand} {tree : Tree}
    {known : Shell → CacheReport} {choices choices' : ℕ → Choice} {s : Store Unit}
    {ended : Maintained}
    (h : runAlone (command.program engine reader editor cacheHome bin configPath) choices
      tree.start = (.ok ended, choices', s)) :
    step engine reader editor cacheHome bin configPath ⟨tree, known⟩ (.command command choices) =
      ⟨s.toTree, ended.known known⟩ := by
  rw [step, h]

theorem MaintenanceState.step_edit (tree : Tree) :
    state.step engine reader editor cacheHome bin configPath (.edit tree) =
      ⟨tree, fun _ => .unknown⟩ := rfl

/-- One command of a session. -/
theorem MaintenanceState.step_right {command : MaintenanceCommand} {choices : ℕ → Choice}
    (hmeets : (command.program engine reader editor cacheHome bin configPath).run.Meets (act ())
      readsSucceed choices (state.tree.start : Store Unit))
    (hapart : ConfigApart cacheHome configPath
      (state.step engine reader editor cacheHome bin configPath (.command command choices)).tree)
    (hknown : ReportsRight engine reader cacheHome bin configPath state.known state.tree) :
    let after := state.step engine reader editor cacheHome bin configPath (.command command choices)
    ReportsRight engine reader cacheHome bin configPath after.known after.tree := by
  have hprogram := (sat_program engine reader editor cacheHome bin configPath command state.known
    state.tree.start hknown).exec (fun _ => rfl) hmeets
  dsimp only [MaintenanceState.step] at hapart ⊢
  split
  · next ended hended => exact hprogram ended hended hapart
  · exact reportsRight_unknown _

end Session

/-- In every session in which no read fails, whatever becomes of the writes, the caches that the
    commands have told to be refreshed are there and are what the configuration file says, and those
    told not to be installed are not there. `config reload` prints what the reload tells. -/
theorem maintenance_in_sync (engine : RegexLite) (reader : ConfigReader) (editor : Editor)
    (cacheHome : Option Path) (bin : Text) (configPath : Path) (events : List MaintenanceEvent)
    (state : MaintenanceState)
    (hrun : ReadableSession engine reader editor cacheHome bin configPath events state)
    (hknown : ReportsRight engine reader cacheHome bin configPath state.known state.tree) :
    ReportsRight engine reader cacheHome bin configPath
      (runMaintenance engine reader editor cacheHome bin configPath events state).known
      (runMaintenance engine reader editor cacheHome bin configPath events state).tree ∧
    (handleReload engine reader cacheHome bin configPath).run =
      (MaintenanceCommand.reload.program engine reader editor cacheHome bin configPath).run >>=
        fun ended => pure (ended.bind fun m => (m.report configPath).mapError fun _ => ()) := by
  refine ⟨?_, handleReload_eq engine reader cacheHome bin configPath⟩
  induction events generalizing state with
  | nil => exact hknown
  | cons event events ih =>
    cases event with
    | edit tree => exact ih _ hrun (reportsRight_unknown tree)
    | command command choices =>
      obtain ⟨hmeets, hapart, hrest⟩ := hrun
      exact ih _ hrest (MaintenanceState.step_right hmeets hapart hknown)

-- ════════════════════════════════════════════════════════════════════════
-- A write that fails
-- ════════════════════════════════════════════════════════════════════════

/-- The tenth call writes nothing, and every other write a byte. -/
def writeFails (n : ℕ) : Choice := { amount := if n = 9 then 0 else 1 }

theorem writeFails_later (n : ℕ) : 1 ≤ (writeFails (n + 10)).amount := by
  simp [writeFails]

/-- A write that takes nothing is an error. -/
theorem runAlone_writeAll_nothing {ε : Type} {io : OsError → ε} {inode : ℕ} {bytes : Bytes}
    {choices : ℕ → Choice} {s : Store Unit} (hbytes : bytes ≠ []) (hchoice : choices 0 = {}) :
    runAlone (writeAll io inode bytes.length bytes) choices s =
      (.error (io .writeZero), fun n => choices (n + 1), s) := by
  cases bytes with
  | nil => exact absurd rfl hbytes
  | cons byte bytes =>
    have hact : act () (choices 0) (.write inode (byte :: bytes)) s = (.ok (0 : ℕ), s) := by
      rw [hchoice]
      exact Prod.ext rfl (Store.append_nil s inode)
    have hwrite : runAlone (orThrow io (.write inode (byte :: bytes))) choices s =
        (.ok (0 : ℕ), fun n => choices (n + 1), s) := by
      change ((act () (choices 0) (.write inode (byte :: bytes)) s).1.mapError io, _,
        (act () (choices 0) (.write inode (byte :: bytes)) s).2) = _
      rw [hact]
      rfl
    rw [List.length_cons, writeAll, if_neg (List.cons_ne_nil _ _), runAlone_bind_ok hwrite]
    rfl

/-- An editor that finds no rules. -/
def noRules : Editor where
  Document := Unit
  TableText := Unit
  parse _ := some ()
  arrayOfTables _ _ := none
  setTables _ _ _ := ()
  entries _ := []
  print _ := []

/-- The files when the cache for Bash has failed to be written. -/
def afterBash : Store Unit :=
  ((installed false []).start.makeDirs cacheDir.inits).create ()
    (cacheDir ++ [".integration.bash.runex.tmp".toList])

def bashFailed : CacheRefresh :=
  .failed .bash (some bashCache) (CacheError.io
    (cacheDir ++ [".integration.bash.runex.tmp".toList]) .writeZero).display

theorem runAlone_bashFailed {contents : Text} (hne : utf8 contents ≠ [])
    (hcontents : cacheContents .bash "runex".toList (some emptyConfig) = some contents) :
    runAlone (refreshCache (some ["cache".toList]) "runex".toList (some emptyConfig) .bash)
      (fun n => writeFails (n + 4)) (installed false []).start =
        (.ok (some bashFailed), fun n => writeFails (n + 10), afterBash) := by
  have hwrite : runAlone (writeCacheFile bashCache contents) (fun n => writeFails (n + 5))
      (installed false []).start =
        (.error (.io (cacheDir ++ [".integration.bash.runex.tmp".toList]) .writeZero),
          fun n => writeFails (n + 10), afterBash) := by
    have hdirs : runAlone (orThrow (cacheWriteErrors.io cacheDir) (.createDirAll cacheDir))
        (fun n => writeFails (n + 5)) (installed false []).start =
        (.ok (), fun n => writeFails (n + 6), (installed false []).start.makeDirs cacheDir.inits) :=
      rfl
    have hfile : runAlone (attempt (.symlinkMetadata bashCache) : FileProgram CacheError _)
        (fun n => writeFails (n + 6)) ((installed false []).start.makeDirs cacheDir.inits) =
        (.ok (.ok ⟨.file, 0⟩), fun n => writeFails (n + 7),
          (installed false []).start.makeDirs cacheDir.inits) := rfl
    have hremove : runAlone (attempt (.removeFile (cacheDir ++
        [".integration.bash.runex.tmp".toList])) : FileProgram CacheError _)
        (fun n => writeFails (n + 7)) ((installed false []).start.makeDirs cacheDir.inits) =
        (.ok (.error .noEntry), fun n => writeFails (n + 8),
          (installed false []).start.makeDirs cacheDir.inits) := rfl
    have hcreate : runAlone (orThrow (cacheWriteErrors.io (cacheDir ++
        [".integration.bash.runex.tmp".toList])) (.createNew (cacheDir ++
          [".integration.bash.runex.tmp".toList])))
        (fun n => writeFails (n + 8)) ((installed false []).start.makeDirs cacheDir.inits) =
        (.ok (3 : ℕ), fun n => writeFails (n + 9), afterBash) := rfl
    rw [writeCacheFile, writeRefusingSymlink,
      parent_eq_some (show bashCache.getLast? = some "integration.bash".toList from rfl)]
    dsimp only
    rw [show bashCache.dropLast = cacheDir from rfl, runAlone_bind_ok hdirs, runAlone_bind_ok hfile]
    dsimp only
    rw [show fileName bashCache = some "integration.bash".toList from rfl]
    dsimp only
    rw [replaceThroughTemp]
    refine (runAlone_bind_ok hremove).trans ((runAlone_bind_ok hcreate).trans ?_)
    exact runAlone_bind_error (runAlone_writeAll_nothing hne rfl)
  have hfile : runAlone (attempt (.metadata bashCache) : FileProgram Unit _)
      (fun n => writeFails (n + 4)) (installed false []).start =
      (.ok (.ok ⟨.file, 0⟩), fun n => writeFails (n + 5), (installed false []).start) := rfl
  rw [refreshCache, show cachePath .bash (some ["cache".toList]) = .ok (some bashCache) from rfl]
  dsimp only
  rw [runAlone_bind_ok hfile, hcontents]
  dsimp only
  rw [if_neg (not_not.mpr rfl), runAlone_lift_bind, hwrite]
  rfl

/-- The reload of two empty caches: Bash fails, and Zsh is refreshed. -/
theorem reload_emptied : ∃ outcomes choices s,
    runAlone (MaintenanceCommand.reload.program default plainReader noRules (some ["cache".toList])
      "runex".toList Runex.configPath) writeFails (installed false []).start =
        (.ok (.reloaded (bashFailed :: outcomes)), choices, s) ∧
    .refreshed .zsh zshCache ∈ outcomes ∧
    CacheStep (some ["cache".toList]) "runex".toList (some emptyConfig)
      (ChecksLinks (unfailing 1)) [.zsh, .pwsh, .nu] outcomes afterBash.toTree s.toTree := by
  have hscripts : ∀ shell ∈ [.zsh, .pwsh, .nu], ∃ contents,
      cacheContents shell "runex".toList (some emptyConfig) = some contents := fun shell h =>
    exists_cacheContents emptyConfig_exports shell (List.mem_cons_of_mem _ h)
  obtain ⟨contents, hcontents⟩ := exists_cacheContents emptyConfig_exports .bash (by decide)
  have hne : utf8 contents ≠ [] := by
    obtain ⟨script, -, rfl⟩ := Option.map_eq_some_iff.mp hcontents
    exact List.cons_ne_nil _ _
  have hload : runAlone (Stepwise.loadConfig default plainReader Runex.configPath) writeFails
      (installed false []).start =
      (.ok emptyConfig, fun n => writeFails (n + 4), (installed false []).start) :=
    Prod.ext (by decide +kernel) rfl
  have hzsh : Replaceable afterBash.toTree zshCache := by
    refine ⟨⟨[], by decide⟩, fun dir hdir => ?_, fun tmp htmp => Or.inl ?_⟩
    · have habove : ∀ dir ∈ zshCache.dropLast.inits, afterBash.entry dir = .directory := by decide
      exact Or.inr (habove dir ((List.mem_inits dir _).mpr hdir))
    · cases htmp
      decide
  have hmeets : (refreshEach (some ["cache".toList]) "runex".toList (some emptyConfig)
      [.zsh, .pwsh, .nu]).run.Meets (act ()) (unfailing 1) (fun n => writeFails (n + 10)) afterBash :=
    Prog.meets_of_choices (fun n _ _ => ⟨rfl, writeFails_later n⟩) _ _
  obtain ⟨_, choices, s, hrun, ⟨outcomes, rfl, hstep⟩, hrefreshed⟩ := exists_runAlone
    ((sat_refreshEach (unfailing 1) (by decide) (fun shell h => List.mem_cons_of_mem _ h) hscripts
      afterBash).and (sat_refreshEach_unfailing Nat.one_pos (by decide)
        (fun shell h => List.mem_cons_of_mem _ h) hscripts afterBash)) hmeets
  have hrefresh : runAlone (refreshCachesWith (some ["cache".toList]) "runex".toList
      (some emptyConfig)) (fun n => writeFails (n + 4)) (installed false []).start =
      (.ok (bashFailed :: outcomes), choices, s) := by
    rw [refreshCachesWith, cacheShells, refreshEach,
      runAlone_bind_ok (runAlone_bashFailed hne hcontents), runAlone_bind_ok hrun]
    rfl
  refine ⟨outcomes, choices, s, ?_, hrefreshed outcomes rfl .zsh (by decide) zshCache rfl hzsh,
    hstep⟩
  rw [MaintenanceCommand.program, reloadCaches, runAlone_lift_bind, hload]
  dsimp only
  rw [runAlone_bind_ok hrefresh]
  rfl

/-- The user empties both caches, and reloads. -/
def reloadEmptied : List MaintenanceEvent :=
  [.edit (installed false []), .command .reload writeFails]

/-- The reports tell that the cache for Zsh is there and up to date, and nothing about the one for
    Bash. -/
theorem maintenance_in_sync_zsh : ∃ after,
    runMaintenance default plainReader noRules (some ["cache".toList]) "runex".toList
      Runex.configPath reloadEmptied ⟨upToDate, fun _ => .unknown⟩ = after ∧
    after.known .bash = .unknown ∧ after.known .zsh = .written ∧
    CacheInSync default plainReader (some ["cache".toList]) "runex".toList Runex.configPath
      after.tree .zsh := by
  obtain ⟨outcomes, choices, s, hrun, hzsh, hstep⟩ := reload_emptied
  have hafter : runMaintenance default plainReader noRules (some ["cache".toList]) "runex".toList
      Runex.configPath reloadEmptied ⟨upToDate, fun _ => .unknown⟩ =
      ⟨s.toTree, (Maintained.reloaded (bashFailed :: outcomes)).known fun _ => .unknown⟩ := by
    rw [runMaintenance, reloadEmptied, List.foldl_cons, List.foldl_cons, List.foldl_nil,
      MaintenanceState.step_edit, MaintenanceState.step_command hrun]
  have hname : ∀ shell ∈ cacheShells, "config.toml".toList ≠ cacheName shell ∧
      "config.toml".toList ≠ '.' :: (cacheName shell ++ ".runex.tmp".toList) := by
    decide
  have hconfig : s.entry Runex.configPath = .file 0 := by
    have hbefore : afterBash.entry Runex.configPath = .file 0 := by decide
    have hbeside : Beside (some ["cache".toList]) (ChecksLinks (unfailing 1)) [.zsh, .pwsh, .nu]
        afterBash.toTree Runex.configPath := by
      intro shell hshell target hpath _
      obtain ⟨hne, htmp⟩ := hname shell (List.mem_cons_of_mem _ hshell)
      exact ne_cachePath_of_name_ne hpath ["runex".toList] hne htmp
    rcases hstep.names Runex.configPath hbeside with hsame | ⟨habsent, -⟩
    · rw [hsame, hbefore]
    · rw [hbefore] at habsent
      cases habsent
  have hapart : ConfigApart (some ["cache".toList]) Runex.configPath s.toTree := by
    intro name hmem shell hshell target hpath
    rw [Tree.way_succ_of_file hconfig] at hmem
    obtain rfl := List.mem_singleton.mp hmem
    obtain ⟨hne, htmp⟩ := hname shell hshell
    obtain ⟨-, hapart⟩ := ne_cachePath_of_name_ne hpath ["runex".toList] hne htmp
    refine ⟨fun hprefix => ?_, hapart⟩
    obtain ⟨-, root, hroot, rfl⟩ := cachePath_eq_some hpath
    cases hroot
    obtain ⟨rest, hrest⟩ := hprefix
    cases hrest
  have hreadable : ReadableSession default plainReader noRules (some ["cache".toList])
      "runex".toList Runex.configPath reloadEmptied ⟨upToDate, fun _ => .unknown⟩ := by
    rw [reloadEmptied, ReadableSession, MaintenanceState.step_edit, ReadableSession,
      MaintenanceState.step_command hrun]
    exact ⟨Prog.meets_of_choices (fun _ _ _ _ => rfl) _ _, hapart, True.intro⟩
  have hright : ∀ events state after, runMaintenance default plainReader noRules
      (some ["cache".toList]) "runex".toList Runex.configPath events state = after →
      ReadableSession default plainReader noRules (some ["cache".toList]) "runex".toList
        Runex.configPath events state →
      ReportsRight default plainReader (some ["cache".toList]) "runex".toList Runex.configPath
        state.known state.tree →
      ReportsRight default plainReader (some ["cache".toList]) "runex".toList Runex.configPath
        after.known after.tree := by
    rintro events state _ rfl hreadable hknown
    exact (maintenance_in_sync default plainReader noRules (some ["cache".toList])
      "runex".toList Runex.configPath events state hreadable hknown).1
  have hknown : cacheReport (bashFailed :: outcomes) .zsh = .written := by
    refine cacheReport_of_mem (List.mem_cons_of_mem _ hzsh) ?_
    rw [List.map_cons, hstep.each]
    decide
  have hzshRight := hright _ _ _ hafter hreadable (reportsRight_unknown upToDate) .zsh
  dsimp only at hzshRight
  rw [show (Maintained.reloaded (bashFailed :: outcomes)).known (fun _ => .unknown) .zsh = .written
    from hknown] at hzshRight
  exact ⟨_, hafter, rfl, hknown, hzshRight⟩

end Runex
