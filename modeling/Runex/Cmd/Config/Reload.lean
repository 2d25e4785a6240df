import Runex.App.Config.PlainReader
import Runex.Cmd.Config
import Runex.Infra.AtomicWrite.Alone

/-!
# What `config reload` changes

A reload runs alone; any of its calls may fail. It changes the caches it reports as refreshed and
no other.

## Main definitions

- `CacheStep` — what a refresh of some shells does

## Main results

- `reload_touches_installed` — the effect of a reload
-/

namespace Runex

open FileStore Process
open FileSystem (Path)

-- ════════════════════════════════════════════════════════════════════════
-- Where the caches are
-- ════════════════════════════════════════════════════════════════════════

variable {cacheHome : Option Path} {shell other : Shell} {target target' : Path}

theorem mem_cacheShells (h : shell ≠ .clink) : shell ∈ cacheShells := by
  cases shell with
  | clink => exact absurd rfl h
  | _ => decide

theorem cacheName_ne : ∀ shell ∈ cacheShells, ∀ other ∈ cacheShells, shell ≠ other →
    cacheName shell ≠ cacheName other ∧
      cacheName shell ≠ '.' :: (cacheName other ++ ".runex.tmp".toList) := by
  decide +kernel

theorem tempName_ne : ∀ shell ∈ cacheShells, ∀ other ∈ cacheShells, shell ≠ other →
    '.' :: (cacheName shell ++ ".runex.tmp".toList) ≠ cacheName other ∧
      '.' :: (cacheName shell ++ ".runex.tmp".toList) ≠
        '.' :: (cacheName other ++ ".runex.tmp".toList) := by
  decide +kernel

/-- The cache of one shell is neither the cache of another nor its temporary file. -/
theorem cachePath_ne (h : cachePath shell cacheHome = .ok (some target))
    (h' : cachePath other cacheHome = .ok (some target')) (hne : shell ≠ other) :
    target ≠ target' ∧ tempPath target' ≠ some target := by
  obtain ⟨hshell, root, rfl, rfl⟩ := cachePath_eq_some h
  obtain ⟨hother, -⟩ := cachePath_eq_some h'
  obtain ⟨hname, htmp⟩ := cacheName_ne shell (mem_cacheShells hshell) other (mem_cacheShells hother)
    hne
  exact ne_cachePath_of_name_ne h' _ hname htmp

theorem length_tempPath {tmp : Path} (h : tempPath target = some tmp) :
    tmp.length = target.length := by
  obtain ⟨name, hlast, rfl⟩ := Option.map_eq_some_iff.mp h
  have hpos : 0 < target.length := by
    refine List.length_pos_iff.mpr ?_
    rintro rfl
    cases hlast
  rw [List.length_append, List.length_dropLast, List.length_singleton]
  omega

/-- The temporary file of one shell's cache is neither the cache of another nor its temporary
    file. -/
theorem tempPath_ne_cachePath {tmp : Path} (h : cachePath shell cacheHome = .ok (some target))
    (h' : cachePath other cacheHome = .ok (some target')) (hne : shell ≠ other)
    (htmp : tempPath target = some tmp) : tmp ≠ target' ∧ tempPath target' ≠ some tmp := by
  obtain ⟨hshell, root, rfl, rfl⟩ := cachePath_eq_some h
  obtain ⟨hother, -⟩ := cachePath_eq_some h'
  obtain ⟨hname, htemp⟩ := tempName_ne shell (mem_cacheShells hshell) other (mem_cacheShells hother)
    hne
  rw [tempPath_concat] at htmp
  cases htmp
  exact ne_cachePath_of_name_ne h' _ hname htemp

theorem cachePath_ne_none (h : shell ∈ cacheShells) : cachePath shell cacheHome ≠ .ok none := by
  cases cacheHome with
  | none => cases shell <;> first | exact absurd h (by decide) | exact fun h => nomatch h
  | some root => cases shell <;> first | exact absurd h (by decide) | exact fun h => nomatch h

-- ════════════════════════════════════════════════════════════════════════
-- One shell
-- ════════════════════════════════════════════════════════════════════════

/-- The check for a link never fails. -/
def ChecksLinks (allowed : Choice → calls.Call → Store Unit → Prop) : Prop :=
  ∀ x s path, allowed x (.symlinkMetadata path) s → x.failure = none

/-- A refresh can write this cache: it is a regular file, or a link that escapes the check. -/
def CanWrite (checked : Prop) (tree : Tree) (target : Path) : Prop :=
  (∃ bytes, tree.node target = .regular bytes) ∨
    ¬ checked ∧ ∃ dest, tree.node target = .symlink dest

/-- A path is beside the caches of these shells that a refresh can write and their temporary
    files. -/
def Beside (cacheHome : Option Path) (checked : Prop) (shells : List Shell) (tree : Tree)
    (path : Path) : Prop :=
  ∀ shell ∈ shells, ∀ target, cachePath shell cacheHome = .ok (some target) →
    CanWrite checked tree target → path ≠ target ∧ tempPath target ≠ some path

/-- A directory above one of the caches that are there. -/
def AboveCache (cacheHome : Option Path) (shells : List Shell) (tree : Tree) (path : Path) : Prop :=
  ∃ shell ∈ shells, ∃ target, cachePath shell cacheHome = .ok (some target) ∧
    tree.node target ≠ .absent ∧ path <+: target.dropLast

/-- What a refresh of these shells does to the files and reports. -/
structure CacheStep (cacheHome : Option Path) (bin : Text) (config : Option Config) (checked : Prop)
    (shells : List Shell) (outcomes : List CacheRefresh) (s s' : Tree) : Prop where
  each : outcomes.map CacheRefresh.shell = shells
  next : s.next ≤ s'.next
  files : ∀ i < s.next, s'.content i = s.content i
  names : ∀ path, Beside cacheHome checked shells s path →
    s'.entry path = s.entry path ∨
      s.entry path = .absent ∧ s'.entry path = .directory ∧ AboveCache cacheHome shells s path
  refreshed : ∀ shell target, .refreshed shell target ∈ outcomes →
    cachePath shell cacheHome = .ok (some target) ∧
      (∃ contents, cacheContents shell bin config = some contents ∧
        s'.node target = .regular (utf8 contents)) ∧
      CanWrite checked s target
  kept : ∀ shell ∈ shells, ∀ target, cachePath shell cacheHome = .ok (some target) →
    .refreshed shell target ∉ outcomes → s'.node target = s.node target

variable {bin : Text} {config : Option Config} {checked : Prop} {outcome : CacheRefresh}
  {allowed : Choice → calls.Call → Store Unit → Prop} {tmp : Path} {contents : Text}

/-- An outcome without a change. -/
theorem CacheStep.refl (s : Tree) (hshell : outcome.shell = shell)
    (houtcome : ∀ shell target, outcome ≠ .refreshed shell target) :
    CacheStep cacheHome bin config checked [shell] [outcome] s s where
  each := by rw [List.map_singleton, hshell]
  next := Nat.le_refl _
  files _ _ := rfl
  names _ _ := Or.inl rfl
  refreshed shell target h := absurd (List.mem_singleton.mp h).symm (houtcome shell target)
  kept _ _ _ _ _ := rfl

theorem CanWrite.ne_absent {tree : Tree} (h : CanWrite checked tree target) :
    tree.node target ≠ .absent := by
  rcases h with ⟨bytes, hnode⟩ | ⟨-, dest, hnode⟩
  · rw [hnode]
    exact Node.noConfusion
  · rw [hnode]
    exact Node.noConfusion

/-- The outcome of one shell whose cache may have been written. -/
theorem CacheStep.of_untouched {s s' : Store Unit}
    (hpath : cachePath shell cacheHome = .ok (some target)) (htmp : tempPath target = some tmp)
    (h : Untouched s.toTree target tmp (utf8 contents) s') (hshell : outcome.shell = shell)
    (hcontents : cacheContents shell bin config = some contents)
    (hwrite : CanWrite checked s.toTree target)
    (hrefreshed : ∀ path, outcome = .refreshed shell path → path = target ∧
      s'.node target = .regular (utf8 contents))
    (hkept : outcome ≠ .refreshed shell target → s'.node target = s.node target) :
    CacheStep cacheHome bin config checked [shell] [outcome] s.toTree s'.toTree where
  each := by rw [List.map_singleton, hshell]
  next := h.next
  files := h.files
  names path hother := by
    obtain ⟨hne, hnetmp⟩ := hother shell (List.mem_singleton_self _) target hpath hwrite
    refine (h.names path hne fun heq => hnetmp (heq ▸ htmp)).imp_right fun ⟨habsent, hdir, habove⟩ =>
      ⟨habsent, hdir, shell, List.mem_singleton_self _, target, hpath, hwrite.ne_absent, habove⟩
  refreshed other path hmem := by
    have houtcome := List.mem_singleton.mp hmem
    obtain rfl : other = shell := by rw [← hshell, ← houtcome]; rfl
    obtain ⟨rfl, hnew⟩ := hrefreshed path houtcome.symm
    exact ⟨hpath, ⟨contents, hcontents, hnew⟩, hwrite⟩
  kept other hother path hpath' hnot := by
    obtain rfl := List.mem_singleton.mp hother
    rw [hpath] at hpath'
    cases hpath'
    exact hkept fun heq => hnot (List.mem_singleton.mpr heq.symm)

/-- The outcome of one shell whose cache is a link that is refused. -/
theorem CacheStep.of_makeDirs {s : Store Unit} {paths : List Path}
    (hpath : cachePath shell cacheHome = .ok (some target)) (htmp : tempPath target = some tmp)
    (hthere : s.node target ≠ .absent) (hpaths : ∀ dir ∈ paths, dir <+: target.dropLast)
    (hshell : outcome.shell = shell) (houtcome : ∀ shell target, outcome ≠ .refreshed shell target) :
    CacheStep cacheHome bin config checked [shell] [outcome] s.toTree (s.makeDirs paths).toTree where
  each := by rw [List.map_singleton, hshell]
  next := Nat.le_refl _
  files _ _ := rfl
  names path _ := (Store.entry_makeDirs paths path).imp_right fun ⟨habsent, hdir, hmem⟩ =>
    ⟨habsent, hdir, shell, List.mem_singleton_self _, target, hpath, hthere, hpaths path hmem⟩
  refreshed other path hmem := absurd (List.mem_singleton.mp hmem).symm (houtcome other path)
  kept other hother path hpath' _ := by
    obtain rfl := List.mem_singleton.mp hother
    rw [hpath] at hpath'
    cases hpath'
    exact Tree.node_congr (Store.entry_makeDirs_of_not_mem fun hmem =>
      (ne_of_above htmp (hpaths _ hmem)).1 rfl) fun _ _ => rfl

/-- One shell of a refresh. -/
theorem sat_refreshCache (s : Store Unit) (hshell : shell ∈ cacheShells)
    (hcontents : cacheContents shell bin config = some contents) :
    (solo allowed).Sat (fun result s' => ∃ outcome, result = .ok (some outcome) ∧
        CacheStep cacheHome bin config (ChecksLinks allowed) [shell] [outcome] s.toTree s'.toTree)
      (refreshCache cacheHome bin config shell).run s := by
  rw [refreshCache]
  cases hpath : cachePath shell cacheHome with
  | error e => exact ⟨_, rfl, CacheStep.refl s.toTree rfl fun _ _ => CacheRefresh.noConfusion⟩
  | ok found =>
    cases found with
    | none => exact absurd hpath (cachePath_ne_none hshell)
    | some target =>
      obtain ⟨tmp, htmp⟩ := exists_tempPath hpath
      refine Contract.Sat.bindE (Contract.Sat.attempt fun s₁ hs₁ x₁ _ => ?_)
      obtain rfl : s₁ = s := hs₁
      obtain ⟨hsame, hfile⟩ := act_metadata () x₁ s₁ target
      rw [show ((solo allowed).act x₁ (.metadata target) s₁).2 = s₁ from hsame]
      refine ⟨trivial, ?_⟩
      have hsilent : ∀ outcome : CacheRefresh, outcome.shell = shell →
          (∀ shell target, outcome ≠ .refreshed shell target) →
          ∃ outcome', (Except.ok (some outcome) : Except Unit _) = .ok (some outcome') ∧
            CacheStep cacheHome bin config (ChecksLinks allowed) [shell] [outcome'] s₁.toTree
              s₁.toTree :=
        fun outcome hout hno => ⟨outcome, rfl, CacheStep.refl s₁.toTree hout hno⟩
      cases hresponse : ((solo allowed).act x₁ (.metadata target) s₁).1 with
      | error e =>
        dsimp only
        split
        · exact hsilent _ rfl fun _ _ => CacheRefresh.noConfusion
        · exact hsilent _ rfl fun _ _ => CacheRefresh.noConfusion
      | ok info =>
        dsimp only
        split
        · exact hsilent _ rfl fun _ _ => CacheRefresh.noConfusion
        · next hregular =>
          rw [hcontents]
          dsimp only
          have hinstalled := hfile info hresponse (not_not.mp hregular)
          by_cases hwrite : CanWrite (ChecksLinks allowed) s₁.toTree target
          · refine Contract.Sat.bindE (Contract.Sat.lift
              ((sat_writeCacheFile s₁ htmp).mono fun result s₂ hresult => ?_))
            obtain ⟨⟨hended, -⟩, huntouched⟩ := hresult
            cases result with
            | error e =>
              exact ⟨_, rfl, CacheStep.of_untouched hpath htmp huntouched rfl hcontents hwrite
                (fun _ h => nomatch h) fun _ => hended fun _ _ h => h⟩
            | ok _ =>
              refine ⟨_, rfl, CacheStep.of_untouched hpath htmp huntouched rfl hcontents hwrite ?_
                fun hne => absurd rfl hne⟩
              rintro path ⟨⟩
              exact ⟨rfl, hended⟩
          · -- It is a link, and the check sees it.
            obtain ⟨dest, hdest⟩ := hinstalled.resolve_left fun h => hwrite (Or.inl h)
            have hchecked : ChecksLinks allowed :=
              by_contra fun hnot => hwrite (Or.inr ⟨hnot, dest, hdest⟩)
            refine Contract.Sat.bindE (Contract.Sat.lift ((sat_writeCacheFile_link s₁ htmp
              (Tree.node_eq_symlink.mp hdest) fun x s => hchecked x s target).mono ?_))
            rintro _ s₂ ⟨⟨e, rfl⟩, paths, hpaths, rfl⟩
            exact ⟨_, rfl, CacheStep.of_makeDirs hpath htmp (by rw [hdest]; exact Node.noConfusion)
              hpaths rfl fun _ _ => CacheRefresh.noConfusion⟩

-- ════════════════════════════════════════════════════════════════════════
-- One shell after the other
-- ════════════════════════════════════════════════════════════════════════

variable {shells : List Shell} {outcomes : List CacheRefresh} {s s₁ s₂ : Tree}

/-- The cache of one shell is not above that of another. -/
theorem not_above_cachePath (h : cachePath shell cacheHome = .ok (some target))
    (h' : cachePath other cacheHome = .ok (some target')) (dir : Path)
    (hdir : dir <+: target'.dropLast) : target.length ≠ dir.length := by
  obtain ⟨-, root, rfl, rfl⟩ := cachePath_eq_some h
  obtain ⟨-, root', hroot, rfl⟩ := cachePath_eq_some h'
  cases hroot
  have hlength := hdir.length_le
  rw [List.dropLast_concat, List.length_append, List.length_singleton] at hlength
  simp only [List.length_append, List.length_singleton]
  omega

/-- The caches of other shells keep their state. -/
theorem CacheStep.node_other (h : CacheStep cacheHome bin config checked shells outcomes s s₁)
    (hpath : cachePath shell cacheHome = .ok (some target)) (hshell : shell ∉ shells) :
    s₁.node target = s.node target := by
  have hentry := h.names target fun other hother target' hpath' _ =>
    cachePath_ne hpath hpath' fun heq => hshell (heq ▸ hother)
  rcases hentry with hsame | ⟨-, -, other, -, target', hpath', -, habove⟩
  · exact Tree.node_congr hsame fun i hi => h.files i (s.entry_lt target i hi)
  · exact absurd rfl (not_above_cachePath hpath hpath' target habove)

theorem CacheStep.nil (s : Tree) : CacheStep cacheHome bin config checked [] [] s s where
  each := rfl
  next := Nat.le_refl _
  files _ _ := rfl
  names _ _ := Or.inl rfl
  refreshed _ _ h := nomatch h
  kept _ h := nomatch h

/-- A refresh of one shell, and then of others. -/
theorem CacheStep.cons (hshell : shell ∉ shells)
    (h : CacheStep cacheHome bin config checked [shell] [outcome] s s₁)
    (h' : CacheStep cacheHome bin config checked shells outcomes s₁ s₂) :
    CacheStep cacheHome bin config checked (shell :: shells) (outcome :: outcomes) s s₂ where
  each := by
    rw [List.map_cons, h'.each]
    exact congrArg (· :: shells) (List.singleton_inj.mp h.each)
  next := h.next.trans h'.next
  files i hi := (h'.files i (Nat.lt_of_lt_of_le hi h.next)).trans (h.files i hi)
  names path hother := by
    have hnode : ∀ other ∈ shells, ∀ target, cachePath other cacheHome = .ok (some target) →
        s₁.node target = s.node target := fun other hmem target hpath =>
      h.node_other hpath fun heq => hshell (List.mem_singleton.mp heq ▸ hmem)
    have hfirst := h.names path fun other hmem =>
      hother other (List.mem_cons.mpr (Or.inl (List.mem_singleton.mp hmem)))
    have hrest := h'.names path fun other hmem target hpath hwrite =>
      hother other (List.mem_cons_of_mem _ hmem) target hpath
        (by rwa [CanWrite, hnode other hmem target hpath] at hwrite)
    rcases hrest with hsame | ⟨habsent, hdir, other, hmem, target, hpath, hthere, habove⟩
    · rw [hsame]
      refine hfirst.imp_right fun ⟨habsent, hdir, other, hmem, habove⟩ =>
        ⟨habsent, hdir, other, ?_, habove⟩
      exact List.mem_cons.mpr (Or.inl (List.mem_singleton.mp hmem))
    · rcases hfirst with hsame | ⟨-, hdir', -⟩
      · rw [hnode other hmem target hpath] at hthere
        exact Or.inr ⟨hsame.symm.trans habsent, hdir, other, List.mem_cons_of_mem _ hmem, target,
          hpath, hthere, habove⟩
      · rw [hdir'] at habsent
        cases habsent
  refreshed other target hmem := by
    have hname : outcome.shell = shell := List.singleton_inj.mp h.each
    rcases List.mem_cons.mp hmem with hhead | htail
    · obtain ⟨hpath, ⟨contents, hcontents, hnew⟩, hold⟩ :=
        h.refreshed other target (List.mem_singleton.mpr hhead)
      obtain rfl : other = shell := by rw [← hname, ← hhead]; rfl
      exact ⟨hpath, ⟨contents, hcontents, (h'.node_other hpath hshell).trans hnew⟩, hold⟩
    · obtain ⟨hpath, hnew, hold⟩ := h'.refreshed other target htail
      have hother : other ∈ shells := by
        rw [← h'.each]
        exact List.mem_map_of_mem htail
      have hsame : s₁.node target = s.node target := h.node_other hpath fun heq =>
        hshell (List.mem_singleton.mp heq ▸ hother)
      rw [CanWrite, hsame] at hold
      exact ⟨hpath, hnew, hold⟩
  kept other hmem target hpath hnot := by
    rcases List.mem_cons.mp hmem with rfl | hother
    · rw [h'.node_other hpath hshell]
      exact h.kept other (List.mem_singleton_self _) target hpath fun hin =>
        hnot (List.mem_cons.mpr (Or.inl (List.mem_singleton.mp hin)))
    · rw [h'.kept other hother target hpath fun hin => hnot (List.mem_cons_of_mem _ hin)]
      exact h.node_other hpath fun heq => hshell (List.mem_singleton.mp heq ▸ hother)

theorem CacheStep.congr {checked' : Prop}
    (h : CacheStep cacheHome bin config checked shells outcomes s s₁)
    (hchecked : checked' ↔ checked) :
    CacheStep cacheHome bin config checked' shells outcomes s s₁ := by
  rwa [propext hchecked]

/-- Every shell in turn. -/
theorem sat_refreshEach (allowed : Choice → calls.Call → Store Unit → Prop)
    (hnodup : shells.Nodup) (hshells : ∀ shell ∈ shells, shell ∈ cacheShells)
    (hcontents : ∀ shell ∈ shells, ∃ contents, cacheContents shell bin config = some contents)
    (s : Store Unit) :
    (solo allowed).Sat (fun result s' => ∃ outcomes, result = .ok outcomes ∧
        CacheStep cacheHome bin config (ChecksLinks allowed) shells outcomes s.toTree s'.toTree)
      (refreshEach cacheHome bin config shells).run s := by
  induction shells generalizing s with
  | nil => exact ⟨[], rfl, CacheStep.nil s.toTree⟩
  | cons shell shells ih =>
    obtain ⟨hshell, hrest⟩ := List.nodup_cons.mp hnodup
    obtain ⟨contents, hthis⟩ := hcontents shell List.mem_cons_self
    refine Contract.Sat.bindE ((sat_refreshCache s (hshells shell List.mem_cons_self) hthis).mono ?_)
    rintro _ s₁ ⟨outcome, rfl, hstep⟩
    refine Contract.Sat.bindE ((ih hrest (fun other h => hshells other (List.mem_cons_of_mem _ h))
      (fun other h => hcontents other (List.mem_cons_of_mem _ h)) s₁).mono ?_)
    rintro _ s₂ ⟨outcomes, rfl, hsteps⟩
    exact ⟨outcome :: outcomes, rfl, hstep.cons hshell hsteps⟩

/-- A regular file that can be replaced. -/
structure Replaceable (tree : Tree) (target : Path) : Prop where
  regular : ∃ bytes, tree.node target = .regular bytes
  above : ∀ dir, dir <+: target.dropLast → tree.entry dir = .absent ∨ tree.entry dir = .directory
  temp : ∀ tmp, tempPath target = some tmp → Loose tree tmp

variable {n : ℕ}

/-- An installed cache is refreshed. -/
theorem sat_refreshCache_unfailing {s : Store Unit} (hn : 0 < n)
    (hpath : cachePath shell cacheHome = .ok (some target))
    (hcontents : cacheContents shell bin config = some contents)
    (h : Replaceable s.toTree target) :
    (solo (unfailing n)).Sat (fun result _ => result = .ok (some (.refreshed shell target)))
      (refreshCache cacheHome bin config shell).run s := by
  obtain ⟨bytes, hnode⟩ := h.regular
  obtain ⟨inode, hentry, -⟩ := Tree.node_eq_regular.mp hnode
  obtain ⟨tmp, htmp⟩ := exists_tempPath hpath
  rw [refreshCache, hpath]
  refine Contract.Sat.bindE (Contract.Sat.attempt fun s₁ hs₁ x₁ hx₁ => ⟨trivial, ?_⟩)
  obtain rfl : s₁ = s := hs₁
  have hmetadata : (solo (unfailing n)).act x₁ (.metadata target) s₁ =
      (.ok ⟨.file, (s₁.content inode).length⟩, s₁) := by
    rw [act_unfailing hx₁, perform, Tree.canonicalize, Tree.follow, hentry]
    show (s₁.metadata (s₁.entry target), s₁) = _
    rw [hentry, Tree.metadata]
  rw [hmetadata]
  dsimp only
  rw [if_neg (not_not.mpr rfl), hcontents]
  refine Contract.Sat.bindE (Contract.Sat.lift ((sat_writeCacheFile_unfailing htmp
    ⟨h.above, Or.inr ⟨inode, hentry⟩⟩ (h.temp tmp htmp) hn).mono ?_))
  rintro _ s₂ rfl
  rfl

/-- The refresh of one cache leaves the others replaceable. -/
theorem Replaceable.kept (h : Replaceable s target)
    (hstep : CacheStep cacheHome bin config checked shells outcomes s s₁)
    (hpath : cachePath shell cacheHome = .ok (some target)) (hshell : shell ∉ shells) :
    Replaceable s₁ target where
  regular := by
    rw [hstep.node_other hpath hshell]
    exact h.regular
  above dir hdir := by
    have hbeside : Beside cacheHome checked shells s dir := by
      intro other hmem target' hpath' _
      constructor
      · rintro rfl
        exact not_above_cachePath hpath' hpath dir hdir rfl
      · intro htmp
        exact not_above_cachePath hpath' hpath dir hdir (length_tempPath htmp).symm
    rcases hstep.names dir hbeside with hsame | ⟨-, hnow, -⟩
    · rw [hsame]
      exact h.above dir hdir
    · exact Or.inr hnow
  temp tmp htmp := by
    have hbeside : Beside cacheHome checked shells s tmp := by
      intro other hmem target' hpath' _
      have hne : shell ≠ other := fun heq => hshell (heq ▸ hmem)
      exact tempPath_ne_cachePath hpath hpath' hne htmp
    rcases hstep.names tmp hbeside with hsame | ⟨-, -, other, -, target', hpath', -, habove⟩
    · rw [Loose, hsame]
      exact h.temp tmp htmp
    · exact absurd (length_tempPath htmp).symm (not_above_cachePath hpath hpath' tmp habove)

/-- Every installed cache is refreshed in turn. -/
theorem sat_refreshEach_unfailing (hn : 0 < n) (hnodup : shells.Nodup)
    (hshells : ∀ shell ∈ shells, shell ∈ cacheShells)
    (hcontents : ∀ shell ∈ shells, ∃ contents, cacheContents shell bin config = some contents)
    (s : Store Unit) :
    (solo (unfailing n)).Sat (fun result _ => ∀ outcomes, result = .ok outcomes →
        ∀ shell ∈ shells, ∀ target, cachePath shell cacheHome = .ok (some target) →
          Replaceable s.toTree target → .refreshed shell target ∈ outcomes)
      (refreshEach cacheHome bin config shells).run s := by
  induction shells generalizing s with
  | nil => exact fun _ _ _ h => nomatch h
  | cons shell shells ih =>
    obtain ⟨hshell, hrest⟩ := List.nodup_cons.mp hnodup
    obtain ⟨contents, hthis⟩ := hcontents shell List.mem_cons_self
    have hhead : (solo (unfailing n)).Sat (fun result _ =>
        ∀ target, cachePath shell cacheHome = .ok (some target) → Replaceable s.toTree target →
          result = .ok (some (.refreshed shell target)))
        (refreshCache cacheHome bin config shell).run s := by
      by_cases hready : ∃ target, cachePath shell cacheHome = .ok (some target) ∧
          Replaceable s.toTree target
      · obtain ⟨target, hpath, hready⟩ := hready
        refine (sat_refreshCache_unfailing hn hpath hthis hready).mono ?_
        rintro _ _ rfl target' hpath' -
        rw [hpath] at hpath'
        cases hpath'
        rfl
      · refine (sat_refreshCache s (hshells shell List.mem_cons_self) hthis).mono ?_
        intro _ _ _ target hpath hthere
        exact absurd ⟨target, hpath, hthere⟩ hready
    refine Contract.Sat.bindE (((sat_refreshCache s (hshells shell List.mem_cons_self) hthis).and
      hhead).mono ?_)
    rintro _ s₁ ⟨⟨outcome, rfl, hstep⟩, hrefreshed⟩
    refine Contract.Sat.bindE ((ih hrest (fun other h => hshells other (List.mem_cons_of_mem _ h))
      (fun other h => hcontents other (List.mem_cons_of_mem _ h)) s₁).mono ?_)
    rintro (e | outcomes) s₂ hsteps
    · exact nofun
    rintro _ ⟨⟩ other hother target hpath hready
    rcases List.mem_cons.mp hother with rfl | hmem
    · have hfirst := Option.some.inj (Except.ok.inj (hrefreshed target hpath hready))
      rw [hfirst]
      exact List.mem_cons_self
    · have hnot : other ∉ [shell] := fun heq => hshell (List.mem_singleton.mp heq ▸ hmem)
      exact List.mem_cons_of_mem _
        (hsteps outcomes rfl other hmem target hpath (hready.kept hstep hpath hnot))

-- ════════════════════════════════════════════════════════════════════════
-- A whole reload
-- ════════════════════════════════════════════════════════════════════════

section Reload

variable (engine : RegexLite) (reader : ConfigReader) (bin : Text) (configPath : Path)
  (choices : ℕ → Choice)

variable {engine reader bin configPath choices} {config : Config} {tree : Tree}

theorem exists_cacheContents
    (hscripts : ∀ shell ∈ cacheShells, ∃ script, exportScript shell bin (some config) = some script) :
    ∀ shell ∈ cacheShells, ∃ contents, cacheContents shell bin (some config) = some contents := by
  intro shell hshell
  obtain ⟨script, hscript⟩ := hscripts shell hshell
  exact ⟨_, congrArg (Option.map _) hscript⟩

end Reload

def emptyConfig : Config := { version := 1 }

theorem emptyConfig_exports : ∀ shell ∈ cacheShells, ∃ script,
    exportScript shell "runex".toList (some emptyConfig) = some script := by
  intro shell hshell
  have haccepted : Accepted default emptyConfig := accepted_iff.mpr ⟨rfl, by decide, rfl⟩
  refine (export_returns_iff default emptyConfig haccepted shell "runex".toList).mpr ?_
  cases shell <;> decide

def cacheDir : Path := ["cache".toList, "runex".toList]

def bashCache : Path := cacheDir ++ ["integration.bash".toList]

def zshCache : Path := cacheDir ++ ["integration.zsh".toList]

def installedDirs : List Path := [[], ["runex".toList], ["cache".toList], cacheDir]

/-- A configuration without rules, a cache for Bash, which may be a link, and an empty one for
    Zsh. -/
def installed (link : Bool) (script : Bytes) : Tree where
  entry path :=
    if installedDirs.any (· = path) then .directory
    else if path = configPath then .file 0
    else if path = zshCache then .file 2
    else if path = bashCache then if link then .symlink ["script".toList] else .file 1
    else if path = ["script".toList] ∧ link then .file 1
    else .absent
  content inode :=
    if inode = 0 then utf8 "version = 1\n".toList else if inode = 1 then script else []
  next := 3
  entry_lt path inode h := by
    split at h
    · cases h
    split at h
    · cases h
      decide
    split at h
    · cases h
      decide
    split at h
    · split at h
      · cases h
      · cases h
        decide
    split at h
    · cases h
      decide
    · cases h

/-- The cache for Bash is up to date. -/
def upToDate : Tree :=
  installed false (utf8 ((cacheContents .bash "runex".toList (some emptyConfig)).getD []))

end Runex
