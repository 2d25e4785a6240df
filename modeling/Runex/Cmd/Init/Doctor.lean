import Runex.Cmd.Init.Idempotent
import Runex.Infra.IntegrationCheck.Header
import Runex.Infra.IntegrationCheck.Probe

/-!
# An installation and the checks after it

What `runex doctor` says about a shell right after an installation for it has returned, whatever
failed on the way and whatever was in the files before.

## Main definitions

- `InstallRun.Confirmed` — the block is offered and accepted
- `addedBlock` — the last block of the file is the one just written
- `callsExport` — a line that calls `export <shell>`

## Main results

- `sat_install_cache` — what an installation leaves of the cache
- `doctor_after_init` — the two checks after an installation
-/

namespace Runex

open FileStore Process Text
open FileSystem (Path decode)

variable {allowed : Choice → calls.Call → Store Unit → Prop} {shell : Shell} {env : HomeDirs}
  {rcPath target tmp : Path} {tree : Tree} {bytes : Bytes} {block bin content : Text}

-- ════════════════════════════════════════════════════════════════════════
-- The cache of an installation
-- ════════════════════════════════════════════════════════════════════════

/-- The target is the file it was, or one created since. -/
structure FreshTarget (tree : Tree) (target : Path) (s : Store Unit) : Prop where
  next : tree.next ≤ s.next
  creator : ∀ i, s.creator i = some () → tree.next ≤ i
  entry : ∀ i, s.entry target = .file i → tree.entry target = .file i ∨ tree.next ≤ i

theorem FreshTarget.start (tree : Tree) (target : Path) : FreshTarget tree target tree.start where
  next := Nat.le_refl _
  creator _ h := by cases h
  entry _ h := Or.inl h

theorem FreshTarget.step {s s' : Store Unit} (h : FreshTarget tree target s)
    (hstep : Writes () target tmp bytes tree.next s s') : FreshTarget tree target s' := by
  have hcreator : ∀ i, s'.creator i = some () → tree.next ≤ i := by
    intro i hi
    rcases hstep.creator i with hsame | ⟨hnew, -⟩
    · exact h.creator i (hsame ▸ hi)
    · exact h.next.trans hnew
  refine ⟨h.next.trans hstep.next, hcreator, fun i hi => ?_⟩
  rcases hstep.own i hi with hbefore | hown
  · exact h.entry i hbefore
  · exact Or.inr (hcreator i hown)

/-- Writing the cache gives it a file of its own. -/
theorem sat_writeCacheFile_fresh (tree : Tree) (contents : Text) (htmp : tempPath target = some tmp) :
    (solo allowed).Sat (fun _ s' => FreshTarget tree target s')
      (writeCacheFile target contents).run tree.start := by
  have hwrite := Writer.sat_writeRefusingSymlink cacheWriteErrors
    (Writer.alone_tolerates tree (utf8 contents) allowed htmp)
    (Writer.alone_before tree.start target tmp (utf8 contents) allowed) rfl
  refine ((hwrite.keep (FreshTarget.start tree target) ?_ ?_).weaken fun _ _ _ => trivial).mono
    fun _ _ h => h.2
  · intro s₁ s₂ h hrely
    rw [show s₂ = s₁ from hrely]
    exact h
  · exact fun s₁ s₂ h hstep => h.step hstep

theorem node_append_of_ne {s : Store Unit} {path : Path} {i inode : ℕ}
    (h : s.entry path = .file i) (hne : i ≠ inode) :
    (s.append inode bytes).node path = s.node path := by
  refine Tree.node_congr rfl fun j hj => Store.content_append_of_ne ?_
  obtain rfl := Entry.file.inj (h.symm.trans hj)
  exact hne

/-- An append that returns leaves the other files. -/
theorem sat_appendToRcFile_other {other : Path} {inode : ℕ} (s : Store Unit) (hpath : rcPath ≠ [])
    (hother : s.entry other = .file inode) (hne : s.entry rcPath ≠ .file inode) :
    (solo allowed).Sat (fun result s' => result = .ok () → s'.node other = s.node other)
      (appendToRcFile rcPath block).run s := by
  have hkept : ∀ paths, (s.makeDirs paths).entry other = .file inode := by
    intro paths
    rcases Store.entry_makeDirs (s := s) paths other with hsame | ⟨habsent, -⟩
    · rw [hsame, hother]
    · rw [hother] at habsent
      cases habsent
  have hlt : inode < s.next := s.entry_lt other inode hother
  have hnode : s.node other = .regular (s.content inode) := Tree.node_of_file hother
  rw [appendToRcFile, parent, if_neg hpath]
  refine Contract.Sat.bindE (Contract.Sat.orThrow fun s₁ hs₁ x₁ _ => ⟨trivial, ?_⟩)
  obtain rfl : s₁ = s := hs₁
  cases ((solo allowed).act x₁ (.createDirAll rcPath.dropLast) s₁).1 with
  | error e => rintro ⟨⟩
  | ok _ =>
    obtain ⟨paths, hpaths, hdirs⟩ := act_createDirAll () x₁ s₁ rcPath.dropLast
    rw [show ((solo allowed).act x₁ (.createDirAll rcPath.dropLast) s₁).2 = _ from hdirs]
    have hentry : (s₁.makeDirs paths).entry rcPath = s₁.entry rcPath :=
      Store.entry_makeDirs_of_not_mem fun hmem => not_prefix_dropLast hpath (hpaths rcPath hmem)
    refine Contract.Sat.bindE (Contract.Sat.orThrow fun s₂ hs₂ x₂ _ => ⟨trivial, ?_⟩)
    obtain rfl : s₂ = s₁.makeDirs paths := hs₂
    rcases act_openAppend () x₂ (s₁.makeDirs paths) rcPath with
      ⟨e, hact⟩ | ⟨habsent, hact⟩ | ⟨opened, hfile, hact⟩
    · rw [show (solo allowed).act x₂ (.openAppend rcPath) _ = _ from hact]
      rintro ⟨⟩
    · rw [show (solo allowed).act x₂ (.openAppend rcPath) _ = _ from hact]
      refine (sat_writeAll _ (Nat.le_refl _)).mono fun result s' hwritten hok => ?_
      have hnew : other ≠ rcPath := by
        rintro rfl
        rw [hkept paths] at habsent
        cases habsent
      have hcreated : ((s₁.makeDirs paths).create () rcPath).entry other = .file inode :=
        (Store.entry_create_of_ne hnew).trans (hkept paths)
      rw [hwritten hok]
      refine (node_append_of_ne hcreated (Nat.ne_of_lt hlt)).trans ?_
      rw [Tree.node_of_file hcreated, hnode]
      exact congrArg Node.regular (Store.content_create_of_ne (Nat.ne_of_lt hlt))
    · rw [show (solo allowed).act x₂ (.openAppend rcPath) _ = _ from hact]
      refine (sat_writeAll _ (Nat.le_refl _)).mono fun result s' hwritten hok => ?_
      have hapart : inode ≠ opened := by
        rintro rfl
        exact hne (hentry.symm.trans hfile)
      rw [hwritten hok]
      refine (node_append_of_ne (hkept paths) hapart).trans ?_
      rw [Tree.node_of_file (hkept paths), hnode]
      rfl

section Install

variable (engine : RegexLite) (reader : ConfigReader) (configPath : Path) (yes : Bool)
  (promptConfirm : Text → Bool) (bin : Text)

/-- What an installation that is confirmed leaves of the cache, if the rc file is not the cache
    under another name. -/
theorem sat_install_cache (hrc : rcFileFor shell env = some rcPath)
    (hcache : cachePath shell (xdgCacheHomeWith env) = .ok (some target))
    (hyes : yes = true ∨ ∀ question, promptConfirm question = true)
    (hapart : ∀ i, tree.entry rcPath = .file i → tree.entry target ≠ .file i) :
    (solo allowed).Sat (fun result s' => ∀ installed, result = .ok installed →
        ∃ config contents, cacheContents shell bin config = some contents ∧
          s'.node target = .regular (utf8 contents))
      (installRcfileIntegration engine reader shell configPath yes promptConfirm bin env).run
      tree.start := by
  obtain ⟨tmp, htmp⟩ := exists_tempPath hcache
  obtain ⟨hne, hnetmp⟩ := rcFileFor_ne hrc hcache
  have hconfirmed : ∀ question, (yes || promptConfirm question) = true := by
    intro question
    rcases hyes with rfl | hyes
    · rfl
    · rw [hyes, Bool.or_true]
  rw [installRcfileIntegration, hrc, hcache]
  dsimp only
  refine Contract.Sat.bindE ((sat_readRcContent_returns tree.start).mono ?_)
  rintro _ s' ⟨rfl, text, rfl, -⟩
  dsimp only
  rw [if_neg (not_not_intro (hconfirmed _))]
  refine Contract.Sat.bindE (Contract.Sat.lift ((sat_loadConfig engine reader configPath
    allowed).mono ?_))
  rintro result s₁ rfl
  dsimp only
  cases hcontents : cacheContents shell bin result.toOption with
  | none => rintro _ ⟨⟩
  | some contents =>
    refine Contract.Sat.bindE (Contract.Sat.lift (((sat_writeCacheFile tree.start htmp).and
      (sat_writeCacheFile_fresh tree contents htmp)).mono ?_))
    rintro (e | _) s₂ ⟨⟨⟨hended, -⟩, huntouched⟩, hfresh⟩
    · rintro _ ⟨⟩
    have hnode : s₂.node target = .regular (utf8 contents) := hended
    dsimp only
    split
    · obtain ⟨inode, hentry, -⟩ := Tree.node_eq_regular.mp hnode
      have hrcne : s₂.entry rcPath ≠ .file inode := by
        intro hrcentry
        rcases huntouched.names rcPath hne (fun heq => hnetmp (heq ▸ htmp)) with
          hsame | ⟨-, hdir, -⟩
        · have hbefore : tree.entry rcPath = .file inode := hsame.symm.trans hrcentry
          rcases hfresh.entry inode hentry with hold | hnew
          · exact hapart inode hbefore hold
          · exact absurd (tree.entry_lt rcPath inode hbefore) (Nat.not_lt.mpr hnew)
        · rw [hdir] at hrcentry
          cases hrcentry
      refine Contract.Sat.bindE ((sat_appendToRcFile_other s₂ (rcFileFor_ne_nil hrc) hentry
        hrcne).mono ?_)
      rintro (e | _) s₃ hkept
      · rintro _ ⟨⟩
      · exact fun _ _ => ⟨_, contents, hcontents, (hkept rfl).trans hnode⟩
    · exact fun _ _ => ⟨_, contents, hcontents, hnode⟩

end Install

-- ════════════════════════════════════════════════════════════════════════
-- What the checks say
-- ════════════════════════════════════════════════════════════════════════

section Checks

variable {disk : Disk} {cacheHome : Option Path}

/-- The verdict on a cache whose header is read back. -/
theorem checkCacheFreshness_of_header (hcache : cachePath shell cacheHome = .ok (some target))
    (hexists : disk.exists? (displayPath target) = true)
    (hread : disk.readCappedRegularFile target = some content)
    (hversion : (scanCacheHeader content).version = some integrationCacheVersion)
    (hbin : (scanCacheHeader content).bin = some bin) :
    (bin = "runex".toList ∨ disk.exists? bin = true →
      checkCacheFreshness disk shell cacheHome =
        .ok ("integration:".toList ++ shellShortName shell ++ ":cache".toList)
          ("cache up-to-date at ".toList ++ sanitizeForDisplay (displayPath target))) ∧
    (¬ (bin = "runex".toList ∨ disk.exists? bin = true) → ∃ detail,
      checkCacheFreshness disk shell cacheHome =
        .outdated ("integration:".toList ++ shellShortName shell ++ ":cache".toList) detail
          target) := by
  obtain ⟨version, hline, hparsed⟩ := Option.bind_eq_some_iff.mp hversion
  obtain ⟨binLine, hbinLine, rfl⟩ := Option.map_eq_some_iff.mp hbin
  rw [checkCacheFreshness, hcache]
  dsimp only
  rw [if_neg (not_not_intro hexists), hread]
  dsimp only
  rw [hline]
  dsimp only
  rw [hparsed]
  dsimp only
  rw [if_neg (not_not_intro rfl), hbinLine]
  dsimp only
  constructor
  · intro h
    rw [if_neg fun hgone => h.elim hgone.1 hgone.2]
  · intro h
    rw [if_pos (not_or.mp h)]
    exact ⟨_, rfl⟩

/-- The header of a cache is read back. -/
theorem scan_of_headerHolds {config : Option Config} {contents : Text} (hshell : shell ≠ .clink)
    (hcontents : cacheContents shell bin config = some contents) (h : HeaderHolds shell bin) :
    (scanCacheHeader contents).version = some integrationCacheVersion ∧
      (scanCacheHeader contents).bin = some bin := by
  obtain ⟨script, hscript, rfl⟩ := Option.map_eq_some_iff.mp hcontents
  obtain ⟨rest, rfl⟩ := exportScript_opening hscript
  rw [commentPrefixFor_eq hshell]
  exact (scan_cacheContents_iff rest).mpr ⟨h.oneLine, h.trimmed, h.unlabelled⟩

variable {elsewhere : Text → Bool}

/-- A file that is there exists for the checks. -/
theorem exists?_ofTree (hnamed : WellNamed rcPath) (h : tree.node rcPath = .regular bytes) :
    (Disk.ofTree tree elsewhere).exists? (displayPath rcPath) = true := by
  obtain ⟨inode, hentry, -⟩ := Tree.node_eq_regular.mp h
  have hfollow : tree.canonicalize rcPath = .ok rcPath := by
    rw [Tree.canonicalize, Tree.follow, hentry]
  rw [Disk.ofTree]
  dsimp only
  rw [absolutePath?_displayPath hnamed]
  dsimp only
  rw [hfollow]
  rfl

theorem readCappedRegularFile_ofTree (h : tree.node rcPath = .regular bytes) :
    (Disk.ofTree tree elsewhere).readCappedRegularFile rcPath =
      if bytes.length > maxProbeFileBytes then none else decode bytes.toByteArray := by
  rw [Disk.ofTree]
  dsimp only
  rw [h, cappedText]

end Checks

-- ════════════════════════════════════════════════════════════════════════
-- The checks after an installation
-- ════════════════════════════════════════════════════════════════════════

/-- The user agrees, or is not asked. -/
def InstallRun.Confirmed (run : InstallRun) : Prop :=
  run.yes = true ∨ ∀ question, run.promptConfirm question = true

/-- What is appended to an rc file with these bytes. -/
def addedBlock (shell : Shell) (target : Path) (bytes : Bytes) : Text :=
  if Marked bytes then [] else rcBlock shell (displayPath target)

/-- Some line calls `export` after an installation: one of the user's, or the new one. -/
def callsExport (shell : Shell) (target : Path) (s : Text) : Bool :=
  containsLegacyExportToken shell s ||
    (!decide (Marked (utf8 s)) && isLegacyLine shell (integrationLine shell (displayPath target)))

theorem containsLegacyExportToken_added (hshell : shell ≠ .clink) (s : Text) :
    containsLegacyExportToken shell (s ++ addedBlock shell target (utf8 s)) =
      callsExport shell target s := by
  rw [addedBlock, callsExport]
  by_cases hmarked : Marked (utf8 s)
  · rw [if_pos hmarked, List.append_nil, decide_eq_true hmarked, Bool.not_true, Bool.false_and,
      Bool.or_false]
  · rw [if_neg hmarked, containsLegacyExportToken_append_rcBlock hshell, decide_eq_false hmarked,
      Bool.not_false, Bool.true_and]

theorem marker_infix_of_marked {s : Text} (h : Marked (utf8 s)) : runexInitMarker <:+: s := by
  by_cases hlength : (utf8 s).length ≤ maxRcFileBytes
  · rwa [Marked, readableText_of_readable hlength] at h
  · rw [Marked, readableText, if_neg hlength, List.infix_nil] at h
    exact absurd h (by decide)

theorem marker_infix_rcBlock (shell : Shell) (cacheStr : Text) :
    runexInitMarker <:+: rcBlock shell cacheStr :=
  ⟨['\n'], '\n' :: (integrationLine shell cacheStr ++ ['\n']), by
    rw [rcBlock, List.append_assoc, List.singleton_append]⟩

/-- The marker is in the file afterwards. -/
theorem marker_infix_added (s : Text) (shell : Shell) (target : Path) :
    runexInitMarker <:+: s ++ addedBlock shell target (utf8 s) := by
  rw [addedBlock]
  split
  · next hmarked => exact (marker_infix_of_marked hmarked).trans (List.prefix_append _ _).isInfix
  · exact (marker_infix_rcBlock shell _).trans (List.suffix_append _ _).isInfix

theorem added_ne_nil (bytes : Bytes) (shell : Shell) (target : Path) :
    bytes ++ utf8 (addedBlock shell target bytes) ≠ [] := by
  intro hnil
  obtain ⟨rfl, hadded⟩ := List.append_eq_nil_iff.mp hnil
  have hunmarked : ¬ Marked [] := by decide
  rw [addedBlock, if_neg hunmarked, rcBlock, utf8, List.flatMap_cons] at hadded
  exact absurd (List.append_eq_nil_iff.mp hadded).1 (by decide)

variable {engine : RegexLite} {reader : ConfigReader} {run : InstallRun} {installed : Option Path}

/-- The rc file after an installation that is confirmed. -/
theorem rcFile_of_confirmed {s : Store Unit} (hrc : rcFileFor shell run.env = some rcPath)
    (hcache : cachePath shell (xdgCacheHomeWith run.env) = .ok (some target))
    (hconfirmed : run.Confirmed)
    (hread : ∀ x c s, allowed x c s → rcRead rcPath x c s)
    (hmeets : (run.program engine reader shell).run.Meets (act ()) allowed run.choices s)
    (hok : (runAlone (run.program engine reader shell) run.choices s).1 = .ok installed)
    (h : Holds (s.node rcPath) bytes) :
    (runAlone (run.program engine reader shell) run.choices s).2.2.node rcPath =
      .regular (bytes ++ utf8 (addedBlock shell target bytes)) := by
  obtain ⟨text, htext, hend⟩ := install_step hrc hmeets hok h
  have hblock : run.block shell rcPath = some (utf8 (rcBlock shell (displayPath target))) := by
    rw [InstallRun.block, confirmedBlock, hcache]
    dsimp only
    rcases hconfirmed with hyes | hprompt
    · rw [hyes, Bool.true_or, if_pos rfl]
    · rw [hprompt, Bool.or_true, if_pos rfl]
  have hbytes : (if runexInitMarker <:+: text then bytes
      else bytes ++ (run.block shell rcPath).getD []) =
        bytes ++ utf8 (addedBlock shell target bytes) := by
    rw [htext hread, hblock, Option.getD_some, addedBlock]
    by_cases hmarked : runexInitMarker <:+: readableText bytes
    · rw [if_pos hmarked, if_pos (show Marked bytes from hmarked)]
      exact (List.append_nil bytes).symm
    · rw [if_neg hmarked, if_neg (show ¬ Marked bytes from hmarked)]
  rw [hbytes] at hend
  exact hend.regular (added_ne_nil bytes shell target)

/-- **What `runex doctor` says after an installation.** After an installation that is confirmed and
    returns, whatever else fails in it: the rc file is found, with the marker in it. If it is UTF-8
    and within the limit of the check, the check is content unless some line calls `export` for the
    shell, the user's or the new one; otherwise the file is reported as unreadable. The cache has the
    script of a configuration, and for a binary its header can hold and within the limit, the check
    is content exactly if that is the bare name or the binary exists. -/
theorem doctor_after_init (engine : RegexLite) (reader : ConfigReader) (elsewhere : Text → Bool)
    (hrc : rcFileFor shell run.env = some rcPath)
    (hcache : cachePath shell (xdgCacheHomeWith run.env) = .ok (some target))
    (hnamed : WellNamed rcPath ∧ WellNamed target) (hconfirmed : run.Confirmed)
    (hapart : ∀ i, tree.entry rcPath = .file i → tree.entry target ≠ .file i)
    (hread : ∀ x c s, allowed x c s → rcRead rcPath x c s)
    (hmeets : (run.program engine reader shell).run.Meets (act ()) allowed run.choices tree.start)
    (hok : (runAlone (run.program engine reader shell) run.choices tree.start).1 = .ok installed)
    (hnode : Holds (tree.node rcPath) bytes) :
    let after := (runAlone (run.program engine reader shell) run.choices tree.start).2.2
    let disk := Disk.ofTree after.toTree elsewhere
    let name := "integration:".toList ++ shellShortName shell
    (∀ s, bytes = utf8 s →
      (utf8 (s ++ addedBlock shell target bytes)).length ≤ maxProbeFileBytes →
      checkRcfileMarker disk shell run.env none =
        if callsExport shell target s then
          .outdated name (legacyDetail shell rcPath target
            (!decide (Marked bytes) ||
              containsExpectedLine s (integrationLine shell (displayPath target)))) rcPath
        else
          .ok name ("marker found in ".toList ++ sanitizeForDisplay (displayPath rcPath))) ∧
    ((∀ s, bytes = utf8 s →
        maxProbeFileBytes < (utf8 (s ++ addedBlock shell target bytes)).length) →
      ∃ detail, checkRcfileMarker disk shell run.env none =
        .missing name ("could not read ".toList ++ sanitizeForDisplay (displayPath rcPath) ++
          detail)) ∧
    ∃ config contents, cacheContents shell run.bin config = some contents ∧
      after.node target = .regular (utf8 contents) ∧
      ((utf8 contents).length ≤ maxProbeFileBytes → HeaderHolds shell run.bin →
        (run.bin = "runex".toList ∨ disk.exists? run.bin = true ↔
          checkCacheFreshness disk shell (xdgCacheHomeWith run.env) =
            .ok (name ++ ":cache".toList)
              ("cache up-to-date at ".toList ++ sanitizeForDisplay (displayPath target)))) := by
  intro after disk name
  have hshell : shell ≠ .clink := (cachePath_eq_some hcache).1
  have hrcnode : after.node rcPath = .regular (bytes ++ utf8 (addedBlock shell target bytes)) :=
    rcFile_of_confirmed hrc hcache hconfirmed hread hmeets hok hnode
  have hexists : disk.exists? (displayPath rcPath) = true := exists?_ofTree hnamed.1 hrcnode
  have hprobe : disk.readCappedRegularFile rcPath = _ := readCappedRegularFile_ofTree hrcnode
  refine ⟨?_, ?_, ?_⟩
  · rintro s rfl hlength
    rw [← utf8_append, if_neg (Nat.not_lt.mpr hlength), decode_eq_some_iff.mpr rfl] at hprobe
    rw [checkRcfileMarker_of_marked hrc hcache hexists hprobe (marker_infix_added s shell target),
      containsLegacyExportToken_added hshell]
    have hexpected : containsExpectedLine (s ++ addedBlock shell target (utf8 s))
        (integrationLine shell (displayPath target)) = (!decide (Marked (utf8 s)) ||
          containsExpectedLine s (integrationLine shell (displayPath target))) := by
      rw [addedBlock]
      by_cases hmarked : Marked (utf8 s)
      · rw [if_pos hmarked, List.append_nil, decide_eq_true hmarked, Bool.not_true, Bool.false_or]
      · rw [if_neg hmarked, containsExpectedLine_append_rcBlock hshell, decide_eq_false hmarked,
          Bool.not_false, Bool.true_or]
    rw [hexpected]
  · intro hunreadable
    refine checkRcfileMarker_of_unreadable hrc hexists (hprobe.trans ?_)
    split
    · rfl
    · next hlength =>
      refine Option.not_isSome_iff_eq_none.mp fun hsome => hlength ?_
      obtain ⟨s, rfl⟩ := isSome_decode_iff.mp (isSome_decode_append.mp hsome)
      rw [← utf8_append]
      exact hunreadable s rfl
  · have hcacheend : ∃ config contents, cacheContents shell run.bin config = some contents ∧
        after.node target = .regular (utf8 contents) :=
      (sat_install_cache engine reader run.configPath run.yes run.promptConfirm run.bin hrc hcache
        hconfirmed hapart).exec (fun _ => rfl) hmeets installed hok
    obtain ⟨config, contents, hcontents, hcachenode⟩ := hcacheend
    refine ⟨config, contents, hcontents, hcachenode, fun hlength hheld => ?_⟩
    have hcacheread : disk.readCappedRegularFile target = some contents := by
      refine (readCappedRegularFile_ofTree hcachenode).trans ?_
      rw [if_neg (Nat.not_lt.mpr hlength), decode_eq_some_iff.mpr rfl]
    obtain ⟨hversion, hbin⟩ := scan_of_headerHolds hshell hcontents hheld
    obtain ⟨hcontent, hgone⟩ := checkCacheFreshness_of_header hcache
      (exists?_ofTree hnamed.2 hcachenode) hcacheread hversion hbin
    refine ⟨hcontent, fun hcheck => by_contra fun hmissing => ?_⟩
    obtain ⟨detail, houtdated⟩ := hgone hmissing
    rw [hcheck] at houtdated
    cases houtdated

/-- The user's alias does not call `export`, and the check is content. -/
theorem doctor_after_init_short : ∃ n,
    checkRcfileMarker (Disk.ofTree (runAlone ((bashInstall n).program default plainReader .bash)
        (bashInstall n).choices (bashFiles (utf8 shortRcFile)).start).2.2.toTree fun _ => false)
      .bash bashHome none =
    .ok "integration:bash".toList "marker found in /home/.bashrc".toList := by
  obtain ⟨n, hn⟩ : ∃ n, maxRcFileBytes ≤ n := ⟨_, Nat.le_refl _⟩
  have hrc : rcFileFor .bash (bashInstall n).env = some bashRcPath := rfl
  have hnode : (bashFiles (utf8 shortRcFile)).node bashRcPath = .regular (utf8 shortRcFile) :=
    Tree.node_of_file (show bashEntry bashRcPath = .file 0 by decide)
  have hmeets : ((bashInstall n).program default plainReader .bash).run.Meets (act ())
      (unfailing n) (bashInstall n).choices (bashFiles (utf8 shortRcFile)).start :=
    Prog.meets_of_choices (fun _ _ _ => ⟨rfl, Nat.le_refl _⟩) _ _
  have hok := (sat_install_unfailing (bashInstall n).yes (bashInstall n).promptConfirm hrc rfl
    (bashFiles_installable default plainReader (utf8 shortRcFile) hn)).exec (fun _ => rfl) hmeets
  have happart : ∀ i, (bashFiles (utf8 shortRcFile)).entry bashRcPath = .file i →
      (bashFiles (utf8 shortRcFile)).entry bashCachePath ≠ .file i := by
    intro i _ hcache
    rw [show (bashFiles (utf8 shortRcFile)).entry bashCachePath = .absent from by decide] at hcache
    cases hcache
  have hcache : cachePath .bash (xdgCacheHomeWith (bashInstall n).env) = .ok (some bashCachePath) :=
    rfl
  obtain ⟨hcheck, -, -⟩ := doctor_after_init default plainReader (fun _ => false) hrc hcache
    (by decide) (Or.inl rfl) happart (unfailing_reads hn) hmeets hok (Or.inl hnode)
  have hquiet : callsExport .bash bashCachePath shortRcFile = false := by
    have huser : containsLegacyExportToken .bash shortRcFile = false := by decide +kernel
    have hline : isLegacyLine .bash (integrationLine .bash (displayPath bashCachePath)) = false := by
      decide +kernel
    rw [callsExport, huser, hline, Bool.and_false, Bool.or_false]
  have hlength : (utf8 (shortRcFile ++ addedBlock .bash bashCachePath (utf8 shortRcFile))).length ≤
      maxProbeFileBytes := by
    rw [addedBlock]
    split <;> decide +kernel
  refine ⟨n, (hcheck shortRcFile rfl hlength).trans ?_⟩
  rw [hquiet, if_neg Bool.false_ne_true]
  decide +kernel

end Runex
