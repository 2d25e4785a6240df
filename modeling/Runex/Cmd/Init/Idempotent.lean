import Runex.App.Config.PlainReader
import Runex.Cmd.Init.Install
import Runex.Lib.AppendOnce

/-!
# Installing again

An installation appends a block to the rc file when it does not see the marker in it. It sees the
marker in a file that is UTF-8 and small enough, also its own; any other file grows with every
installation.

## Main definitions

- `Marked` — the marker is seen in an rc file
- `Installs` — installations that succeed, one after the other

## Main results

- `rcFile_of_installs` — what they leave of the rc file
-/

namespace Runex

open FileStore Process AppendOnce
open FileSystem (Path decode)

/-- An installation can read these bytes. -/
def Readable (bytes : Bytes) : Prop :=
  bytes.length ≤ maxRcFileBytes ∧ (decode bytes.toByteArray).isSome

instance (bytes : Bytes) : Decidable (Readable bytes) := instDecidableAnd

/-- The marker is seen. -/
def Marked (bytes : Bytes) : Prop := runexInitMarker <:+: readableText bytes

instance (bytes : Bytes) : Decidable (Marked bytes) :=
  inferInstanceAs (Decidable (runexInitMarker <:+: readableText bytes))

theorem not_marked_of_not_readable {bytes : Bytes} (h : ¬ Readable bytes) : ¬ Marked bytes := by
  have hnil : readableText bytes = [] := by
    rw [readableText]
    split
    · next hlength =>
      rw [Option.not_isSome_iff_eq_none.mp fun hsome => h ⟨hlength, hsome⟩, Option.getD_none]
    · rfl
  rw [Marked, hnil, List.infix_nil]
  decide

/-- A file that cannot be read stays so when a text follows. -/
theorem Readable.of_append {bytes : Bytes} {t : Text} (h : Readable (bytes ++ utf8 t)) :
    Readable bytes := by
  obtain ⟨hlength, hsome⟩ := h
  rw [List.length_append] at hlength
  exact ⟨by omega, isSome_decode_append.mp hsome⟩

/-- The marker is seen in a block, if the file can be read. -/
theorem marked_append_rcBlock {bytes : Bytes} {shell : Shell} {cacheStr : Text}
    (h : Readable (bytes ++ utf8 (rcBlock shell cacheStr))) :
    Marked (bytes ++ utf8 (rcBlock shell cacheStr)) := by
  obtain ⟨s, rfl⟩ := isSome_decode_iff.mp h.of_append.2
  rw [← utf8_append] at h ⊢
  rw [Marked, readableText_of_readable h.1]
  refine ⟨s ++ ['\n'], '\n' :: (integrationLine shell cacheStr ++ ['\n']), ?_⟩
  rw [rcBlock, List.append_assoc, List.append_assoc, List.singleton_append]

-- ════════════════════════════════════════════════════════════════════════
-- Installations in turn
-- ════════════════════════════════════════════════════════════════════════

/-- What an installation is called with, and how its calls go. -/
structure InstallRun where
  configPath : Path
  yes : Bool
  promptConfirm : Text → Bool
  bin : Text
  env : HomeDirs
  choices : ℕ → Choice

variable (engine : RegexLite) (reader : ConfigReader)
  (allowed : Choice → calls.Call → Store Unit → Prop) (shell : Shell) (rcPath : Path)

def InstallRun.program (run : InstallRun) : FileProgram InstallError (Option Path) :=
  installRcfileIntegration engine reader shell run.configPath run.yes run.promptConfirm run.bin
    run.env

/-- The block that an installation appends if it sees no marker. -/
def InstallRun.block (run : InstallRun) : Option Bytes :=
  confirmedBlock shell run.yes run.promptConfirm run.env rcPath

def confirmedBlocks (runs : List InstallRun) : List Bytes :=
  runs.filterMap (InstallRun.block shell rcPath)

/-- Installations for one shell that succeed, from one state of its rc file to another. Between two
    of them anything but the rc file may change. -/
inductive Installs : List InstallRun → Node → Node → Prop
  | nil (node : Node) : Installs [] node node
  | cons {run : InstallRun} {runs : List InstallRun} {node : Node} {installed : Option Path}
      (s : Store Unit) (hrc : rcFileFor shell run.env = some rcPath)
      (hmeets : (run.program engine reader shell).run.Meets (act ()) allowed run.choices s)
      (hok : (runAlone (run.program engine reader shell) run.choices s).1 = .ok installed)
      (hrest : Installs runs
        ((runAlone (run.program engine reader shell) run.choices s).2.2.node rcPath) node) :
      Installs (run :: runs) (s.node rcPath) node

variable {engine reader allowed shell rcPath} {run : InstallRun} {runs : List InstallRun}
  {node node' : Node} {bytes : Bytes}

/-- One installation that succeeds. -/
theorem install_step {s : Store Unit} {installed : Option Path}
    (hrc : rcFileFor shell run.env = some rcPath)
    (hmeets : (run.program engine reader shell).run.Meets (act ()) allowed run.choices s)
    (hok : (runAlone (run.program engine reader shell) run.choices s).1 = .ok installed)
    (h : Holds (s.node rcPath) bytes) :
    ∃ text, ((∀ x c s, allowed x c s → rcRead rcPath x c s) → text = readableText bytes) ∧
      Holds ((runAlone (run.program engine reader shell) run.choices s).2.2.node rcPath)
        (if runexInitMarker <:+: text then bytes
          else bytes ++ (run.block shell rcPath).getD []) :=
  (sat_install engine reader run.configPath run.yes run.promptConfirm run.bin s hrc h).exec
    (fun _ => rfl) hmeets installed hok

/-- Several installations that succeed: each appends its block or nothing, and if nothing goes
    wrong when the file is read, then as long as no marker is seen. -/
theorem Installs.grows (h : Installs engine reader allowed shell rcPath runs node node')
    (hnode : Holds node bytes) :
    ∃ blocks : List Bytes, blocks.Sublist (confirmedBlocks shell rcPath runs) ∧
      Holds node' (bytes ++ blocks.flatten) ∧
      ((∀ x c s, allowed x c s → rcRead rcPath x c s) →
        bytes ++ blocks.flatten = appendAll Marked bytes (confirmedBlocks shell rcPath runs)) := by
  induction h generalizing bytes with
  | nil node =>
    exact ⟨[], List.Sublist.slnil, by rwa [List.flatten_nil, List.append_nil],
      fun _ => List.append_nil bytes⟩
  | @cons run runs node installed s hrc hmeets hok hrest ih =>
    obtain ⟨text, htext, hstep⟩ := install_step hrc hmeets hok hnode
    obtain ⟨blocks, hblocks, hend, happend⟩ := ih hstep
    cases hblock : run.block shell rcPath with
    | none =>
      have hsame : (if runexInitMarker <:+: text then bytes
          else bytes ++ (none : Option Bytes).getD []) = bytes := by
        rw [Option.getD_none, List.append_nil, ite_self]
      rw [hblock, hsame] at hend happend
      rw [confirmedBlocks, List.filterMap_cons_none hblock]
      exact ⟨blocks, hblocks, hend, happend⟩
    | some block =>
      rw [hblock, Option.getD_some] at hend happend
      rw [confirmedBlocks, List.filterMap_cons_some hblock]
      by_cases hmarker : runexInitMarker <:+: text
      · rw [if_pos hmarker] at hend happend
        refine ⟨blocks, hblocks.cons block, hend, fun hread => (happend hread).trans ?_⟩
        have hseen : Marked bytes := by rwa [Marked, ← htext hread]
        rw [appendAll_cons, appendUnless, if_pos hseen]
        rfl
      · rw [if_neg hmarker, List.append_assoc] at hend happend
        refine ⟨block :: blocks, hblocks.cons_cons block, hend, fun hread =>
          (happend hread).trans ?_⟩
        have hunseen : ¬ Marked bytes := by rwa [Marked, ← htext hread]
        rw [appendAll_cons, appendUnless, if_neg hunseen]
        rfl

theorem mem_confirmedBlocks {block : Bytes} (h : block ∈ confirmedBlocks shell rcPath runs) :
    ∃ cacheStr, block = utf8 (rcBlock shell cacheStr) := by
  obtain ⟨run, -, hblock⟩ := List.mem_filterMap.mp h
  rw [InstallRun.block, confirmedBlock] at hblock
  split at hblock
  · split at hblock
    · exact ⟨_, (Option.some.inj hblock).symm⟩
    · cases hblock
  · cases hblock

/-- What is appended in all, if nothing goes wrong when the file is read. -/
theorem appendAll_confirmedBlocks {first : Bytes} {rest : List Bytes}
    (h : confirmedBlocks shell rcPath runs = first :: rest) (hbytes : ¬ Marked bytes) :
    appendAll Marked bytes (first :: rest) =
      bytes ++ (if Readable (bytes ++ first) then [first] else first :: rest).flatten := by
  have hblock : ∀ block ∈ first :: rest, ∃ cacheStr, block = utf8 (rcBlock shell cacheStr) :=
    fun block hmem => mem_confirmedBlocks (h ▸ hmem)
  split
  · next hreadable =>
    obtain ⟨cacheStr, rfl⟩ := hblock first List.mem_cons_self
    rw [appendAll_of_first hbytes (marked_append_rcBlock hreadable), List.flatten_singleton]
  · next hhidden =>
    have hunseen : ∀ log, ¬ Readable log → ¬ Marked log := fun _ => not_marked_of_not_readable
    refine appendAll_of_first_hidden hunseen (fun log hlog block hmem hreadable => ?_) hbytes
      hhidden
    obtain ⟨cacheStr, rfl⟩ := hblock block (List.mem_cons_of_mem _ hmem)
    exact hlog hreadable.of_append

/-- After installations that succeed, the old bytes of the rc file are a prefix of the new ones, and
    whole blocks follow, at most one for each installation the user has confirmed. If nothing goes
    wrong when the file is read, there is none where the marker is seen, and at most one where the
    file can be read with the first block; where it cannot, there are all of them. -/
theorem rcFile_of_installs (h : Installs engine reader allowed shell rcPath runs node node')
    (hnode : Holds node bytes) :
    ∃ blocks : List Bytes, blocks.Sublist (confirmedBlocks shell rcPath runs) ∧
      Holds node' (bytes ++ blocks.flatten) ∧
      ((∀ x c s, allowed x c s → rcRead rcPath x c s) →
        (Marked bytes → blocks = []) ∧
        ((∀ first ∈ (confirmedBlocks shell rcPath runs).head?, Readable (bytes ++ first)) →
          blocks.length ≤ 1) ∧
        (¬ Marked bytes → (∃ first ∈ (confirmedBlocks shell rcPath runs).head?,
            ¬ Readable (bytes ++ first)) →
          blocks = confirmedBlocks shell rcPath runs)) := by
  obtain ⟨blocks, hblocks, hend, hread⟩ := h.grows hnode
  by_cases hclean : ∀ x c s, allowed x c s → rcRead rcPath x c s
  · rw [hread hclean] at hend
    by_cases hmarked : Marked bytes
    · rw [appendAll_of_seen hmarked] at hend
      refine ⟨[], List.nil_sublist _, by rwa [List.flatten_nil, List.append_nil], fun _ => ?_⟩
      exact ⟨fun _ => rfl, fun _ => Nat.zero_le _, fun h => absurd hmarked h⟩
    cases hconfirmed : confirmedBlocks shell rcPath runs with
    | nil =>
      rw [hconfirmed] at hend
      refine ⟨[], List.Sublist.slnil, by rwa [List.flatten_nil, List.append_nil], fun _ => ?_⟩
      exact ⟨fun _ => rfl, fun _ => Nat.zero_le _, fun _ _ => rfl⟩
    | cons first rest =>
      rw [hconfirmed, appendAll_confirmedBlocks hconfirmed hmarked] at hend
      refine ⟨_, ?_, hend, fun _ => ⟨fun h => absurd h hmarked, fun hreadable => ?_, ?_⟩⟩
      · split
        · exact List.singleton_sublist.mpr List.mem_cons_self
        · exact List.Sublist.refl _
      · rw [if_pos (hreadable first rfl)]
        exact Nat.le_refl _
      · rintro - ⟨_, hfirst, hunreadable⟩
        cases hfirst
        rw [if_neg hunreadable]
  · exact ⟨blocks, hblocks, hend, fun h => absurd h hclean⟩

-- ════════════════════════════════════════════════════════════════════════
-- Two installations for Bash
-- ════════════════════════════════════════════════════════════════════════

def bashHome : HomeDirs := ⟨some ["home".toList], none, none⟩

def bashRcPath : Path := ["home".toList, ".bashrc".toList]

def bashCachePath : Path :=
  ["home".toList, ".cache".toList, "runex".toList, "integration.bash".toList]

/-- A home directory with a `.bashrc`, and nothing else. -/
def bashEntry (path : Path) : Entry :=
  if path = [] ∨ path = ["home".toList] then .directory
  else if path = bashRcPath then .file 0
  else .absent

def bashFiles (bytes : Bytes) : Tree where
  entry := bashEntry
  content _ := bytes
  next := 1
  entry_lt path inode h := by
    rw [bashEntry] at h
    split at h
    · cases h
    split at h
    · cases h
      exact Nat.one_pos
    · cases h

def bashBlock : Bytes := utf8 (rcBlock .bash (displayPath bashCachePath))

/-- An installation with `--yes`, and without a configuration file. No call fails. -/
def bashInstall (n : ℕ) : InstallRun where
  configPath := ["home".toList, "config.toml".toList]
  yes := true
  promptConfirm _ := false
  bin := "runex".toList
  env := bashHome
  choices _ := { amount := n }

variable {n : ℕ}

/-- There is a script without a configuration. -/
theorem exists_bashContents : ∃ contents, cacheContents .bash "runex".toList none = some contents := by
  refine Option.isSome_iff_exists.mp ?_
  rw [cacheContents, Option.isSome_map, exportScript, Option.isSome_map, exportSlots_isSome_iff]
  decide

theorem bashEntry_above : ∀ path ∈ [bashRcPath, bashCachePath], ∀ dir ∈ path.dropLast.inits,
    bashEntry dir = .absent ∨ bashEntry dir = .directory := by
  decide

theorem bashFiles_accessible {path : Path} (bytes : Bytes)
    (hpath : path ∈ [bashRcPath, bashCachePath])
    (hentry : bashEntry path = .absent ∨ bashEntry path = .file 0) :
    Accessible (bashFiles bytes) path where
  above dir hdir := bashEntry_above path hpath dir ((List.mem_inits dir _).mpr hdir)
  loose := hentry.imp_right fun h => ⟨0, h⟩

theorem bashFiles_installable (engine : RegexLite) (reader : ConfigReader) (bytes : Bytes)
    (hn : maxRcFileBytes ≤ n) :
    Installable engine reader .bash (bashInstall n).configPath (bashInstall n).bin bashRcPath
      bashCachePath n (bashFiles bytes).start where
  rcFile := bashFiles_accessible bytes (by simp) (by decide)
  cache := bashFiles_accessible bytes (by simp) (by decide)
  temp := by
    have hentry : ∀ tmp ∈ tempPath bashCachePath,
        bashEntry tmp = .absent ∧ ¬ tmp <+: bashRcPath := by
      decide
    obtain ⟨htmp, hbelow⟩ := hentry _ (tempPath_concat bashCachePath.dropLast _)
    exact ⟨_, tempPath_concat bashCachePath.dropLast _, Or.inl htmp, hbelow⟩
  below := by decide
  above := by decide
  contents := by
    refine Contract.Sat.bindE (Contract.Sat.bindE (Contract.Sat.orThrow fun s hs x hx =>
      ⟨trivial, ?_⟩))
    obtain rfl : s = (bashFiles bytes).start := hs
    rw [act_unfailing hx, perform]
    exact exists_bashContents
  positive := Nat.lt_of_lt_of_le (by decide) hn

/-- One more installation, from any bytes, of which the new ones go on. -/
theorem bashInstall_again (engine : RegexLite) (reader : ConfigReader) {bytes : Bytes}
    (hn : maxRcFileBytes ≤ n) (hne : bytes ≠ []) :
    ∃ bytes', bytes' ≠ [] ∧ ∀ runs node,
      Installs engine reader (unfailing n) .bash bashRcPath runs (.regular bytes') node →
      Installs engine reader (unfailing n) .bash bashRcPath (bashInstall n :: runs)
        (.regular bytes) node := by
  have hrc : rcFileFor .bash (bashInstall n).env = some bashRcPath := rfl
  have hnode : (bashFiles bytes).node bashRcPath = .regular bytes :=
    Tree.node_of_file (show bashEntry bashRcPath = .file 0 by decide)
  have hmeets : ((bashInstall n).program engine reader .bash).run.Meets (act ()) (unfailing n)
      (bashInstall n).choices (bashFiles bytes).start :=
    Prog.meets_of_choices (fun _ _ _ => ⟨rfl, Nat.le_refl _⟩) _ _
  have hok := (sat_install_unfailing (bashInstall n).yes (bashInstall n).promptConfirm hrc rfl
    (bashFiles_installable engine reader bytes hn)).exec (fun _ => rfl) hmeets
  obtain ⟨text, -, hstep⟩ := install_step hrc hmeets hok (Or.inl hnode)
  have hgrown : (if runexInitMarker <:+: text then bytes
      else bytes ++ ((bashInstall n).block .bash bashRcPath).getD []) ≠ [] := by
    split
    · exact hne
    · exact fun hnil => hne (List.append_eq_nil_iff.mp hnil).1
  refine ⟨_, hgrown, fun runs node hrest => ?_⟩
  rw [← hnode]
  refine Installs.cons (bashFiles bytes).start hrc hmeets hok ?_
  rw [hstep.regular hgrown]
  exact hrest

theorem bashInstall_twice (engine : RegexLite) (reader : ConfigReader) {bytes : Bytes}
    (hn : maxRcFileBytes ≤ n) (hne : bytes ≠ []) :
    ∃ node, Installs engine reader (unfailing n) .bash bashRcPath
      [bashInstall n, bashInstall n] (.regular bytes) node := by
  obtain ⟨bytes₁, hne₁, hfirst⟩ := bashInstall_again engine reader hn hne
  obtain ⟨bytes₂, -, hsecond⟩ := bashInstall_again engine reader hn hne₁
  exact ⟨_, hfirst _ _ (hsecond _ _ (Installs.nil _))⟩

theorem unfailing_reads (h : maxRcFileBytes ≤ n) :
    ∀ x c s, unfailing n x c s → rcRead rcPath x c s := by
  rintro x c s ⟨hfailure, hamount⟩
  cases c with
  | openRead | openMetadata => exact fun _ => hfailure
  | readInto => exact fun _ => ⟨hfailure, fun bytes _ hlength => (hlength.trans h).trans hamount⟩
  | _ => trivial

/-- An alias. -/
def shortRcFile : Text := "alias ll='ls -l'\n".toList

/-- One block is enough for a short file. -/
theorem rcFile_of_installs_short :
    ∃ (n : ℕ) (node : Node) (blocks : List Bytes),
      Installs default plainReader (unfailing n) .bash bashRcPath
        [bashInstall n, bashInstall n] (.regular (utf8 shortRcFile)) node ∧
      Holds node (utf8 shortRcFile ++ blocks.flatten) ∧ blocks.length ≤ 1 := by
  obtain ⟨n, hn⟩ : ∃ n, maxRcFileBytes ≤ n := ⟨_, Nat.le_refl _⟩
  have hne : utf8 shortRcFile ≠ [] := by decide
  obtain ⟨node, hinstalls⟩ := bashInstall_twice default plainReader hn hne
  obtain ⟨blocks, -, hnode, hread⟩ := rcFile_of_installs hinstalls (Or.inl rfl)
  refine ⟨n, node, blocks, hinstalls, hnode, (hread (unfailing_reads hn)).2.1 ?_⟩
  rintro first hfirst
  obtain rfl : bashBlock = first := Option.some.inj hfirst
  rw [bashBlock, ← utf8_append]
  exact ⟨by decide +kernel, isSome_decode_iff.mpr ⟨_, rfl⟩⟩

/-- More than an installation reads. -/
def longRcFile : Bytes := List.replicate (maxRcFileBytes + 1) 10

theorem length_longRcFile : longRcFile.length = maxRcFileBytes + 1 := List.length_replicate

theorem not_readable_longRcFile : ¬ Readable longRcFile := by
  rintro ⟨hlength, -⟩
  rw [length_longRcFile] at hlength
  omega

theorem not_readable_longRcFile_append : ¬ Readable (longRcFile ++ bashBlock) := by
  rw [bashBlock]
  exact fun h => not_readable_longRcFile h.of_append

/-- One block is not two. -/
theorem flatten_ne_of_length_le_one {block : Bytes} {blocks : List Bytes} (hnil : block ≠ [])
    (hblocks : blocks.Sublist [block, block]) (hone : blocks.length ≤ 1) :
    blocks.flatten ≠ [block, block].flatten := by
  intro heq
  have hpos := List.length_pos_iff.mpr hnil
  have hlength := congrArg List.length heq
  simp only [List.flatten_cons, List.flatten_nil, List.append_nil, List.length_append] at hlength
  cases blocks with
  | nil =>
    rw [List.flatten_nil, List.length_nil] at hlength
    omega
  | cons first rest =>
    obtain rfl : rest = [] := List.length_eq_zero_iff.mp (by simpa using hone)
    obtain rfl : first = block := by simpa using hblocks.subset List.mem_cons_self
    rw [List.flatten_singleton] at hlength
    omega

/-- A long file grows with every installation. -/
theorem install_not_idempotent :
    ¬ ∀ (engine : RegexLite) (reader : ConfigReader) (n : ℕ) (shell : Shell) (rcPath : Path)
      (runs : List InstallRun) (node node' : Node) (bytes : Bytes),
      Installs engine reader (unfailing n) shell rcPath runs node node' → Holds node bytes →
      ∃ blocks : List Bytes, blocks.Sublist (confirmedBlocks shell rcPath runs) ∧
        blocks.length ≤ 1 ∧ Holds node' (bytes ++ blocks.flatten) := by
  intro h
  obtain ⟨n, hn⟩ : ∃ n, maxRcFileBytes ≤ n := ⟨_, Nat.le_refl _⟩
  have hne : longRcFile ≠ [] := List.ne_nil_of_length_eq_add_one length_longRcFile
  obtain ⟨node, hinstalls⟩ := bashInstall_twice default plainReader hn hne
  have hconfirmed : confirmedBlocks .bash bashRcPath [bashInstall n, bashInstall n] =
      [bashBlock, bashBlock] := rfl
  -- Both blocks are appended.
  have hboth : Holds node (longRcFile ++ [bashBlock, bashBlock].flatten) := by
    obtain ⟨blocks, -, hnode, hread⟩ := hinstalls.grows (Or.inl rfl)
    rw [hread (unfailing_reads hn), hconfirmed, appendAll_confirmedBlocks hconfirmed
      (not_marked_of_not_readable not_readable_longRcFile),
      if_neg not_readable_longRcFile_append] at hnode
    exact hnode
  obtain ⟨blocks, hblocks, hone, hend⟩ := h default plainReader n .bash bashRcPath _ _ node
    longRcFile hinstalls (Or.inl rfl)
  rw [hconfirmed] at hblocks
  have hnil : bashBlock ≠ [] := by decide +kernel
  exact flatten_ne_of_length_le_one hnil hblocks hone (List.append_cancel_left (hend.unique hboth))

end Runex
