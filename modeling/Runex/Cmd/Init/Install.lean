import Runex.Cmd.Init.RcFile
import Runex.Infra.AtomicWrite.Alone

/-!
# One installation

What an installation does to the rc file, and when it succeeds.

## Main definitions

- `Holds`, `readableText` — the bytes of an rc file, and what is read of them
- `Installable` — what an installation needs to find

## Main results

- `sat_install` — all that an installation can do to the rc file
- `sat_install_unfailing` — an installation none of whose calls fails returns
-/

namespace Runex

open FileStore Process
open FileSystem (Path decode)

-- ════════════════════════════════════════════════════════════════════════
-- What is seen of an rc file
-- ════════════════════════════════════════════════════════════════════════

/-- The file has these bytes. A file that is not there has none. -/
def Holds (node : Node) (bytes : Bytes) : Prop :=
  node = .regular bytes ∨ node = .absent ∧ bytes = []

theorem Holds.regular {node : Node} {bytes : Bytes} (h : Holds node bytes) (hne : bytes ≠ []) :
    node = .regular bytes := h.resolve_right fun hnil => hne hnil.2

theorem Holds.unique {node : Node} {bytes bytes' : Bytes} (h : Holds node bytes)
    (h' : Holds node bytes') : bytes = bytes' := by
  rcases h with rfl | ⟨rfl, rfl⟩
  · rcases h' with hregular | ⟨habsent, -⟩
    · exact Node.regular.inj hregular
    · cases habsent
  · rcases h' with hregular | ⟨-, rfl⟩
    · cases hregular
    · rfl

/-- What an installation reads, if nothing goes wrong. -/
def readableText (bytes : Bytes) : Text :=
  if bytes.length ≤ maxRcFileBytes then (decode bytes.toByteArray).getD [] else []

theorem readableText_of_readable {s : Text} (h : (utf8 s).length ≤ maxRcFileBytes) :
    readableText (utf8 s) = s := by
  rw [readableText, if_pos h, decode_eq_some_iff.mpr rfl, Option.getD_some]

-- ════════════════════════════════════════════════════════════════════════
-- Reading the rc file
-- ════════════════════════════════════════════════════════════════════════

/-- The calls that read this rc file do not fail, and read all of it that the cap allows. -/
def rcRead (rcPath : Path) (x : Choice) (c : calls.Call) (s : Store Unit) : Prop :=
  match c with
  | .openRead path => path = rcPath → x.failure = none
  | .openMetadata opened => opened = s.entry rcPath → x.failure = none
  | .readInto opened => opened = s.entry rcPath →
      x.failure = none ∧ ∀ bytes, s.node rcPath = .regular bytes →
        bytes.length ≤ maxRcFileBytes → bytes.length ≤ x.amount
  | _ => True

variable {allowed : Choice → calls.Call → Store Unit → Prop} {rcPath : Path} {bytes : Bytes}
  {ε : Type}

/-- A read of the rc file always returns a text, and none of a file that is not there. -/
theorem sat_readRcContent_returns (s : Store Unit) :
    (solo allowed).Sat (fun result s' => s' = s ∧ ∃ text, result = .ok text ∧
        (s.entry rcPath = .absent → text = []))
      (readRcContent rcPath : FileProgram ε Text).run s := by
  refine Contract.Sat.bindE (Contract.Sat.attempt fun s₁ hs₁ x₁ _ => ⟨trivial, ?_⟩)
  obtain rfl : s₁ = s := hs₁
  rcases act_openRead () x₁ s₁ rcPath with ⟨e, hact⟩ | ⟨hpresent, hact⟩
  · rw [show (solo allowed).act x₁ (.openRead rcPath) s₁ = _ from hact]
    exact ⟨rfl, _, rfl, fun _ => rfl⟩
  rw [show (solo allowed).act x₁ (.openRead rcPath) s₁ = _ from hact]
  refine Contract.Sat.bindE (Contract.Sat.attempt fun s₂ hs₂ x₂ _ => ⟨trivial, ?_⟩)
  obtain rfl : s₂ = s₁ := hs₂
  rw [show ((solo allowed).act x₂ (.openMetadata (s₂.entry rcPath)) s₂).2 = s₂ from
    act_looks () x₂ s₂ rfl]
  cases ((solo allowed).act x₂ (.openMetadata (s₂.entry rcPath)) s₂).1 with
  | error e => exact ⟨rfl, _, rfl, fun _ => rfl⟩
  | ok info =>
    dsimp only
    split
    · exact ⟨rfl, _, rfl, fun _ => rfl⟩
    split
    · exact ⟨rfl, _, rfl, fun _ => rfl⟩
    refine Contract.Sat.bindE (Contract.Sat.attempt fun s₃ hs₃ x₃ _ => ⟨trivial, ?_⟩)
    obtain rfl : s₃ = s₂ := hs₃
    rw [show ((solo allowed).act x₃ (.readInto (s₃.entry rcPath)) s₃).2 = s₃ from
      act_looks () x₃ s₃ rfl]
    cases ((solo allowed).act x₃ (.readInto (s₃.entry rcPath)) s₃).1 with
    | error e => exact ⟨rfl, _, rfl, fun _ => rfl⟩
    | ok content => exact ⟨rfl, _, rfl, fun habsent => absurd habsent hpresent⟩

/-- Of a file that is there and can be opened, all is read that can be. -/
theorem sat_readRcContent_regular (s : Store Unit)
    (hread : ∀ x c s, allowed x c s → rcRead rcPath x c s) (h : s.node rcPath = .regular bytes) :
    (solo allowed).Sat (fun result _ => result = .ok (readableText bytes))
      (readRcContent rcPath : FileProgram ε Text).run s := by
  obtain ⟨inode, hentry, hcontent⟩ := Tree.node_eq_regular.mp h
  refine Contract.Sat.bindE (Contract.Sat.attempt fun s₁ hs₁ x₁ hx₁ => ⟨trivial, ?_⟩)
  obtain rfl : s₁ = s := hs₁
  have hopen : (solo allowed).act x₁ (.openRead rcPath) s₁ = (.ok (.file inode), s₁) := by
    refine (act_of_not_failing () s₁ (hread _ _ _ hx₁ rfl) _).trans ?_
    rw [perform, hentry]
  rw [hopen]
  refine Contract.Sat.bindE (Contract.Sat.attempt fun s₂ hs₂ x₂ hx₂ => ⟨trivial, ?_⟩)
  obtain rfl : s₂ = s₁ := hs₂
  have hmeta : (solo allowed).act x₂ (.openMetadata (.file inode)) s₂ =
      (.ok ⟨.file, bytes.length⟩, s₂) := by
    refine (act_of_not_failing () s₂ (hread _ _ _ hx₂ hentry.symm) _).trans ?_
    rw [perform, Tree.metadata, hcontent]
  rw [hmeta]
  dsimp only
  rw [if_neg (not_not_intro rfl)]
  split
  · next hlength =>
    rw [readableText, if_neg (Nat.not_le.mpr hlength)]
    rfl
  · next hlength =>
    refine Contract.Sat.bindE (Contract.Sat.attempt fun s₃ hs₃ x₃ hx₃ => ⟨trivial, ?_⟩)
    obtain rfl : s₃ = s₂ := hs₃
    obtain ⟨hfailure, hamount⟩ := hread _ _ _ hx₃ hentry.symm
    have hinto : (solo allowed).act x₃ (.readInto (.file inode)) s₃ =
        (.ok ((decode bytes.toByteArray).getD []), s₃) := by
      refine (act_of_not_failing () s₃ hfailure _).trans ?_
      rw [perform, hcontent, List.take_of_length_le (hamount bytes h (Nat.not_lt.mp hlength))]
    rw [hinto, readableText, if_pos (Nat.not_lt.mp hlength)]
    rfl

theorem sat_readRcContent_absent (s : Store Unit)
    (hread : ∀ x c s, allowed x c s → rcRead rcPath x c s) (h : s.node rcPath = .absent) :
    (solo allowed).Sat (fun result _ => result = .ok [])
      (readRcContent rcPath : FileProgram ε Text).run s := by
  have hentry := Tree.node_eq_absent.mp h
  refine Contract.Sat.bindE (Contract.Sat.attempt fun s₁ hs₁ x₁ hx₁ => ⟨trivial, ?_⟩)
  obtain rfl : s₁ = s := hs₁
  have hopen : (solo allowed).act x₁ (.openRead rcPath) s₁ = (.error .noEntry, s₁) := by
    refine (act_of_not_failing () s₁ (hread _ _ _ hx₁ rfl) _).trans ?_
    rw [perform, hentry]
  rw [hopen]
  rfl

/-- All that reading the rc file can do. -/
theorem sat_readRcContent (s : Store Unit) (h : Holds (s.node rcPath) bytes) :
    (solo allowed).Sat (fun result s' => s' = s ∧ ∃ text, result = .ok text ∧
        (s.entry rcPath = .absent → text = []) ∧
        ((∀ x c s, allowed x c s → rcRead rcPath x c s) → text = readableText bytes))
      (readRcContent rcPath : FileProgram ε Text).run s := by
  have hreturns : (solo allowed).Sat (fun result s' => s' = s ∧ ∃ text, result = .ok text ∧
        (s.entry rcPath = .absent → text = []))
      (readRcContent rcPath : FileProgram ε Text).run s := sat_readRcContent_returns s
  by_cases hread : ∀ x c s, allowed x c s → rcRead rcPath x c s
  · have htext : (solo allowed).Sat (fun result _ => result = .ok (readableText bytes))
        (readRcContent rcPath : FileProgram ε Text).run s := by
      rcases h with hregular | ⟨habsent, rfl⟩
      · exact sat_readRcContent_regular s hread hregular
      · exact sat_readRcContent_absent s hread habsent
    refine (hreturns.and htext).mono ?_
    rintro result s' ⟨⟨hs, text, hresult, habsent⟩, hreadable⟩
    exact ⟨hs, text, hresult, habsent, fun _ => Except.ok.inj (hresult.symm.trans hreadable)⟩
  · refine hreturns.mono ?_
    rintro result s' ⟨hs, text, hresult, habsent⟩
    exact ⟨hs, text, hresult, habsent, fun h => absurd h hread⟩

-- ════════════════════════════════════════════════════════════════════════
-- Writing it
-- ════════════════════════════════════════════════════════════════════════

/-- The name of an rc file. -/
def rcFileName : Shell → Text
  | .bash => ".bashrc".toList
  | .zsh => ".zshrc".toList
  | .pwsh => "Microsoft.PowerShell_profile.ps1".toList
  | .nu => "env.nu".toList
  | .clink => []

variable {shell : Shell} {env : HomeDirs} {cacheHome : Option Path} {target : Path} {block : Text}

theorem rcFileFor_eq_some (h : rcFileFor shell env = some rcPath) :
    ∃ dir, rcPath = dir ++ [rcFileName shell] := by
  obtain ⟨home, -, hpath⟩ := Option.bind_eq_some_iff.mp h
  cases shell with
  | clink => cases hpath
  | bash | zsh => exact ⟨_, (Option.some.inj hpath).symm⟩
  | pwsh =>
    refine ⟨home ++ [".config".toList, "powershell".toList], ?_⟩
    rw [← Option.some.inj hpath, List.append_assoc]
    rfl
  | nu =>
    refine ⟨(xdgConfigHomeWith env).getD (home ++ [".config".toList]) ++ ["nushell".toList], ?_⟩
    rw [← Option.some.inj hpath, List.append_assoc]
    rfl

theorem rcFileName_ne (shell : Shell) (h : shell ≠ .clink) :
    rcFileName shell ≠ cacheName shell ∧
      rcFileName shell ≠ '.' :: (cacheName shell ++ ".runex.tmp".toList) := by
  cases shell with
  | clink => exact absurd rfl h
  | _ => decide +kernel

/-- The rc file is neither the cache nor its temporary file. -/
theorem rcFileFor_ne (hrc : rcFileFor shell env = some rcPath)
    (hcache : cachePath shell cacheHome = .ok (some target)) :
    rcPath ≠ target ∧ tempPath target ≠ some rcPath := by
  obtain ⟨dir, rfl⟩ := rcFileFor_eq_some hrc
  obtain ⟨hshell, -⟩ := cachePath_eq_some hcache
  obtain ⟨hname, htmp⟩ := rcFileName_ne shell hshell
  exact ne_cachePath_of_name_ne hcache dir hname htmp

theorem not_prefix_dropLast (hpath : rcPath ≠ []) : ¬ rcPath <+: rcPath.dropLast := by
  intro h
  have hlength := h.length_le
  have hpos := List.length_pos_iff.mpr hpath
  rw [List.length_dropLast] at hlength
  omega

/-- An append that returns has appended to a file, or created it. -/
theorem sat_appendToRcFile (s : Store Unit) (hpath : rcPath ≠ []) :
    (solo allowed).Sat (fun result s' => result = .ok () →
        ∃ bytes, Holds (s.node rcPath) bytes ∧ s'.node rcPath = .regular (bytes ++ utf8 block))
      (appendToRcFile rcPath block).run s := by
  rw [appendToRcFile, parent, if_neg hpath]
  refine Contract.Sat.bindE (Contract.Sat.orThrow fun s₁ hs₁ x₁ _ => ⟨trivial, ?_⟩)
  obtain rfl : s₁ = s := hs₁
  cases ((solo allowed).act x₁ (.createDirAll rcPath.dropLast) s₁).1 with
  | error e => exact nofun
  | ok _ =>
    obtain ⟨paths, hpaths, hdirs⟩ := act_createDirAll () x₁ s₁ rcPath.dropLast
    rw [show ((solo allowed).act x₁ (.createDirAll rcPath.dropLast) s₁).2 = _ from hdirs]
    have hentry : (s₁.makeDirs paths).entry rcPath = s₁.entry rcPath :=
      Store.entry_makeDirs_of_not_mem fun hmem => not_prefix_dropLast hpath (hpaths rcPath hmem)
    refine Contract.Sat.bindE (Contract.Sat.orThrow fun s₂ hs₂ x₂ _ => ⟨trivial, ?_⟩)
    obtain rfl : s₂ = s₁.makeDirs paths := hs₂
    rcases act_openAppend () x₂ (s₁.makeDirs paths) rcPath with
      ⟨e, hact⟩ | ⟨habsent, hact⟩ | ⟨inode, hfile, hact⟩
    · rw [show (solo allowed).act x₂ (.openAppend rcPath) _ = _ from hact]
      exact nofun
    · rw [show (solo allowed).act x₂ (.openAppend rcPath) _ = _ from hact]
      refine (sat_writeAll _ (Nat.le_refl _)).mono fun result s' hwritten hok => ?_
      rw [hentry] at habsent
      refine ⟨[], Or.inr ⟨Tree.node_eq_absent.mpr habsent, rfl⟩, ?_⟩
      rw [hwritten hok, Store.node_append Store.entry_create_self, Store.content_create_self]
    · rw [show (solo allowed).act x₂ (.openAppend rcPath) _ = _ from hact]
      refine (sat_writeAll _ (Nat.le_refl _)).mono fun result s' hwritten hok => ?_
      refine ⟨s₁.content inode, Or.inl (Tree.node_of_file (hentry.symm.trans hfile)), ?_⟩
      rw [hwritten hok, Store.node_append hfile]
      rfl

/-- A file is as it was, or a directory where there was none. -/
def Kept (node node' : Node) : Prop := node' = node ∨ node = .absent ∧ node' = .directory

theorem Kept.holds {node node' : Node} (h : Kept node node') (hbytes : Holds node bytes)
    (hpresent : node ≠ .absent) : Holds node' bytes := by
  rcases h with rfl | ⟨habsent, -⟩
  · exact hbytes
  · exact absurd habsent hpresent

theorem Kept.bytes_eq {node node' : Node} {bytes' : Bytes} (h : Kept node node')
    (hbytes : Holds node bytes) (hbytes' : Holds node' bytes') : bytes = bytes' := by
  rcases h with rfl | ⟨-, rfl⟩
  · exact hbytes.unique hbytes'
  · rcases hbytes' with hregular | ⟨habsent, -⟩
    · cases hregular
    · cases habsent

theorem kept_of_untouched {s s' : Store Unit} {tmp : Path}
    (h : Untouched s.toTree target tmp bytes s') (htarget : rcPath ≠ target) (htmp : rcPath ≠ tmp) :
    Kept (s.node rcPath) (s'.node rcPath) := by
  rcases h.names rcPath htarget htmp with hsame | ⟨habsent, hdir, -⟩
  · exact Or.inl (Tree.node_congr hsame fun inode hinode =>
      h.files inode (s.entry_lt rcPath inode hinode))
  · exact Or.inr ⟨Tree.node_eq_absent.mpr habsent, Tree.node_eq_directory.mpr hdir⟩

/-- Writing the cache keeps the rc file. -/
theorem sat_writeCacheFile_kept (s : Store Unit) (contents : Text)
    (hrc : rcFileFor shell env = some rcPath)
    (hcache : cachePath shell cacheHome = .ok (some target)) :
    (solo allowed).Sat (fun _ s' => Kept (s.node rcPath) (s'.node rcPath))
      (writeCacheFile target contents).run s := by
  obtain ⟨hne, hnetmp⟩ := rcFileFor_ne hrc hcache
  obtain ⟨tmp, htmp⟩ := exists_tempPath hcache
  refine (sat_writeCacheFile s htmp).mono fun _ s' hwritten => ?_
  exact kept_of_untouched hwritten.2 hne fun heq => hnetmp (heq ▸ htmp)

section Install

variable (engine : RegexLite) (reader : ConfigReader) (configPath : Path) (yes : Bool)
  (promptConfirm : Text → Bool) (bin : Text)

/-- What an installation that sees no marker appends: nothing if the user declines. -/
def confirmedBlock (shell : Shell) (yes : Bool) (promptConfirm : Text → Bool) (env : HomeDirs)
    (rcPath : Path) : Option Bytes :=
  match cachePath shell (xdgCacheHomeWith env) with
  | .ok (some target) =>
    if yes || promptConfirm (installPrompt false target rcPath) then
      some (utf8 (rcBlock shell (displayPath target)))
    else none
  | _ => none

theorem rcFileFor_ne_nil (h : rcFileFor shell env = some rcPath) : rcPath ≠ [] := by
  obtain ⟨dir, rfl⟩ := rcFileFor_eq_some h
  exact List.concat_ne_nil _ _

/-- All that an installation can do to the rc file. -/
theorem sat_install (s : Store Unit) (hrc : rcFileFor shell env = some rcPath)
    (h : Holds (s.node rcPath) bytes) :
    (solo allowed).Sat (fun result s' => ∀ installed, result = .ok installed → ∃ text,
        ((∀ x c s, allowed x c s → rcRead rcPath x c s) → text = readableText bytes) ∧
        Holds (s'.node rcPath) (if runexInitMarker <:+: text then bytes
          else bytes ++ (confirmedBlock shell yes promptConfirm env rcPath).getD []))
      (installRcfileIntegration engine reader shell configPath yes promptConfirm bin env).run
      s := by
  rw [installRcfileIntegration, hrc, confirmedBlock]
  cases hcache : cachePath shell (xdgCacheHomeWith env) with
  | error e => exact nofun
  | ok found =>
    cases found with
    | none => exact nofun
    | some target =>
      dsimp only
      refine Contract.Sat.bindE ((sat_readRcContent s h).mono ?_)
      rintro _ s' ⟨rfl, text, rfl, habsent, hread⟩
      dsimp only
      by_cases hconfirmed :
          (yes || promptConfirm (installPrompt (runexInitMarker <:+: text) target rcPath)) = true
      · rw [if_neg (not_not_intro hconfirmed)]
        refine Contract.Sat.bindE (Contract.Sat.lift ((sat_loadConfig engine reader configPath
          allowed).mono ?_))
        rintro result s₁ rfl
        dsimp only
        cases cacheContents shell bin result.toOption with
        | none => exact nofun
        | some contents =>
          refine Contract.Sat.bindE (Contract.Sat.lift
            ((sat_writeCacheFile_kept s₁ contents hrc hcache).mono ?_))
          rintro (e | _) s₂ hkept
          · exact nofun
          dsimp only
          by_cases hmarker : runexInitMarker <:+: text
          · rw [decide_eq_true hmarker, if_neg (not_not_intro rfl)]
            rintro installed -
            refine ⟨text, hread, ?_⟩
            rw [if_pos hmarker]
            refine hkept.holds h fun hnone => ?_
            rw [habsent (Tree.node_eq_absent.mp hnone), List.infix_nil] at hmarker
            exact absurd hmarker (by decide)
          · rw [decide_eq_false hmarker, if_pos Bool.false_ne_true]
            refine Contract.Sat.bindE ((sat_appendToRcFile s₂ (rcFileFor_ne_nil hrc)).mono ?_)
            rintro (e | _) s₃ happended
            · exact nofun
            rintro installed -
            refine ⟨text, hread, ?_⟩
            rw [decide_eq_false hmarker] at hconfirmed
            rw [if_neg hmarker, if_pos hconfirmed, Option.getD_some]
            obtain ⟨bytes', hbytes', hnew⟩ := happended rfl
            rw [hkept.bytes_eq h hbytes']
            exact Or.inl hnew
      · rw [if_pos hconfirmed]
        rintro installed -
        refine ⟨text, hread, ?_⟩
        split
        · exact h
        · next hmarker =>
          rw [decide_eq_false hmarker] at hconfirmed
          rw [if_neg hconfirmed, Option.getD_none, List.append_nil]
          exact h

end Install

-- ════════════════════════════════════════════════════════════════════════
-- Installations that succeed
-- ════════════════════════════════════════════════════════════════════════

section Success

variable {n : ℕ} {s : Store Unit} {tmp : Path}

/-- A block can be appended to a file that is accessible. -/
theorem sat_appendToRcFile_unfailing (hpath : rcPath ≠ []) (h : Accessible s.toTree rcPath)
    (hn : 0 < n) :
    (solo (unfailing n)).Sat (fun result _ => result = .ok ())
      (appendToRcFile rcPath block).run s := by
  rw [appendToRcFile, parent, if_neg hpath]
  refine Contract.Sat.bindE (Contract.Sat.orThrow fun s₁ hs₁ x₁ hx₁ => ⟨trivial, ?_⟩)
  obtain rfl : s₁ = s := hs₁
  obtain ⟨hact, hdir⟩ := act_createDirAll_unfailing hx₁ h.above
  rw [hact]
  refine Contract.Sat.bindE (Contract.Sat.orThrow fun s₂ hs₂ x₂ hx₂ => ⟨trivial, ?_⟩)
  obtain rfl : s₂ = s₁.makeDirs rcPath.dropLast.inits := hs₂
  have hentry : (s₁.makeDirs rcPath.dropLast.inits).entry rcPath = s₁.entry rcPath :=
    Store.entry_makeDirs_of_not_mem fun hmem =>
      not_prefix_dropLast hpath ((List.mem_inits _ _).mp hmem)
  rw [act_unfailing hx₂, perform, hentry]
  rcases h.loose with habsent | ⟨inode, hfile⟩
  · rw [habsent]
    dsimp only
    rw [if_pos hdir]
    exact sat_writeAll_unfailing hn (Nat.le_refl _)
  · rw [hfile]
    exact sat_writeAll_unfailing hn (Nat.le_refl _)

/-- Writing the cache leaves an rc file accessible that has nothing to do with it. -/
theorem Accessible.of_untouched {s s' : Store Unit} (h : Accessible s.toTree rcPath)
    (hcache : Untouched s.toTree target tmp bytes s') (hbelow : ¬ rcPath <+: target)
    (htarget : ¬ target <+: rcPath) (htmp : ¬ tmp <+: rcPath) : Accessible s'.toTree rcPath where
  above dir hdir := by
    have hprefix : dir <+: rcPath := hdir.trans (List.dropLast_prefix rcPath)
    rcases hcache.names dir (fun heq => htarget (heq ▸ hprefix)) (fun heq => htmp (heq ▸ hprefix))
      with hsame | ⟨-, hnow, -⟩
    · rw [hsame]
      exact h.above dir hdir
    · exact Or.inr hnow
  loose := by
    rcases hcache.names rcPath (fun heq => htarget (heq ▸ List.prefix_rfl))
      (fun heq => htmp (heq ▸ List.prefix_rfl)) with hsame | ⟨-, -, habove⟩
    · rw [Loose, hsame]
      exact h.loose
    · exact absurd (habove.trans (List.dropLast_prefix target)) hbelow

/-- What an installation needs to find. -/
structure Installable (engine : RegexLite) (reader : ConfigReader) (shell : Shell)
    (configPath : Path) (bin : Text) (rcPath target : Path) (n : ℕ) (s : Store Unit) : Prop where
  rcFile : Accessible s.toTree rcPath
  cache : Accessible s.toTree target
  temp : ∃ tmp, tempPath target = some tmp ∧ Loose s.toTree tmp ∧ ¬ tmp <+: rcPath
  below : ¬ rcPath <+: target
  above : ¬ target <+: rcPath
  contents : (solo (unfailing n)).Sat (fun result _ => ∃ contents,
      cacheContents shell bin result.toOption = some contents)
    (Stepwise.loadConfig engine reader configPath).run s
  positive : 0 < n

/-- An installation none of whose calls fails returns. -/
theorem sat_install_unfailing {engine : RegexLite} {reader : ConfigReader} {configPath : Path}
    {bin : Text} (yes : Bool) (promptConfirm : Text → Bool)
    (hrc : rcFileFor shell env = some rcPath)
    (hcache : cachePath shell (xdgCacheHomeWith env) = .ok (some target))
    (h : Installable engine reader shell configPath bin rcPath target n s) :
    (solo (unfailing n)).Sat (fun result _ => result = .ok (some rcPath))
      (installRcfileIntegration engine reader shell configPath yes promptConfirm bin env).run
      s := by
  obtain ⟨tmp, htmp, hloose, hbelow⟩ := h.temp
  rw [installRcfileIntegration, hrc, hcache]
  dsimp only
  refine Contract.Sat.bindE ((sat_readRcContent_returns s).mono ?_)
  rintro _ _ ⟨rfl, text, rfl, -⟩
  dsimp only
  split
  · rfl
  refine Contract.Sat.bindE (Contract.Sat.lift (((sat_loadConfig engine reader configPath
    (unfailing n)).and h.contents).mono ?_))
  rintro result s₁ ⟨rfl, contents, hcontents⟩
  dsimp only
  rw [hcontents]
  refine Contract.Sat.bindE (Contract.Sat.lift (((sat_writeCacheFile s₁ htmp).and
    (sat_writeCacheFile_unfailing htmp h.cache hloose h.positive)).mono ?_))
  rintro _ s₂ ⟨⟨-, huntouched⟩, rfl⟩
  dsimp only
  split
  · refine Contract.Sat.bindE ((sat_appendToRcFile_unfailing (rcFileFor_ne_nil hrc)
      (h.rcFile.of_untouched huntouched h.below h.above hbelow) h.positive).mono ?_)
    rintro _ s₃ rfl
    rfl
  · rfl

end Success

end Runex
