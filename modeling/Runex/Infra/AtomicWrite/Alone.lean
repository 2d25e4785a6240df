import Runex.Infra.AtomicWrite.SingleWriter

/-!
# A process that runs alone to its end

## Main definitions

- `solo` — the contract of a process that runs alone
- `runAlone` — its run

## Main results

- `sat_writeCacheFile` — all that writing a cache can do
- `sat_writeAll` — a write that returns has written everything
- `runAlone_loadConfig_state` — reading the configuration changes nothing
-/

namespace Runex

open FileStore Process
open FileSystem (Path)

/-- A process that runs alone. -/
def solo (allowed : Choice → calls.Call → Store Unit → Prop) : Contract calls Choice (Store Unit)
    where
  act := act ()
  allowed := allowed
  rely := fun s s' => s' = s
  guarantee := fun _ _ => True

/-- Run a program alone: its result, the choices left and the files. -/
def runAlone {ε α : Type} (prog : FileProgram ε α) (choices : ℕ → Choice) (s : Store Unit) :
    Except ε α × (ℕ → Choice) × Store Unit :=
  prog.run.exec (act ()) choices s

section Sequence

theorem runAlone_bind_ok {ε α β : Type} {prog : FileProgram ε β} {f : β → FileProgram ε α}
    {choices choices' : ℕ → Choice} {s s' : Store Unit} {b : β}
    (h : runAlone prog choices s = (.ok b, choices', s')) :
    runAlone (prog >>= f) choices s = runAlone (f b) choices' s' := by
  rw [runAlone] at h
  change Prog.exec (act ()) (prog.run >>= _) choices s = _
  rw [Prog.exec_bind, h]
  rfl

theorem runAlone_bind_error {ε α β : Type} {prog : FileProgram ε β} {f : β → FileProgram ε α}
    {choices choices' : ℕ → Choice} {s s' : Store Unit} {e : ε}
    (h : runAlone prog choices s = (.error e, choices', s')) :
    runAlone (prog >>= f) choices s = (.error e, choices', s') := by
  rw [runAlone] at h
  change Prog.exec (act ()) (prog.run >>= _) choices s = _
  rw [Prog.exec_bind, h]
  rfl

theorem runAlone_lift_bind {ε ε' α β : Type} {prog : FileProgram ε' β}
    {f : Except ε' β → FileProgram ε α} {choices : ℕ → Choice} {s : Store Unit} :
    runAlone (ExceptT.lift prog.run >>= f) choices s =
      runAlone (f (runAlone prog choices s).1) (runAlone prog choices s).2.1
        (runAlone prog choices s).2.2 := by
  rw [runAlone, Prog.run_lift_bind, Prog.exec_bind]
  rfl

end Sequence

/-- A program that runs alone ends with its postcondition. -/
theorem exists_runAlone {ε α : Type} {allowed : Choice → calls.Call → Store Unit → Prop}
    {prog : FileProgram ε α} {Q : Except ε α → Store Unit → Prop} {choices : ℕ → Choice}
    {s : Store Unit} (h : (solo allowed).Sat Q prog.run s)
    (hmeets : prog.run.Meets (act ()) allowed choices s) :
    ∃ result choices' s', runAlone prog choices s = (result, choices', s') ∧ Q result s' :=
  ⟨_, _, _, rfl, h.exec (fun _ => rfl) hmeets⟩

section Write

variable {allowed : Choice → calls.Call → Store Unit → Prop} {target tmp : Path} {contents : Text}

/-- Writing one cache. -/
theorem sat_writeCacheFile (s : Store Unit) (htmp : tempPath target = some tmp) :
    (solo allowed).Sat (fun result s' =>
        ((Writer.alone s.toTree target tmp (utf8 contents) allowed).Ended (s.node target) result
            s' ∧
          (Writer.alone s.toTree target tmp (utf8 contents) allowed).Refuses (s.node target)
            result) ∧
        Untouched s.toTree target tmp (utf8 contents) s')
      (writeCacheFile target contents).run s := by
  have hwrite := Writer.sat_writeRefusingSymlink cacheWriteErrors
    (Writer.alone_tolerates s.toTree (utf8 contents) allowed htmp)
    (Writer.alone_before s target tmp (utf8 contents) allowed) rfl
  refine (hwrite.keep (Untouched.refl s) ?_ ?_).weaken fun _ _ _ => trivial
  · intro s₁ s₂ h hrely
    rw [show s₂ = s₁ from hrely]
    exact h
  · exact fun s₁ s₂ h hstep => h.step hstep

/-- A link is refused where the check for links does not fail. Nothing but directories above it
    may be made. -/
theorem sat_writeCacheFile_link {dest : Path} (s : Store Unit) (htmp : tempPath target = some tmp)
    (hlink : s.entry target = .symlink dest)
    (hchecked : ∀ x s, allowed x (.symlinkMetadata target) s → x.failure = none) :
    (solo allowed).Sat (fun result s' => (∃ e, result = .error e) ∧
        ∃ paths, (∀ dir ∈ paths, dir <+: target.dropLast) ∧ s' = s.makeDirs paths)
      (writeCacheFile target contents).run s := by
  obtain ⟨name, hname, -⟩ := Option.map_eq_some_iff.mp htmp
  rw [writeCacheFile, writeRefusingSymlink, parent_eq_some hname]
  refine Contract.Sat.bindE (Contract.Sat.orThrow fun s₁ hs₁ x₁ _ => ⟨trivial, ?_⟩)
  obtain rfl : s₁ = s := hs₁
  obtain ⟨paths, hpaths, hdirs⟩ := act_createDirAll () x₁ s₁ target.dropLast
  rw [show ((solo allowed).act x₁ (.createDirAll target.dropLast) s₁).2 = s₁.makeDirs paths
    from hdirs]
  cases ((solo allowed).act x₁ (.createDirAll target.dropLast) s₁).1 with
  | error e => exact ⟨⟨_, rfl⟩, paths, hpaths, rfl⟩
  | ok _ =>
    refine Contract.Sat.bindE (Contract.Sat.attempt fun s₂ hs₂ x₂ hx₂ => ⟨trivial, ?_⟩)
    obtain rfl : s₂ = s₁.makeDirs paths := hs₂
    have hentry : (s₁.makeDirs paths).entry target = .symlink dest :=
      (Store.entry_makeDirs_of_not_mem fun hmem =>
        (ne_of_above htmp (hpaths _ hmem)).1 rfl).trans hlink
    obtain ⟨hsame, hseen⟩ := act_symlinkMetadata () x₂ (s₁.makeDirs paths) target
    rw [show ((solo allowed).act x₂ (.symlinkMetadata target) (s₁.makeDirs paths)).1 =
        .ok ⟨.symlink, 0⟩ from hseen dest hentry (hchecked x₂ _ hx₂),
      show ((solo allowed).act x₂ (.symlinkMetadata target) (s₁.makeDirs paths)).2 =
        s₁.makeDirs paths from hsame]
    exact ⟨⟨_, rfl⟩, paths, hpaths, rfl⟩

/-- A write that returns has written everything. -/
theorem sat_writeAll {ε : Type} {io : OsError → ε} {inode fuel : ℕ} {bytes : Bytes} (s : Store Unit)
    (hfuel : bytes.length ≤ fuel) :
    (solo allowed).Sat (fun result s' => result = .ok () → s' = s.append inode bytes)
      (writeAll io inode fuel bytes).run s := by
  induction fuel generalizing bytes s with
  | zero =>
    obtain rfl := List.length_eq_zero_iff.mp (Nat.le_zero.mp hfuel)
    exact fun _ => (Store.append_nil s inode).symm
  | succ fuel ih =>
    rw [writeAll]
    split
    · next hnil =>
      subst hnil
      exact fun _ => (Store.append_nil s inode).symm
    refine Contract.Sat.bindE (Contract.Sat.orThrow fun s' hs' x _ => ⟨trivial, ?_⟩)
    obtain rfl : s' = s := hs'
    rcases act_write () x s' inode bytes with ⟨e, hact⟩ | ⟨taken, htaken, hact⟩
    · rw [show (solo allowed).act x (.write inode bytes) s' = _ from hact]
      intro h
      cases h
    · rw [show (solo allowed).act x (.write inode bytes) s' = _ from hact]
      change (solo allowed).Sat _ (ite (taken = 0) _ _ : FileProgram ε Unit).run _
      split
      · intro h
        cases h
      · next hpos =>
        have hlength : (bytes.drop taken).length ≤ fuel := by
          rw [List.length_drop]
          omega
        have hrest := ih (s'.append inode (bytes.take taken)) hlength
        rwa [Store.append_append, List.take_append_drop] at hrest

end Write

-- ════════════════════════════════════════════════════════════════════════
-- Calls that do not fail
-- ════════════════════════════════════════════════════════════════════════

/-- No call fails, and every read and write gets this far or to its end. -/
def unfailing (n : ℕ) (x : Choice) (_ : calls.Call) (_ : Store Unit) : Prop :=
  x.failure = none ∧ n ≤ x.amount

/-- A file is at this path, or can be created there. -/
structure Accessible (tree : Tree) (path : Path) : Prop where
  above : ∀ dir, dir <+: path.dropLast → tree.entry dir = .absent ∨ tree.entry dir = .directory
  loose : Loose tree path

section Unfailing

variable {n : ℕ} {s : Store Unit} {target tmp : Path} {contents : Text} {x : Choice}

theorem act_unfailing {c : calls.Call} (h : unfailing n x c s) :
    (solo (unfailing n)).act x c s = perform () x.amount c s := act_of_not_failing () s h.1 c

theorem act_createDirAll_unfailing {path : Path} (h : unfailing n x (.createDirAll path) s)
    (habove : ∀ dir, dir <+: path → s.entry dir = .absent ∨ s.entry dir = .directory) :
    (solo (unfailing n)).act x (.createDirAll path) s = (.ok (), s.makeDirs path.inits) ∧
      (s.makeDirs path.inits).entry path = .directory := by
  constructor
  · rw [act_unfailing h, perform]
    refine if_pos (List.all_eq_true.mpr fun dir hdir => decide_eq_true ?_)
    exact habove dir ((List.mem_inits dir path).mp hdir)
  · have hmem : path ∈ path.inits := (List.mem_inits path path).mpr List.prefix_rfl
    rcases habove path List.prefix_rfl with habsent | hdir
    · exact if_pos ⟨hmem, habsent⟩
    · rcases Store.entry_makeDirs (s := s) path.inits path with hsame | ⟨habsent, -⟩
      · rw [hsame, hdir]
      · rw [hdir] at habsent
        cases habsent

/-- Everything is written, a piece at a time. -/
theorem sat_writeAll_unfailing {ε : Type} {io : OsError → ε} {inode fuel : ℕ} {bytes : Bytes}
    (hn : 0 < n) (hfuel : bytes.length ≤ fuel) :
    (solo (unfailing n)).Sat (fun result _ => result = .ok ())
      (writeAll io inode fuel bytes).run s := by
  induction fuel generalizing bytes s with
  | zero => exact rfl
  | succ fuel ih =>
    rw [writeAll]
    split
    · exact rfl
    next hne =>
    have hlength : 0 < bytes.length := List.length_pos_iff.mpr hne
    refine Contract.Sat.bindE (Contract.Sat.orThrow fun s' _ x hx => ⟨trivial, ?_⟩)
    have hamount : 0 < x.amount := Nat.lt_of_lt_of_le hn hx.2
    rw [act_unfailing hx, perform]
    change (solo (unfailing n)).Sat _
      (ite (min x.amount bytes.length = 0) _ _ : FileProgram ε Unit).run _
    rw [if_neg (by omega)]
    refine ih ?_
    rw [List.length_drop]
    omega

/-- The shared steps, where the parent is a directory. -/
theorem sat_replaceThroughTemp_unfailing {ε : Type} {io : Path → OsError → ε} (hne : target ≠ tmp)
    (hdir : s.entry tmp.dropLast = .directory) (htarget : s.entry target ≠ .directory)
    (htmp : Loose s.toTree tmp) (hn : 0 < n) :
    (solo (unfailing n)).Sat (fun result _ => result = .ok ())
      (replaceThroughTemp io tmp target contents).run s := by
  -- The temporary file of an earlier crash is removed, if there is one.
  have hremove : ∀ x, unfailing n x (.removeFile tmp) s → ∃ response s',
      (solo (unfailing n)).act x (.removeFile tmp) s = (response, s') ∧ s'.entry tmp = .absent ∧
        ∀ path, path ≠ tmp → s'.entry path = s.entry path := by
    intro x hx
    rw [act_unfailing hx, perform]
    rcases htmp with habsent | ⟨inode, hfile⟩
    · rw [habsent]
      exact ⟨_, _, rfl, habsent, fun _ _ => rfl⟩
    · rw [hfile]
      exact ⟨_, _, rfl, Store.entry_unlink_self, fun _ h => Store.entry_unlink_of_ne h⟩
  have hparent : tmp.dropLast ≠ tmp := by
    intro heq
    rw [heq] at hdir
    rcases htmp with habsent | ⟨inode, hfile⟩
    · rw [hdir] at habsent
      cases habsent
    · rw [hdir] at hfile
      cases hfile
  rw [replaceThroughTemp]
  refine Contract.Sat.bindE (Contract.Sat.attempt fun s₁ hs₁ x₁ hx₁ => ⟨trivial, ?_⟩)
  obtain rfl : s₁ = s := hs₁
  obtain ⟨response, s₂, hact, habsent, hother⟩ := hremove x₁ hx₁
  rw [hact]
  refine Contract.Sat.bindE (Contract.Sat.orThrow fun s₃ hs₃ x₃ hx₃ => ⟨trivial, ?_⟩)
  obtain rfl : s₃ = s₂ := hs₃
  rw [act_unfailing hx₃, perform, if_pos ((hother _ hparent).trans hdir), if_pos habsent]
  refine Contract.Sat.bindE (((sat_writeAll_unfailing hn (Nat.le_refl _)).and
    (sat_writeAll _ (Nat.le_refl _))).mono ?_)
  rintro _ s₄ ⟨rfl, hwritten⟩
  have hs₄ := hwritten rfl
  have hnew : s₄.entry tmp = .file s₃.next := by
    rw [hs₄]
    change (s₃.create () tmp).entry tmp = _
    exact Store.entry_create_self
  have hold : s₄.entry target ≠ .directory := by
    rw [hs₄]
    change (s₃.create () tmp).entry target ≠ _
    rw [Store.entry_create_of_ne hne, hother target hne]
    exact htarget
  refine Contract.Sat.bindE (Contract.Sat.orThrow fun s₅ hs₅ x₅ hx₅ => ⟨trivial, ?_⟩)
  obtain rfl : s₅ = s₄ := hs₅
  rw [act_unfailing hx₅, perform]
  refine Contract.Sat.bindE (Contract.Sat.attempt fun s₆ hs₆ x₆ hx₆ => ⟨trivial, ?_⟩)
  obtain rfl : s₆ = s₅ := hs₆
  have hrename : ((solo (unfailing n)).act x₆ (.rename tmp target) s₆).1 = .ok () := by
    rw [act_unfailing hx₆, perform, hnew]
    dsimp only
    rw [if_neg hold]
  rw [hrename]
  rfl

/-- A file that is accessible can be replaced. -/
theorem sat_writeRefusingSymlink_unfailing {ε : Type} (errors : WriteErrors ε)
    (htmp : tempPath target = some tmp) (htarget : Accessible s.toTree target)
    (hloose : Loose s.toTree tmp) (hn : 0 < n) :
    (solo (unfailing n)).Sat (fun result _ => result = .ok ())
      (writeRefusingSymlink errors target contents).run s := by
  obtain ⟨name, hname, rfl⟩ := Option.map_eq_some_iff.mp htmp
  have hne := tempPath_ne htmp
  rw [writeRefusingSymlink, parent_eq_some hname]
  refine Contract.Sat.bindE (Contract.Sat.orThrow fun s₁ hs₁ x₁ hx₁ => ⟨trivial, ?_⟩)
  obtain rfl : s₁ = s := hs₁
  obtain ⟨hact, hdir⟩ := act_createDirAll_unfailing hx₁ htarget.above
  rw [hact]
  have hkept : ∀ path, ¬ path <+: target.dropLast →
      (s₁.makeDirs target.dropLast.inits).entry path = s₁.entry path := fun path hpath =>
    Store.entry_makeDirs_of_not_mem fun hmem => hpath ((List.mem_inits _ _).mp hmem)
  have hentry := hkept target fun h => (ne_of_above htmp h).1 rfl
  have hentry' := hkept _ fun h => (ne_of_above htmp h).2 rfl
  refine Contract.Sat.bindE (Contract.Sat.attempt fun s₂ hs₂ x₂ hx₂ => ⟨trivial, ?_⟩)
  obtain rfl : s₂ = s₁.makeDirs target.dropLast.inits := hs₂
  have hreplace : (solo (unfailing n)).Sat (fun result _ => result = .ok ())
      (replaceThroughTemp errors.io
        (target.dropLast ++ ['.' :: (name ++ ".runex.tmp".toList)]) target contents).run
        (s₁.makeDirs target.dropLast.inits) := by
    refine sat_replaceThroughTemp_unfailing hne ?_ ?_ ?_ hn
    · rw [List.dropLast_concat]
      exact hdir
    · rw [hentry]
      rcases htarget.loose with habsent | ⟨inode, hfile⟩
      · rw [habsent]
        intro h
        cases h
      · rw [hfile]
        intro h
        cases h
    · rw [Loose, hentry']
      exact hloose
  rw [show fileName target = some name from hname]
  rw [act_unfailing hx₂, perform, hentry]
  rcases htarget.loose with habsent | ⟨inode, hfile⟩
  · rw [habsent]
    exact hreplace
  · rw [hfile]
    exact hreplace

theorem sat_writeCacheFile_unfailing (htmp : tempPath target = some tmp)
    (htarget : Accessible s.toTree target) (hloose : Loose s.toTree tmp) (hn : 0 < n) :
    (solo (unfailing n)).Sat (fun result _ => result = .ok ())
      (writeCacheFile target contents).run s :=
  sat_writeRefusingSymlink_unfailing cacheWriteErrors htmp htarget hloose hn

end Unfailing

section Load

variable {ε β : Type} {s : Store Unit}

/-- A call that only looks, in a program that only looks. -/
theorem quiet_orThrow {io : OsError → ε} {c : Call} {f : Answer c → FileProgram ε β}
    (hlooks : c.looks)
    (h : ∀ a s, (quiet ()).Sat (fun _ _ => True) (f a).run s) :
    (quiet ()).Sat (fun _ _ => True) (orThrow io c >>= f).run s := by
  refine Contract.Sat.bindE (Contract.Sat.orThrow fun s' _ x _ => ⟨act_looks () x s' hlooks, ?_⟩)
  cases ((quiet ()).act x c s').1 with
  | error e => trivial
  | ok a => exact h a _

theorem quiet_loadConfig (engine : RegexLite) (reader : ConfigReader) (path : Path) :
    (quiet ()).Sat (fun _ _ => True) (Stepwise.loadConfig engine reader path).run s := by
  refine Contract.Sat.bindE (Contract.Sat.mono (Q := fun _ _ => True) ?_ ?_)
  · refine quiet_orThrow rfl fun resolved s => quiet_orThrow rfl fun file s =>
      quiet_orThrow rfl fun info s => ?_
    split
    · trivial
    split
    · trivial
    · exact Contract.Sat.orThrow fun s' _ x _ => ⟨act_looks () x s' rfl, trivial⟩
  · intro result s _
    cases result with
    | error e => trivial
    | ok content => trivial

/-- Reading the configuration, as a part of a program. -/
theorem sat_loadConfig (engine : RegexLite) (reader : ConfigReader) (path : Path)
    (allowed : Choice → calls.Call → Store Unit → Prop) :
    (solo allowed).Sat (fun _ s' => s' = s) (Stepwise.loadConfig engine reader path).run s := by
  have hkeep := (quiet_loadConfig engine reader path (s := s)).keep (K := fun s' => s' = s) rfl
    (fun _ _ h hrely => hrely.trans h) (fun _ _ h hstep => hstep.trans h)
  exact ((hkeep.mono fun _ _ h => h.2).weaken fun _ _ _ => trivial).restrict fun _ _ _ _ => trivial

end Load

end Runex
