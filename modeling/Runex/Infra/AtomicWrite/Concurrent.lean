import Runex.Infra.AtomicWrite.SingleWriter

/-!
# Writers side by side

Several processes write the same target, each with its own contents and all through the one
temporary name: a process removes what it finds there, so the file another has begun may lose its
name to a newer one, and be renamed in its place or rename it. The target stays whole in the runs
in which no process renames a file that another has created.

## Main definitions

- `Undisturbed` — a process does not rename the file of another
- `Whole` — the target has never been seen half written

## Main results

- `concurrent_replacement` — undisturbed writers keep the target whole
- `concurrent_writers_tear` — others do not
-/

namespace Runex

open FileStore Process
open FileSystem (Path)

variable {ι ε : Type}

/-- Processes on the same files. -/
def several (progs : ι → FileProgram ε Unit) (tree : Tree) :
    System calls ι (Store ι) (Except ε Unit) :=
  ⟨fun i => (progs i).run, tree.start⟩

/-- What a process renames is no file that another has created. -/
def undisturbed [DecidableEq ι] (who : ι) (c : calls.Call) (s : Store ι) : Bool :=
  match c with
  | .rename source _ =>
    match s.entry source with
    | .file inode => s.creator inode = some who
    | _ => true
  | _ => true

def Undisturbed [DecidableEq ι] (who : ι) (_ : Choice) (c : calls.Call) (s : Store ι) : Prop :=
  undisturbed who c s = true

instance [DecidableEq ι] (who : ι) (x : Choice) (c : calls.Call) (s : Store ι) :
    Decidable (Undisturbed who x c s) :=
  inferInstanceAs (Decidable (_ = true))

/-- The path leads to the target, by links other than one at the temporary name. -/
inductive LeadsTo (tree : Tree) (target : Path) : Path → Prop where
  | here (h : ∀ dest, tree.entry target ≠ .symlink dest) : LeadsTo tree target target
  | link {path dest : Path} (hne : path ≠ target) (htmp : tempPath target ≠ some path)
      (hlink : tree.entry path = .symlink dest) (h : LeadsTo tree target dest) :
      LeadsTo tree target path

/-- After these turns the target has its old content or all of the contents of one process, and
    the contents of each process that has returned have been there. -/
structure Whole [DecidableEq ι] (tree : Tree) (target : Path) (contents : ι → Text)
    (system : System calls ι (Store ι) (Except ε Unit)) (turns : List (ι × Choice)) : Prop where
  node : (system.run act turns).state.node target = tree.node target ∨
    ∃ i, (system.run act turns).state.node target = .regular (utf8 (contents i))
  returned : ∀ i, (system.run act turns).progs i = .done (.ok ()) →
    ∃ earlier, earlier <+: turns ∧
      (system.run act earlier).state.node target = .regular (utf8 (contents i))

variable {tree : Tree} {target tmp path : Path}

theorem LeadsTo.follow (h : LeadsTo tree target path) {links : ℕ} {resolved : Path}
    (hfollow : tree.follow links path = .ok resolved) : resolved = target := by
  induction h generalizing links with
  | here hplain =>
    cases links with
    | zero => cases hfollow
    | succ links =>
      rw [Tree.follow] at hfollow
      split at hfollow
      · cases hfollow
      · next dest hlink => exact absurd hlink (hplain dest)
      · cases hfollow
        rfl
  | link _ _ hlink _ ih =>
    cases links with
    | zero => cases hfollow
    | succ links =>
      rw [Tree.follow, hlink] at hfollow
      exact ih hfollow

/-- Writers of the target leave the links to it. -/
theorem LeadsTo.spared {who : ι} {s s' : Store ι} (h : LeadsTo s.toTree target path)
    (htmp : tempPath target = some tmp) (hs : Spares who target tmp s s') :
    LeadsTo s'.toTree target path := by
  induction h with
  | here hplain => exact .here (hs.plain hplain)
  | link hne hpath hlink _ ih =>
    exact .link hne hpath (hs.links _ _ hne (fun heq => hpath (heq ▸ htmp)) hlink) ih

variable [DecidableEq ι]

/-- A writer among others that write the same target. -/
def Writer.among (target tmp : Path) (contents : ι → Text) (who : ι) : Writer ι where
  who := who
  target := target
  tmp := tmp
  bytes := utf8 (contents who)
  base := 0
  allowed := Undisturbed who
  rely := Spares who target tmp

variable {contents : ι → Text} {progs : ι → FileProgram ε Unit} {turns : List (ι × Choice)}

theorem Writer.among_tolerates (htmp : tempPath target = some tmp) (who : ι) :
    (Writer.among target tmp contents who).Tolerates where
  tmp := htmp
  spares _ _ h := h
  own := Or.inr fun x s hallowed i hi => by
    change undisturbed who (.rename tmp target) s = true at hallowed
    change s.entry tmp = .file i at hi
    rw [undisturbed, hi] at hallowed
    exact ⟨of_decide_eq_true hallowed, Nat.zero_le i⟩

theorem Writer.among_before (tree : Tree) (target tmp : Path) (contents : ι → Text) (who : ι) :
    (Writer.among target tmp contents who).Before (tree.node target) tree.start where
  next := Nat.zero_le _
  none _ h := nomatch h
  alone _ := rfl

/-- Writers that keep their contracts keep the target whole. -/
theorem whole_of_sat (tmp : Path)
    (h : ∀ i, (Writer.among target tmp contents i).contract.Sat
      ((Writer.among target tmp contents i).Ended (tree.node target)) (progs i).run tree.start)
    (hmeets : (several progs tree).Meets act Undisturbed turns) :
    Whole tree target contents (several progs tree) turns := by
  have hcompatible : System.Compatible fun i => (Writer.among target tmp contents i).contract :=
    ⟨fun i s => Spares.refl i target tmp s, fun _ _ _ _ h h' => h.trans h',
      fun _ _ hne _ _ h => h.spares hne⟩
  constructor
  · refine System.run_invariant (K := fun s => s.node target = tree.node target ∨
      ∃ i, s.node target = .regular (utf8 (contents i))) hcompatible h (Or.inl rfl) ?_ hmeets
    intro i s s' hs hstep
    rcases hstep.node with hsame | hnew
    · rw [show s'.node target = s.node target from hsame]
      exact hs
    · exact Or.inr ⟨i, hnew⟩
  · intro i hdone
    obtain ⟨earlier, hearlier, hended, -⟩ := System.run_finished hcompatible h hmeets hdone
    exact ⟨earlier, hearlier, hended⟩

/-- Processes that fail without a change leave the target whole. -/
theorem whole_of_quiet
    (h : ∀ i, (quiet i).Sat (fun result _ => ∃ e, result = .error e) (progs i).run tree.start) :
    Whole tree target contents (several progs tree) turns := by
  have hmeets : (several progs tree).Meets act (fun i => (quiet i).allowed) turns :=
    System.meets_of_forall fun _ _ _ _ => trivial
  constructor
  · exact Or.inl (System.run_invariant (K := fun s => s.node target = tree.node target)
      (quiet_compatible ι) h rfl (fun _ _ _ hs hstep => hstep ▸ hs) hmeets)
  · intro i hdone
    obtain ⟨-, -, ⟨e, he⟩, -⟩ := System.run_finished (quiet_compatible ι) h hmeets hdone
    cases he

/-- Processes that write the same target keep it whole, as long as none renames a file that
    another has created. -/
theorem concurrent_replacement (tree : Tree) (target : Path) (contents : ι → Text)
    (turns : List (ι × Choice)) :
    ((several (fun i => writeCacheFile target (contents i)) tree).Meets act Undisturbed turns →
        Whole tree target contents
          (several (fun i => writeCacheFile target (contents i)) tree) turns) ∧
      ∀ paths : ι → Path, (∀ i, LeadsTo tree target (paths i)) →
        (several (fun i => Stepwise.atomicallyWriteConfig (paths i) (contents i)) tree).Meets
          act Undisturbed turns →
        Whole tree target contents
          (several (fun i => Stepwise.atomicallyWriteConfig (paths i) (contents i)) tree) turns := by
  cases htmp : tempPath target with
  | none =>
    obtain rfl := List.getLast?_eq_none_iff.mp (Option.map_eq_none_iff.mp htmp)
    exact ⟨fun _ => whole_of_quiet fun _ => ⟨_, rfl⟩, fun paths hpaths _ =>
      whole_of_quiet fun i => quiet_atomicallyWriteConfig i fun _ h => (hpaths i).follow h⟩
  | some tmp =>
    refine ⟨whole_of_sat tmp fun i => ?_, fun paths hpaths => whole_of_sat tmp fun i => ?_⟩
    · exact (Writer.sat_writeRefusingSymlink cacheWriteErrors (Writer.among_tolerates htmp i)
        (Writer.among_before tree target tmp contents i) rfl).mono fun _ _ h => h.1
    · refine Stepwise.sat_atomicallyWriteConfig (Writer.among_tolerates htmp i)
        (Writer.among_before tree target tmp contents i) rfl fun s' hs' resolved hresolved => ?_
      exact ((hpaths i).spared htmp hs').follow hresolved

/-- `/c` holds an old text, and `/l` is a link to it. -/
def oldFile : Tree where
  entry path :=
    if path = [] then .directory
    else if path = [['c']] then .file 0
    else if path = [['l']] then .symlink [['c']]
    else .absent
  content _ := utf8 "old".toList
  next := 1
  entry_lt path inode h := by
    split at h
    · cases h
    split at h
    · cases h
      exact Nat.zero_lt_one
    split at h
    · cases h
    · cases h

def twoContents : Bool → Text
  | false => ['A']
  | true => "BB".toList

/-- A call that succeeds, and writes at most two bytes. -/
def succeeds : Choice := { amount := 2 }

/-- One process after the other. -/
def inTurn : List (Bool × Choice) :=
  List.replicate 7 (false, succeeds) ++ List.replicate 7 (true, succeeds)

/-- Both writers replace the old text, one after the other. -/
theorem concurrent_replacement_inTurn :
    Whole oldFile [['c']] twoContents
        (several (fun i => writeCacheFile [['c']] (twoContents i)) oldFile) inTurn ∧
      Whole oldFile [['c']] twoContents
        (several (fun i => Stepwise.atomicallyWriteConfig [['l']] (twoContents i)) oldFile)
        inTurn := by
  have hlink : LeadsTo oldFile [['c']] [['l']] := by
    refine .link (by decide) (by decide) rfl (.here fun dest h => ?_)
    have hfile : oldFile.entry [['c']] = .file 0 := by decide
    rw [hfile] at h
    cases h
  exact ⟨(concurrent_replacement oldFile [['c']] twoContents inTurn).1 (by decide +kernel),
    (concurrent_replacement oldFile [['c']] twoContents inTurn).2 (fun _ => [['l']])
      (fun _ => hlink) (by decide +kernel)⟩

/-- The first process creates the temporary file; the second removes it, creates it again and has
    written one of its two bytes when the first renames it. -/
def overtake : List (Bool × Choice) :=
  List.replicate 4 (false, succeeds) ++ List.replicate 4 (true, succeeds) ++
    [(true, { amount := 1 })] ++ List.replicate 3 (false, succeeds)

/-- Two writers of the same target can leave a part of one's contents there. -/
theorem concurrent_writers_tear :
    ¬ ∀ (tree : Tree) (target : Path) (contents : Bool → Text) (turns : List (Bool × Choice)),
      Whole tree target contents
        (several (fun i => writeCacheFile target (contents i)) tree) turns := by
  intro h
  have htorn : ((several (fun i => writeCacheFile [['c']] (twoContents i)) oldFile).run act
      overtake).state.node [['c']] = .regular (utf8 ['B']) := by decide +kernel
  rcases (h oldFile [['c']] twoContents overtake).node with hold | ⟨i, hnew⟩
  · rw [htorn] at hold
    exact absurd hold (by decide +kernel)
  · rw [htorn] at hnew
    cases i with
    | false => exact absurd hnew (by decide +kernel)
    | true => exact absurd hnew (by decide +kernel)

end Runex
