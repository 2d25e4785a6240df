import Runex.Cmd.Init
import Runex.Infra.ConfigStore.Stepwise

/-!
# A writer that may die

One writer runs alone; any of its calls may fail, and it may die after any of them.

## Main results

- `atomic_replacement` — the target has its old content or the new one, whatever happens
-/

namespace Runex

open FileStore Process
open FileSystem (Path)

variable {ε : Type}

/-- One process that runs a program on these files. -/
def single (prog : FileProgram ε Unit) (tree : Tree) :
    System calls Unit (Store Unit) (Except ε Unit) :=
  ⟨fun _ => prog.run, tree.start⟩

/-- What is left of a writer and of the files on which it started, at some moment. -/
structure Survived (tree : Tree) (target : Path) (bytes : Bytes)
    (now : System calls Unit (Store Unit) (Except ε Unit)) : Prop where
  node : now.state.node target = tree.node target ∨ now.state.node target = .regular bytes
  ok : now.progs () = .done (.ok ()) → now.state.node target = .regular bytes
  error : ∀ e, now.progs () = .done (.error e) → now.state.node target = tree.node target
  /-- Nothing is written through a link. -/
  files : ∀ inode < tree.next, now.state.content inode = tree.content inode
  names : ∀ path, path ≠ target → tempPath target ≠ some path →
    now.state.entry path = tree.entry path ∨
      tree.entry path = .absent ∧ now.state.entry path = .directory ∧ path <+: target.dropLast

/-- The path a rewrite of the configuration replaces. -/
def resolvedTarget (tree : Tree) (path : Path) : Path :=
  match tree.canonicalize path with
  | .ok target => target
  | .error _ => path

/-- A process among processes that change nothing, and itself one of them. -/
def quiet {ι : Type} (who : ι) : Contract calls Choice (Store ι) where
  act := act who
  rely := fun s s' => s' = s
  guarantee := fun s s' => s' = s

theorem quiet_compatible (ι : Type) : System.Compatible fun i : ι => quiet i where
  refl _ _ := rfl
  trans _ _ _ _ h h' := h'.trans h
  other _ _ _ _ _ h := h

/-- A rewrite of a path that leads to no file with a parent fails without a change. -/
theorem quiet_atomicallyWriteConfig {ι : Type} (who : ι) {s : Store ι} {path : Path}
    {contents : Text} (h : ∀ target, s.canonicalize path = .ok target → target = []) :
    (quiet who).Sat (fun result _ => ∃ e, result = .error e)
      (Stepwise.atomicallyWriteConfig path contents).run s := by
  refine Contract.Sat.bindE (Contract.Sat.orThrow fun s' hs' x _ => ?_)
  obtain rfl : s' = s := hs'
  rcases act_canonicalize who x s' path with ⟨e, hact⟩ | ⟨target, htarget, hact⟩
  · rw [show (quiet who).act x (.canonicalize path) s' = _ from hact]
    exact ⟨rfl, _, rfl⟩
  · rw [show (quiet who).act x (.canonicalize path) s' = _ from hact]
    obtain rfl := h target htarget
    exact ⟨rfl, _, rfl⟩

variable {prog : FileProgram ε Unit} {tree : Tree} {target tmp path : Path} {bytes : Bytes}
  {contents : Text} {turns : List (Unit × Choice)}

/-- A writer that fails without a change. -/
theorem survived_of_quiet
    (h : (quiet ()).Sat (fun result _ => ∃ e, result = .error e) prog.run tree.start) :
    Survived tree target bytes ((single prog tree).run act turns) := by
  have hmeets : (single prog tree).Meets act (fun i => (quiet i).allowed) turns :=
    System.meets_of_forall fun _ _ _ _ => trivial
  have hstate : ((single prog tree).run act turns).state = tree.start :=
    System.run_invariant (K := fun s => s = tree.start) (quiet_compatible Unit) (fun _ => h) rfl
      (fun _ _ _ hs hstep => hstep.trans hs) hmeets
  refine ⟨?_, fun hok => ?_, fun _ _ => ?_, fun _ _ => ?_, fun _ _ _ => ?_⟩
  · rw [hstate]
    exact Or.inl rfl
  · obtain ⟨-, -, ⟨e, he⟩, -⟩ :=
      System.run_finished (quiet_compatible Unit) (fun _ => h) hmeets (i := ()) hok
    cases he
  · rw [hstate]
    rfl
  · rw [hstate]
    rfl
  · rw [hstate]
    exact Or.inl rfl

/-- A writer that runs alone from the start. -/
def Writer.alone (tree : Tree) (target tmp : Path) (bytes : Bytes)
    (allowed : Choice → calls.Call → Store Unit → Prop) : Writer Unit where
  who := ()
  target := target
  tmp := tmp
  bytes := bytes
  base := tree.next
  allowed := allowed
  rely := fun s s' => s' = s

def anyCall : Choice → calls.Call → Store Unit → Prop := fun _ _ _ => True

theorem Writer.alone_tolerates (tree : Tree) (bytes : Bytes)
    (allowed : Choice → calls.Call → Store Unit → Prop) (htmp : tempPath target = some tmp) :
    (Writer.alone tree target tmp bytes allowed).Tolerates where
  tmp := htmp
  spares s _ h := h ▸ Spares.refl () target tmp s
  own := Or.inl fun _ _ h => h

theorem Writer.alone_before (s : Store Unit) (target tmp : Path) (bytes : Bytes)
    (allowed : Choice → calls.Call → Store Unit → Prop) :
    (Writer.alone s.toTree target tmp bytes allowed).Before (s.node target) s where
  next := Nat.le_refl _
  none i h := s.creator_lt i () h
  alone _ := rfl

/-- What every step of a writer that runs alone preserves. -/
structure Untouched (tree : Tree) (target tmp : Path) (bytes : Bytes) (s : Store Unit) : Prop where
  next : tree.next ≤ s.next
  node : s.node target = tree.node target ∨ s.node target = .regular bytes
  files : ∀ inode < tree.next, s.content inode = tree.content inode
  names : ∀ path, path ≠ target → path ≠ tmp →
    s.entry path = tree.entry path ∨
      tree.entry path = .absent ∧ s.entry path = .directory ∧ path <+: target.dropLast

theorem Untouched.refl (s : Store Unit) : Untouched s.toTree target tmp bytes s :=
  ⟨Nat.le_refl _, Or.inl rfl, fun _ _ => rfl, fun _ _ _ => Or.inl rfl⟩

theorem Untouched.step {s s' : Store Unit} (h : Untouched tree target tmp bytes s)
    (hstep : Writes () target tmp bytes tree.next s s') : Untouched tree target tmp bytes s' where
  next := h.next.trans hstep.next
  node := by
    rcases hstep.node with hsame | hnew
    · rw [hsame]
      exact h.node
    · exact Or.inr hnew
  files i hi := by
    rcases hstep.content i (Nat.lt_of_lt_of_le hi h.next) with hsame | ⟨hbase, -⟩
    · rw [hsame, h.files i hi]
    · exact absurd hi (Nat.not_lt.mpr hbase)
  names path ht hm := by
    rcases hstep.other path ht hm with hsame | ⟨habsent, hdir, hprefix⟩
    · rw [hsame]
      exact h.names path ht hm
    · rcases h.names path ht hm with hbefore | ⟨-, hbefore, -⟩
      · exact Or.inr ⟨hbefore.symm.trans habsent, hdir, hprefix⟩
      · rw [hbefore] at habsent
        cases habsent

/-- A writer that keeps its contract survives any failure. -/
theorem survived_of_sat (htmp : tempPath target = some tmp)
    (h : (Writer.alone tree target tmp bytes anyCall).contract.Sat
      ((Writer.alone tree target tmp bytes anyCall).Ended (tree.node target)) prog.run tree.start) :
    Survived tree target bytes ((single prog tree).run act turns) := by
  have hcompatible :
      System.Compatible fun _ : Unit => (Writer.alone tree target tmp bytes anyCall).contract :=
    ⟨fun _ _ => rfl, fun _ _ _ _ h h' => h'.trans h, fun _ _ h => absurd rfl h⟩
  have hmeets : (single prog tree).Meets act
      (fun _ => (Writer.alone tree target tmp bytes anyCall).contract.allowed) turns :=
    System.meets_of_forall fun _ _ _ _ => trivial
  have hkeep : Untouched tree target tmp bytes ((single prog tree).run act turns).state :=
    System.run_invariant (K := Untouched tree target tmp bytes) hcompatible (fun _ => h)
      (Untouched.refl tree.start) (fun _ _ _ hs hstep => hs.step hstep) hmeets
  have hfinished : ∀ result, ((single prog tree).run act turns).progs () = .done result →
      (Writer.alone tree target tmp bytes anyCall).Ended (tree.node target) result
        ((single prog tree).run act turns).state := by
    intro result hdone
    obtain ⟨earlier, -, hended, hsince⟩ :=
      System.run_finished hcompatible (fun _ => h) hmeets (i := ()) hdone
    exact hsince ▸ hended
  exact
    { node := hkeep.node
      ok := fun hok => hfinished _ hok
      error := fun e he => hfinished _ he fun _ _ h => h
      files := hkeep.files
      names := fun path ht hm => hkeep.names path ht fun heq => hm (heq ▸ htmp) }

theorem survived_writeRefusingSymlink (errors : WriteErrors ε) (tree : Tree) (target : Path)
    (contents : Text) (turns : List (Unit × Choice)) :
    Survived tree target (utf8 contents)
      ((single (writeRefusingSymlink errors target contents) tree).run act turns) := by
  cases htmp : tempPath target with
  | none =>
    obtain rfl := List.getLast?_eq_none_iff.mp (Option.map_eq_none_iff.mp htmp)
    exact survived_of_quiet ⟨_, rfl⟩
  | some tmp =>
    refine survived_of_sat htmp ?_
    exact (Writer.sat_writeRefusingSymlink errors (Writer.alone_tolerates tree _ _ htmp)
      (Writer.alone_before tree.start target tmp _ _) rfl).mono fun _ _ h => h.1

theorem survived_atomicallyWriteConfig (tree : Tree) (path : Path) (contents : Text)
    (turns : List (Unit × Choice)) :
    Survived tree (resolvedTarget tree path) (utf8 contents)
      ((single (Stepwise.atomicallyWriteConfig path contents) tree).run act turns) := by
  by_cases htarget : ∃ target tmp, tree.canonicalize path = .ok target ∧ tempPath target = some tmp
  · obtain ⟨target, tmp, hcanonical, htmp⟩ := htarget
    rw [show resolvedTarget tree path = target by rw [resolvedTarget, hcanonical]]
    refine survived_of_sat htmp ?_
    refine Stepwise.sat_atomicallyWriteConfig (Writer.alone_tolerates tree _ _ htmp)
      (Writer.alone_before tree.start target tmp _ _) rfl fun s' hs' resolved hresolved => ?_
    rw [show s' = tree.start from hs'] at hresolved
    exact Except.ok.inj (hresolved.symm.trans hcanonical)
  · refine survived_of_quiet (quiet_atomicallyWriteConfig () fun resolved hresolved => ?_)
    by_contra hne
    exact htarget ⟨resolved, _, hresolved,
      congrArg (Option.map _) (List.getLast?_eq_some_getLast hne)⟩

/-- Whatever calls fail and wherever a writer dies, the target has its old content or the new one,
    a writer that returns has written the new one, one that fails has left the old one, and no
    file that was there is written, through a link or otherwise. -/
theorem atomic_replacement (tree : Tree) (path : Path) (contents : Text)
    (turns : List (Unit × Choice)) :
    Survived tree path (utf8 contents)
        ((single (writeCacheFile path contents) tree).run act turns) ∧
      Survived tree path (utf8 contents)
        ((single (writeClinkLuaSafely path contents) tree).run act turns) ∧
      Survived tree (resolvedTarget tree path) (utf8 contents)
        ((single (Stepwise.atomicallyWriteConfig path contents) tree).run act turns) :=
  ⟨survived_writeRefusingSymlink _ tree path contents turns,
    survived_writeRefusingSymlink _ tree path contents turns,
    survived_atomicallyWriteConfig tree path contents turns⟩

end Runex
