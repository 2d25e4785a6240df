import Runex.Infra.ConfigStore
import Runex.Lib.FileStore

/-!
# Replacing a file through a temporary sibling

The steps that `write_cache_file`, `write_clink_lua_safely` and `atomically_write_config` share:
remove a stale temporary file, create it anew, write it, and rename it to the target. What one
writer does is stated for any interference it can tolerate, so that one writer alone and several
side by side are two instances.

## Main definitions

- `replaceThroughTemp`, `writeRefusingSymlink` — the steps
- `Writes` — all that a step of a writer can do
- `Spares` — what a writer relies on

## Main results

- `sat_replaceThroughTemp`, `sat_writeRefusingSymlink` — a writer that returns has replaced the
  target
-/

namespace Runex

open FileStore Process
open FileSystem (Path)

/-- `path.parent()` -/
def parent (path : Path) : Option Path := if path = [] then none else some path.dropLast

/-- `path.file_name()` -/
def fileName (path : Path) : Option Text := path.getLast?

theorem parent_eq_some {path : Path} {name : Text} (h : path.getLast? = some name) :
    parent path = some path.dropLast := by
  apply if_neg
  rintro rfl
  cases h

section Programs

variable {ε : Type}

/-- Rename the temporary file, or remove it. -/
def renameTemp (io : OsError → ε) (tmp target : Path) : FileProgram ε Unit := do
  match ← attempt (.rename tmp target) with
  | .ok _ => pure ()
  | .error e => do
    let _ ← attempt (.removeFile tmp)
    throw (io e)

/-- Write `contents` to `tmp` and rename it to `target`. `io` makes an error of that of a call on
    a path. -/
def replaceThroughTemp (io : Path → OsError → ε) (tmp target : Path) (contents : Text) :
    FileProgram ε Unit := do
  -- A stale temporary file of an earlier crash.
  let _ ← attempt (.removeFile tmp)
  let file ← orThrow (io tmp) (.createNew tmp)
  writeAll (io tmp) file (utf8 contents).length (utf8 contents)
  orThrow (io tmp) (.syncAll file)
  renameTemp (io target) tmp target

/-- The errors of a writer. -/
structure WriteErrors (ε : Type) where
  noParent : Path → ε
  symlinkAtTarget : Path → ε
  noFileName : Path → ε
  io : Path → OsError → ε

/-- Replace a file, but not a link. -/
def writeRefusingSymlink (errors : WriteErrors ε) (path : Path) (contents : Text) :
    FileProgram ε Unit :=
  match parent path with
  | none => throw (errors.noParent path)
  | some dir => do
    orThrow (errors.io dir) (.createDirAll dir)
    match ← attempt (.symlinkMetadata path) with
    | .ok ⟨.symlink, _⟩ => throw (errors.symlinkAtTarget path)
    | _ =>
      match fileName path with
      | none => throw (errors.noFileName path)
      | some name =>
        replaceThroughTemp errors.io (dir ++ ['.' :: (name ++ ".runex.tmp".toList)]) path contents

end Programs

-- ════════════════════════════════════════════════════════════════════════
-- What a writer does and relies on
-- ════════════════════════════════════════════════════════════════════════

/-- Nothing, or a file. -/
def Loose (tree : Tree) (path : Path) : Prop :=
  tree.entry path = .absent ∨ ∃ inode, tree.entry path = .file inode

variable {ι : Type}

/-- All that a step of a writer can do: it writes only to files it has created, from `base` on,
    and the target changes to the new bytes at once. -/
structure Writes (who : ι) (target tmp : Path) (bytes : Bytes) (base : ℕ) (s s' : Store ι) :
    Prop where
  next : s.next ≤ s'.next
  creator : ∀ i, s'.creator i = s.creator i ∨ s.next ≤ i ∧ s'.creator i = some who
  content : ∀ i < s.next, s'.content i = s.content i ∨ base ≤ i ∧ s.creator i = some who
  node : s'.node target = s.node target ∨ s'.node target = .regular bytes
  own : ∀ i, s'.entry target = .file i → s.entry target = .file i ∨ s'.creator i = some who
  temp : s'.entry tmp = s.entry tmp ∨ Loose s'.toTree tmp
  other : ∀ path, path ≠ target → path ≠ tmp →
    s'.entry path = s.entry path ∨
      s.entry path = .absent ∧ s'.entry path = .directory ∧ path <+: target.dropLast

/-- What a writer relies on: the files it has created are left to it, and where the temporary
    file was nothing but a file comes. -/
structure Spares (who : ι) (target tmp : Path) (s s' : Store ι) : Prop where
  next : s.next ≤ s'.next
  creator : ∀ i, s'.creator i = some who ↔ s.creator i = some who
  content : ∀ i, s.creator i = some who → s'.content i = s.content i
  kept : ∀ i, s.creator i = some who → s.entry target ≠ .file i → s'.entry target ≠ .file i
  temp : Loose s.toTree tmp → Loose s'.toTree tmp
  links : ∀ path dest, path ≠ target → path ≠ tmp → s.entry path = .symlink dest →
    s'.entry path = .symlink dest
  plain : (∀ dest, s.entry target ≠ .symlink dest) → ∀ dest, s'.entry target ≠ .symlink dest

section Relations

variable {who other : ι} {target tmp : Path} {bytes : Bytes} {base : ℕ} {s s' s'' : Store ι}

theorem Spares.refl (who : ι) (target tmp : Path) (s : Store ι) : Spares who target tmp s s where
  next := Nat.le_refl _
  creator _ := Iff.rfl
  content _ _ := rfl
  kept _ _ h := h
  temp h := h
  links _ _ _ _ h := h
  plain h := h

theorem Spares.trans (h : Spares who target tmp s s') (h' : Spares who target tmp s' s'') :
    Spares who target tmp s s'' where
  next := h.next.trans h'.next
  creator i := (h'.creator i).trans (h.creator i)
  content i hi := (h'.content i ((h.creator i).mpr hi)).trans (h.content i hi)
  kept i hi hne := h'.kept i ((h.creator i).mpr hi) (h.kept i hi hne)
  temp hs := h'.temp (h.temp hs)
  links path dest ht hm hs := h'.links path dest ht hm (h.links path dest ht hm hs)
  plain hs := h'.plain (h.plain hs)

/-- The steps of one writer are spared by the others. -/
theorem Writes.spares (h : Writes who target tmp bytes base s s') (hne : who ≠ other) :
    Spares other target tmp s s' where
  next := h.next
  creator i := by
    rcases h.creator i with hsame | ⟨hnew, hwho⟩
    · rw [hsame]
    · constructor
      · intro hother
        exact absurd (Option.some.inj (hwho.symm.trans hother)) hne
      · intro hother
        exact absurd (s.creator_lt i other hother) (Nat.not_lt.mpr hnew)
  content i hi := by
    rcases h.content i (s.creator_lt i other hi) with hsame | ⟨-, hwho⟩
    · exact hsame
    · exact absurd (Option.some.inj (hwho.symm.trans hi)) hne
  kept i hi hnot hnow := by
    rcases h.own i hnow with hbefore | hwho
    · exact hnot hbefore
    · rcases h.creator i with hsame | ⟨hnew, -⟩
      · exact hne (Option.some.inj ((hwho.symm.trans hsame).trans hi))
      · exact absurd (s.creator_lt i other hi) (Nat.not_lt.mpr hnew)
  temp hloose := by
    rcases h.temp with hsame | hloose'
    · simpa only [Loose, hsame] using hloose
    · exact hloose'
  links path dest ht hm hlink := by
    rcases h.other path ht hm with hsame | ⟨habsent, -⟩
    · rw [hsame, hlink]
    · rw [hlink] at habsent
      cases habsent
  plain hplain dest hlink := by
    rw [← Tree.node_eq_symlink] at hlink
    rcases h.node with hsame | hnew
    · exact hplain dest (Tree.node_eq_symlink.mp (hsame.symm.trans hlink))
    · rw [hnew] at hlink
      cases hlink

theorem Writes.refl (who : ι) (target tmp : Path) (bytes : Bytes) (base : ℕ) (s : Store ι) :
    Writes who target tmp bytes base s s where
  next := Nat.le_refl _
  creator _ := Or.inl rfl
  content _ _ := Or.inl rfl
  node := Or.inl rfl
  own _ h := Or.inl h
  temp := Or.inl rfl
  other _ _ _ := Or.inl rfl

/-- A directory above the target is neither the target nor the temporary file. -/
theorem ne_of_above {dir : Path} (hsibling : tempPath target = some tmp)
    (hdir : dir <+: target.dropLast) : dir ≠ target ∧ dir ≠ tmp := by
  obtain ⟨name, hlast, rfl⟩ := Option.map_eq_some_iff.mp hsibling
  have hle := hdir.length_le
  have hpos : 0 < target.length := by
    apply List.length_pos_iff.mpr
    rintro rfl
    cases hlast
  rw [List.length_dropLast] at hle
  constructor
  · rintro rfl
    omega
  · rintro rfl
    simp only [List.length_append, List.length_dropLast, List.length_singleton] at hle
    omega

/-- Making directories above the target. -/
theorem writes_makeDirs {paths : List Path} (hsibling : tempPath target = some tmp)
    (hpaths : ∀ dir ∈ paths, dir <+: target.dropLast) :
    Writes who target tmp bytes base s (s.makeDirs paths) := by
  have htarget : (s.makeDirs paths).entry target = s.entry target :=
    Store.entry_makeDirs_of_not_mem fun h => (ne_of_above hsibling (hpaths _ h)).1 rfl
  have htmp : (s.makeDirs paths).entry tmp = s.entry tmp :=
    Store.entry_makeDirs_of_not_mem fun h => (ne_of_above hsibling (hpaths _ h)).2 rfl
  exact
    { next := Nat.le_refl _
      creator := fun _ => Or.inl rfl
      content := fun _ _ => Or.inl rfl
      node := Or.inl (Tree.node_congr htarget fun _ _ => rfl)
      own := fun _ h => Or.inl (htarget.symm.trans h)
      temp := Or.inl htmp
      other := fun path _ _ => (Store.entry_makeDirs paths path).imp_right fun h =>
        ⟨h.1, h.2.1, hpaths path h.2.2⟩ }

/-- Removing the temporary file. -/
theorem writes_unlink (hne : target ≠ tmp) : Writes who target tmp bytes base s (s.unlink tmp) where
  next := Nat.le_refl _
  creator _ := Or.inl rfl
  content _ _ := Or.inl rfl
  node := Or.inl (Tree.node_congr (Store.entry_unlink_of_ne hne) fun _ _ => rfl)
  own _ h := Or.inl ((Store.entry_unlink_of_ne hne).symm.trans h)
  temp := Or.inr (Or.inl Store.entry_unlink_self)
  other _ _ hpath := Or.inl (Store.entry_unlink_of_ne hpath)

/-- Creating the temporary file. -/
theorem writes_create (hne : target ≠ tmp) :
    Writes who target tmp bytes base s (s.create who tmp) where
  next := Nat.le_succ _
  creator i := by
    by_cases hi : i = s.next
    · subst hi
      exact Or.inr ⟨Nat.le_refl _, Store.creator_create_self⟩
    · exact Or.inl (Store.creator_create_of_ne hi)
  content i hi := Or.inl (Store.content_create_of_ne (Nat.ne_of_lt hi))
  node := Or.inl (Tree.node_congr (Store.entry_create_of_ne hne) fun i hi =>
    Store.content_create_of_ne (Nat.ne_of_lt (s.entry_lt target i hi)))
  own _ h := Or.inl ((Store.entry_create_of_ne hne).symm.trans h)
  temp := Or.inr (Or.inr ⟨s.next, Store.entry_create_self⟩)
  other _ _ hpath := Or.inl (Store.entry_create_of_ne hpath)

/-- Writing to a file that is not the target. -/
theorem writes_append {i : ℕ} {piece : Bytes} (hbase : base ≤ i) (hcreator : s.creator i = some who)
    (htarget : s.entry target ≠ .file i) :
    Writes who target tmp bytes base s (s.append i piece) where
  next := Nat.le_refl _
  creator _ := Or.inl rfl
  content j _ := by
    by_cases hj : j = i
    · subst hj
      exact Or.inr ⟨hbase, hcreator⟩
    · exact Or.inl (Store.content_append_of_ne hj)
  node := Or.inl (Tree.node_congr rfl fun j hj =>
    Store.content_append_of_ne (by rintro rfl; exact htarget hj))
  own _ h := Or.inl h
  temp := Or.inl rfl
  other _ _ _ := Or.inl rfl

/-- Renaming the finished file. -/
theorem writes_move {i : ℕ} (hne : target ≠ tmp) (hentry : s.entry tmp = .file i)
    (hcreator : s.creator i = some who) (hcontent : s.content i = bytes) :
    Writes who target tmp bytes base s (s.move tmp target) where
  next := Nat.le_refl _
  creator _ := Or.inl rfl
  content _ _ := Or.inl rfl
  node := by
    have hnode := Tree.node_of_file ((Store.entry_move_target hne).trans hentry)
    exact Or.inr (hnode.trans (congrArg Node.regular hcontent))
  own j h := by
    rw [Store.entry_move_target hne, hentry] at h
    cases h
    exact Or.inr hcreator
  temp := Or.inr (Or.inl Store.entry_move_source)
  other path ht hm := Or.inl (Store.entry_move_of_ne hm ht)

end Relations

-- ════════════════════════════════════════════════════════════════════════
-- A writer among others
-- ════════════════════════════════════════════════════════════════════════

/-- A writer and the interference it meets. Files from `base` on may be its own. -/
structure Writer (ι : Type) where
  who : ι
  target : Path
  tmp : Path
  bytes : Bytes
  base : ℕ
  allowed : Choice → calls.Call → Store ι → Prop
  rely : Store ι → Store ι → Prop

namespace Writer

def contract (w : Writer ι) : Contract calls Choice (Store ι) where
  act := act w.who
  allowed := w.allowed
  rely := w.rely
  guarantee := Writes w.who w.target w.tmp w.bytes w.base

/-- Nothing interferes. -/
def Alone (w : Writer ι) : Prop := ∀ s s', w.rely s s' → s' = s

/-- The interference can be tolerated: the others spare what the writer has created, and what is
    renamed is its own. -/
structure Tolerates (w : Writer ι) : Prop where
  tmp : tempPath w.target = some w.tmp
  spares : ∀ s s', w.rely s s' → Spares w.who w.target w.tmp s s'
  own : w.Alone ∨ ∀ x s, w.allowed x (.rename w.tmp w.target) s →
    ∀ i, s.entry w.tmp = .file i → s.creator i = some w.who ∧ w.base ≤ i

/-- Before the temporary file is created. -/
structure Before (w : Writer ι) (old : Node) (s : Store ι) : Prop where
  next : w.base ≤ s.next
  none : ∀ i, s.creator i = some w.who → i < w.base
  alone : w.Alone → s.node w.target = old

/-- While the writer holds the file it has created, with these bytes. -/
structure Holding (w : Writer ι) (old : Node) (i : ℕ) (written : Bytes) (s : Store ι) : Prop where
  base : w.base ≤ i
  creator : s.creator i = some w.who
  content : s.content i = written
  sole : ∀ j, s.creator j = some w.who → w.base ≤ j → j = i
  away : s.entry w.target ≠ .file i
  loose : Loose s.toTree w.tmp
  alone : w.Alone → s.entry w.tmp = .file i ∧ s.node w.target = old

/-- How a writer ends: the target has the new bytes, or the writer, when alone, has left it. -/
def Ended {ε : Type} (w : Writer ι) (old : Node) : Except ε Unit → Store ι → Prop
  | .ok _, s => s.node w.target = .regular w.bytes
  | .error _, s => w.Alone → s.node w.target = old

variable {w : Writer ι} {old : Node} {i : ℕ} {written : Bytes} {s s' : Store ι}

/-- A writer's calls are answered by the store. -/
theorem contract_act : w.contract.act = act w.who := rfl

theorem Tolerates.ne (hw : w.Tolerates) : w.target ≠ w.tmp := tempPath_ne hw.tmp

theorem Before.wait (hw : w.Tolerates) (h : w.Before old s) (hs : w.rely s s') :
    w.Before old s' where
  next := h.next.trans (hw.spares s s' hs).next
  none i hi := h.none i (((hw.spares s s' hs).creator i).mp hi)
  alone halone := by
    rw [halone s s' hs]
    exact h.alone halone

theorem Holding.wait (hw : w.Tolerates) (h : w.Holding old i written s) (hs : w.rely s s') :
    w.Holding old i written s' where
  base := h.base
  creator := ((hw.spares s s' hs).creator i).mpr h.creator
  content := ((hw.spares s s' hs).content i h.creator).trans h.content
  sole j hj := h.sole j (((hw.spares s s' hs).creator j).mp hj)
  away := (hw.spares s s' hs).kept i h.creator h.away
  loose := (hw.spares s s' hs).temp h.loose
  alone halone := by
    rw [halone s s' hs]
    exact h.alone halone

theorem Before.unlink (hw : w.Tolerates) (h : w.Before old s) : w.Before old (s.unlink w.tmp) where
  next := h.next
  none := h.none
  alone halone := by
    rw [← h.alone halone]
    exact Tree.node_congr (Store.entry_unlink_of_ne hw.ne) fun _ _ => rfl

theorem Before.create (hw : w.Tolerates) (h : w.Before old s) :
    w.Holding old s.next [] (s.create w.who w.tmp) where
  base := h.next
  creator := Store.creator_create_self
  content := Store.content_create_self
  sole j hj hbase := by
    by_contra hne
    rw [Store.creator_create_of_ne hne] at hj
    exact absurd (h.none j hj) (Nat.not_lt.mpr hbase)
  away := by
    rw [Store.entry_create_of_ne hw.ne]
    exact fun hentry => Nat.lt_irrefl _ (s.entry_lt w.target s.next hentry)
  loose := Or.inr ⟨s.next, Store.entry_create_self⟩
  alone halone := by
    refine ⟨Store.entry_create_self, ?_⟩
    rw [← h.alone halone]
    exact Tree.node_congr (Store.entry_create_of_ne hw.ne) fun j hj =>
      Store.content_create_of_ne (Nat.ne_of_lt (s.entry_lt w.target j hj))

theorem Holding.append (h : w.Holding old i written s) (piece : Bytes) :
    w.Holding old i (written ++ piece) (s.append i piece) where
  base := h.base
  creator := h.creator
  content := by rw [Store.content_append_self, h.content]
  sole := h.sole
  away := h.away
  loose := h.loose
  alone halone := by
    refine ⟨(h.alone halone).1, ?_⟩
    rw [← (h.alone halone).2]
    exact Tree.node_congr rfl fun j hj =>
      Store.content_append_of_ne (by rintro rfl; exact h.away hj)

/-- The file that the writer renames is the one it has written. -/
theorem Holding.entry_tmp (hw : w.Tolerates) (h : w.Holding old i written s) {x : Choice}
    (hallowed : w.allowed x (.rename w.tmp w.target) s) (hpresent : s.entry w.tmp ≠ .absent) :
    s.entry w.tmp = .file i := by
  rcases hw.own with halone | hown
  · exact (h.alone halone).1
  · rcases h.loose with habsent | ⟨j, hj⟩
    · exact absurd habsent hpresent
    · obtain ⟨hcreator, hbase⟩ := hown x s hallowed j hj
      rw [hj, h.sole j hcreator hbase]

-- ════════════════════════════════════════════════════════════════════════
-- The steps keep the contract
-- ════════════════════════════════════════════════════════════════════════

section Steps

variable {ε : Type} {io : OsError → ε}

theorem sat_writeAll (hw : w.Tolerates) {fuel : ℕ} {bytes : Bytes}
    (h : w.Holding old i written s) (hfuel : bytes.length ≤ fuel) :
    w.contract.Sat (fun result s => match result with
      | .ok _ => w.Holding old i (written ++ bytes) s
      | .error _ => w.Alone → s.node w.target = old) (writeAll io i fuel bytes).run s := by
  induction fuel generalizing bytes written s with
  | zero =>
    have hnil := List.length_eq_zero_iff.mp (Nat.le_zero.mp hfuel)
    subst hnil
    rw [List.append_nil]
    exact h
  | succ fuel ih =>
    rw [writeAll]
    split
    · next hnil =>
      subst hnil
      rw [List.append_nil]
      exact h
    · refine Contract.Sat.bindE (Contract.Sat.orThrow fun s' hs' x _ => ?_)
      have h' := h.wait hw hs'
      rcases act_write w.who x s' i bytes with ⟨e, hact⟩ | ⟨taken, htaken, hact⟩
      · rw [contract_act, hact]
        exact ⟨Writes.refl .., fun halone => (h'.alone halone).2⟩
      · rw [contract_act, hact]
        refine ⟨writes_append h'.base h'.creator h'.away, ?_⟩
        have hpiece := h'.append (bytes.take taken)
        change w.contract.Sat _ (ite (taken = 0) _ _ : FileProgram ε Unit).run _
        split
        · exact fun halone => (hpiece.alone halone).2
        · next hpos =>
          have hlength : (bytes.drop taken).length ≤ fuel := by
            rw [List.length_drop]
            omega
          have hrest := ih hpiece hlength
          rwa [List.append_assoc, List.take_append_drop] at hrest

/-- Removing the temporary file, whatever comes of it. -/
theorem sat_removeTmp {Q : Except ε (Except OsError Unit) → Store ι → Prop} (hw : w.Tolerates)
    (hkeep : ∀ s', w.rely s s' → ∀ response, Q (.ok response) s')
    (hunlink : ∀ s', w.rely s s' → ∀ response, Q (.ok response) (s'.unlink w.tmp)) :
    w.contract.Sat Q (attempt (.removeFile w.tmp) : FileProgram ε _).run s := by
  refine Contract.Sat.attempt fun s' hs' x _ => ?_
  rcases act_removeFile w.who x s' w.tmp with hact | hact
  · rw [contract_act, hact]
    exact ⟨Writes.refl .., hkeep s' hs' _⟩
  · rw [contract_act, hact]
    exact ⟨writes_unlink hw.ne, hunlink s' hs' _⟩

theorem sat_renameTemp {io : OsError → ε} (hw : w.Tolerates) (h : w.Holding old i w.bytes s) :
    w.contract.Sat (w.Ended old) (renameTemp io w.tmp w.target).run s := by
  refine Contract.Sat.bindE (Contract.Sat.attempt fun s' hs' x hx => ?_)
  have h' := h.wait hw hs'
  rcases act_rename w.who x s' w.tmp w.target with ⟨e, hact⟩ | ⟨hpresent, hact⟩
  · rw [contract_act, hact]
    refine ⟨Writes.refl .., Contract.Sat.bindE (sat_removeTmp hw ?_ ?_)⟩
    · intro s'' hs'' response halone
      rw [halone s' s'' hs'']
      exact (h'.alone halone).2
    · intro s'' hs'' response halone
      rw [halone s' s'' hs'', ← (h'.alone halone).2]
      exact Tree.node_congr (Store.entry_unlink_of_ne hw.ne) fun _ _ => rfl
  · rw [contract_act, hact]
    have hentry := h'.entry_tmp hw hx hpresent
    refine ⟨writes_move hw.ne hentry h'.creator h'.content, ?_⟩
    have hnode := Tree.node_of_file ((Store.entry_move_target hw.ne).trans hentry)
    exact hnode.trans (congrArg Node.regular h'.content)

/-- The shared steps keep the contract. -/
theorem sat_replaceThroughTemp {io : Path → OsError → ε} {contents : Text} (hw : w.Tolerates)
    (h : w.Before old s) (hbytes : w.bytes = utf8 contents) :
    w.contract.Sat (w.Ended old) (replaceThroughTemp io w.tmp w.target contents).run s := by
  have hcreate : ∀ s, w.Before old s → w.contract.Sat (w.Ended old) (do
      let file ← orThrow (io w.tmp) (.createNew w.tmp)
      writeAll (io w.tmp) file (utf8 contents).length (utf8 contents)
      orThrow (io w.tmp) (.syncAll file)
      renameTemp (io w.target) w.tmp w.target : FileProgram ε Unit).run s := by
    intro s hs
    refine Contract.Sat.bindE (Contract.Sat.orThrow fun s' hs' x _ => ?_)
    have h' := hs.wait hw hs'
    rcases act_createNew w.who x s' w.tmp with ⟨e, hact⟩ | ⟨-, hact⟩
    · rw [contract_act, hact]
      exact ⟨Writes.refl .., h'.alone⟩
    rw [contract_act, hact]
    refine ⟨writes_create hw.ne, ?_⟩
    refine Contract.Sat.bindE ((sat_writeAll hw (h'.create hw) (Nat.le_refl _)).mono ?_)
    rintro (e | ⟨⟩) s₁ h₁
    · exact h₁
    refine Contract.Sat.bindE (Contract.Sat.orThrow fun s₂ hs₂ x₂ _ => ?_)
    have h₂ : w.Holding old s'.next w.bytes s₂ := by
      rw [hbytes]
      exact Holding.wait hw h₁ hs₂
    rcases act_syncAll w.who x₂ s₂ s'.next with ⟨e, hact⟩ | hact
    · rw [contract_act, hact]
      exact ⟨Writes.refl .., fun halone => (h₂.alone halone).2⟩
    · rw [contract_act, hact]
      exact ⟨Writes.refl .., sat_renameTemp hw h₂⟩
  refine Contract.Sat.bindE (sat_removeTmp hw ?_ ?_)
  · exact fun s' hs' _ => hcreate s' (h.wait hw hs')
  · exact fun s' hs' _ => hcreate _ ((h.wait hw hs').unlink hw)

/-- The check for a link at the target does not fail. -/
def Checks (w : Writer ι) : Prop :=
  ∀ x s, w.allowed x (.symlinkMetadata w.target) s → x.failure = none

/-- A writer that is alone refuses a link. -/
def Refuses (w : Writer ι) (old : Node) (result : Except ε Unit) : Prop :=
  w.Alone → w.Checks → ∀ dest, old = .symlink dest → ∃ e, result = .error e

theorem Before.makeDirs (hw : w.Tolerates) (h : w.Before old s) {paths : List Path}
    (hpaths : ∀ dir ∈ paths, dir <+: w.target.dropLast) : w.Before old (s.makeDirs paths) where
  next := h.next
  none := h.none
  alone halone := by
    rw [← h.alone halone]
    exact Tree.node_congr (Store.entry_makeDirs_of_not_mem fun hmem =>
      (ne_of_above hw.tmp (hpaths _ hmem)).1 rfl) fun _ _ => rfl

/-- A writer that refuses links keeps the contract, and does refuse them. -/
theorem sat_writeRefusingSymlink (errors : WriteErrors ε) {contents : Text} (hw : w.Tolerates)
    (h : w.Before old s) (hbytes : w.bytes = utf8 contents) :
    w.contract.Sat (fun result s => w.Ended old result s ∧ w.Refuses old result)
      (writeRefusingSymlink errors w.target contents).run s := by
  obtain ⟨name, hname, htmp⟩ := Option.map_eq_some_iff.mp hw.tmp
  rw [writeRefusingSymlink, parent_eq_some hname]
  refine Contract.Sat.bindE (Contract.Sat.orThrow fun s₁ hs₁ x₁ _ => ?_)
  obtain ⟨paths, hpaths, hdirs⟩ := act_createDirAll w.who x₁ s₁ w.target.dropLast
  have h₁ : w.Before old (w.contract.act x₁ (.createDirAll w.target.dropLast) s₁).2 := by
    rw [contract_act, hdirs]
    exact (h.wait hw hs₁).makeDirs hw hpaths
  refine ⟨?_, ?_⟩
  · rw [contract_act, hdirs]
    exact writes_makeDirs hw.tmp hpaths
  cases (w.contract.act x₁ (.createDirAll w.target.dropLast) s₁).1 with
  | error e => exact ⟨h₁.alone, fun _ _ _ _ => ⟨_, rfl⟩⟩
  | ok _ =>
    refine Contract.Sat.bindE (Contract.Sat.attempt fun s₂ hs₂ x₂ hx₂ => ?_)
    have h₂ := h₁.wait hw hs₂
    obtain ⟨hsame, hlink⟩ := act_symlinkMetadata w.who x₂ s₂ w.target
    rw [contract_act, hsame]
    refine ⟨Writes.refl .., ?_⟩
    dsimp only
    split
    · exact ⟨h₂.alone, fun _ _ _ _ => ⟨_, rfl⟩⟩
    · next hother =>
      rw [show fileName w.target = some name from hname]
      dsimp only
      rw [htmp]
      refine (sat_replaceThroughTemp hw h₂ hbytes).mono fun result s₃ hended => ⟨hended, ?_⟩
      intro halone hchecks dest hdest
      have hentry : s₂.entry w.target = .symlink dest :=
        Tree.node_eq_symlink.mp ((h₂.alone halone).trans hdest)
      exact absurd (hlink dest hentry (hchecks x₂ s₂ hx₂)) (hother 0)

end Steps

end Writer

end Runex
