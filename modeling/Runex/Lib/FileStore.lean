import Runex.Lib.FileSystem
import Runex.Lib.Process

/-!
# Files as inodes, shared by processes

The files that several processes work on at once: names lead to inodes, an inode keeps its bytes
when its name goes to another one, and a process that has created a file goes on writing to its
inode whatever happens to the name. Any call may fail, and a write may take any part of its bytes.
The parent of a path has its links resolved.

## Main definitions

- `FileStore.Tree`, `FileStore.Store` — names and inodes; the same, with who created them
- `FileStore.Call`, `FileStore.act` — the system calls
- `FileStore.FileProgram`, `FileStore.writeAll` — programs that make them

## Main results

- `FileStore.act_removeFile`, `FileStore.act_createNew`, `FileStore.act_write`,
  `FileStore.act_openAppend`, `FileStore.act_rename`, `FileStore.act_createDirAll` — all that each
  call can do
- `FileStore.isSome_decode_append` — a text that follows does not change whether bytes are UTF-8
-/

namespace FileStore

open FileSystem (Path decode decode_eq_some encode)
open Process

-- ════════════════════════════════════════════════════════════════════════
-- Names and inodes
-- ════════════════════════════════════════════════════════════════════════

abbrev Bytes := List UInt8

/-- What a name leads to. -/
inductive Entry where
  | absent
  | file (inode : ℕ)
  | symlink (dest : Path)
  | directory
  /-- A pipe or a device. -/
  | special
  deriving DecidableEq

structure Tree where
  entry : Path → Entry
  content : ℕ → Bytes
  /-- The inode of the next file to be created. -/
  next : ℕ
  entry_lt : ∀ path inode, entry path = .file inode → inode < next

/-- A tree, with the process that created each file since the start. -/
structure Store (ι : Type) extends Tree where
  creator : ℕ → Option ι
  creator_lt : ∀ inode who, creator inode = some who → inode < next

/-- The state of a name: a link is a state of its own. -/
inductive Node where
  | absent
  | regular (bytes : Bytes)
  | symlink (dest : Path)
  | directory
  | special
  deriving DecidableEq

def Tree.node (tree : Tree) (path : Path) : Node :=
  match tree.entry path with
  | .absent => .absent
  | .file inode => .regular (tree.content inode)
  | .symlink dest => .symlink dest
  | .directory => .directory
  | .special => .special

variable {ι : Type}

/-- Before any process has created a file. -/
def Tree.start (tree : Tree) : Store ι :=
  { tree with creator := fun _ => none, creator_lt := fun _ _ h => absurd h (by simp) }

theorem Tree.node_of_file {tree : Tree} {path : Path} {inode : ℕ}
    (h : tree.entry path = .file inode) : tree.node path = .regular (tree.content inode) := by
  rw [Tree.node, h]

theorem Tree.node_eq_symlink {tree : Tree} {path dest : Path} :
    tree.node path = .symlink dest ↔ tree.entry path = .symlink dest := by
  rw [Tree.node]
  cases tree.entry path <;> simp

theorem Tree.node_eq_absent {tree : Tree} {path : Path} :
    tree.node path = .absent ↔ tree.entry path = .absent := by
  rw [Tree.node]
  cases tree.entry path <;> simp

theorem Tree.node_eq_directory {tree : Tree} {path : Path} :
    tree.node path = .directory ↔ tree.entry path = .directory := by
  rw [Tree.node]
  cases tree.entry path <;> simp

theorem Tree.node_eq_regular {tree : Tree} {path : Path} {bytes : Bytes} :
    tree.node path = .regular bytes ↔
      ∃ inode, tree.entry path = .file inode ∧ tree.content inode = bytes := by
  rw [Tree.node]
  cases tree.entry path <;> simp

theorem Tree.node_congr {tree tree' : Tree} {path : Path}
    (hentry : tree'.entry path = tree.entry path)
    (hcontent : ∀ inode, tree.entry path = .file inode → tree'.content inode = tree.content inode) :
    tree'.node path = tree.node path := by
  rw [Tree.node, Tree.node, hentry]
  cases h : tree.entry path with
  | file inode => exact congrArg Node.regular (hcontent inode h)
  | _ => rfl

-- ════════════════════════════════════════════════════════════════════════
-- Changes
-- ════════════════════════════════════════════════════════════════════════

namespace Store

variable (s : Store ι)

/-- Make those of these names that lead to nothing directories. -/
def makeDirs (paths : List Path) : Store ι :=
  { s with
    entry := fun path => if path ∈ paths ∧ s.entry path = .absent then .directory else s.entry path
    entry_lt := fun path inode h => by
      split at h
      · cases h
      · exact s.entry_lt path inode h }

def unlink (path : Path) : Store ι :=
  { s with
    entry := Function.update s.entry path .absent
    entry_lt := fun other inode h => by
      rw [Function.update_apply] at h
      split at h
      · cases h
      · exact s.entry_lt other inode h }

/-- Make `path` the name of a new and empty file. -/
def create (who : ι) (path : Path) : Store ι where
  entry := Function.update s.entry path (.file s.next)
  content := Function.update s.content s.next []
  next := s.next + 1
  creator := Function.update s.creator s.next (some who)
  entry_lt := fun other inode h => by
    rw [Function.update_apply] at h
    split at h
    · cases h
      exact Nat.lt_succ_self _
    · exact Nat.lt_succ_of_lt (s.entry_lt other inode h)
  creator_lt := fun inode other h => by
    rw [Function.update_apply] at h
    split at h
    · next heq => omega
    · exact Nat.lt_succ_of_lt (s.creator_lt inode other h)

def append (inode : ℕ) (bytes : Bytes) : Store ι :=
  { s with content := Function.update s.content inode (s.content inode ++ bytes) }

/-- Give what `source` leads to the name `target`. -/
def move (source target : Path) : Store ι :=
  { s with
    entry := Function.update (Function.update s.entry target (s.entry source)) source .absent
    entry_lt := fun other inode h => by
      rw [Function.update_apply] at h
      split at h
      · cases h
      rw [Function.update_apply] at h
      split at h
      · exact s.entry_lt source inode h
      · exact s.entry_lt other inode h }

variable {s} {path other source target : Path} {who : ι} {inode i : ℕ} {bytes : Bytes}

theorem entry_makeDirs (paths : List Path) (path : Path) :
    (s.makeDirs paths).entry path = s.entry path ∨
      s.entry path = .absent ∧ (s.makeDirs paths).entry path = .directory ∧ path ∈ paths := by
  dsimp only [makeDirs]
  split
  · next h => exact Or.inr ⟨h.2, rfl, h.1⟩
  · exact Or.inl rfl

theorem entry_makeDirs_of_not_mem {paths : List Path} (h : path ∉ paths) :
    (s.makeDirs paths).entry path = s.entry path := if_neg fun hmem => h hmem.1

@[simp] theorem entry_unlink_self : (s.unlink path).entry path = .absent :=
  Function.update_self ..

@[simp] theorem entry_unlink_of_ne (h : other ≠ path) :
    (s.unlink path).entry other = s.entry other := Function.update_of_ne h _ _

@[simp] theorem entry_create_self : (s.create who path).entry path = .file s.next :=
  Function.update_self ..

@[simp] theorem entry_create_of_ne (h : other ≠ path) :
    (s.create who path).entry other = s.entry other := Function.update_of_ne h _ _

@[simp] theorem content_create_self : (s.create who path).content s.next = [] :=
  Function.update_self ..

@[simp] theorem content_create_of_ne (h : i ≠ s.next) :
    (s.create who path).content i = s.content i := Function.update_of_ne h _ _

@[simp] theorem creator_create_self : (s.create who path).creator s.next = some who :=
  Function.update_self ..

@[simp] theorem creator_create_of_ne (h : i ≠ s.next) :
    (s.create who path).creator i = s.creator i := Function.update_of_ne h _ _

@[simp] theorem content_append_self :
    (s.append inode bytes).content inode = s.content inode ++ bytes := Function.update_self ..

@[simp] theorem content_append_of_ne (h : i ≠ inode) :
    (s.append inode bytes).content i = s.content i := Function.update_of_ne h _ _

@[simp] theorem append_nil (s : Store ι) (inode : ℕ) : s.append inode [] = s := by
  rw [append, List.append_nil, Function.update_eq_self]

theorem append_append (s : Store ι) (inode : ℕ) (first second : Bytes) :
    (s.append inode first).append inode second = s.append inode (first ++ second) := by
  simp only [append, Function.update_self, Function.update_idem, List.append_assoc]

theorem node_append (h : s.entry path = .file inode) :
    (s.append inode bytes).node path = .regular (s.content inode ++ bytes) := by
  rw [Tree.node_of_file (show (s.append inode bytes).entry path = .file inode from h),
    content_append_self]

@[simp] theorem entry_move_source : (s.move source target).entry source = .absent :=
  Function.update_self ..

theorem entry_move_target (h : target ≠ source) :
    (s.move source target).entry target = s.entry source :=
  (Function.update_of_ne h _ _).trans (Function.update_self ..)

theorem entry_move_of_ne (hsource : other ≠ source) (htarget : other ≠ target) :
    (s.move source target).entry other = s.entry other :=
  (Function.update_of_ne hsource _ _).trans (Function.update_of_ne htarget _ _)

end Store

-- ════════════════════════════════════════════════════════════════════════
-- System calls
-- ════════════════════════════════════════════════════════════════════════

inductive ErrorKind where
  | notFound
  | other
  deriving DecidableEq

structure OsError where
  kind : ErrorKind
  message : Text
  deriving DecidableEq

def OsError.noEntry : OsError := ⟨.notFound, "No such file or directory".toList⟩

def OsError.exists : OsError := ⟨.other, "File exists".toList⟩

def OsError.isDirectory : OsError := ⟨.other, "Is a directory".toList⟩

def OsError.notDirectory : OsError := ⟨.other, "Not a directory".toList⟩

def OsError.manyLinks : OsError := ⟨.other, "Too many levels of symbolic links".toList⟩

def OsError.noDevice : OsError := ⟨.other, "No such device or address".toList⟩

def OsError.notUtf8 : OsError := ⟨.other, "stream did not contain valid UTF-8".toList⟩

def OsError.writeZero : OsError := ⟨.other, "failed to write whole buffer".toList⟩

inductive FileType where
  | file
  | symlink
  | directory
  | special
  deriving DecidableEq

structure Metadata where
  fileType : FileType
  len : ℕ

inductive Call where
  | createDirAll (path : Path)
  /-- The metadata of the name itself. -/
  | symlinkMetadata (path : Path)
  /-- The metadata of what the name leads to through its links. -/
  | metadata (path : Path)
  | canonicalize (path : Path)
  | removeFile (path : Path)
  /-- Create a file where there is nothing, not even a link. -/
  | createNew (path : Path)
  | write (inode : ℕ) (bytes : Bytes)
  | syncAll (inode : ℕ)
  | rename (source target : Path)
  /-- Open for reading; a link is refused. -/
  | openRead (path : Path)
  | openMetadata (opened : Entry)
  | readToString (opened : Entry)
  /-- Read into an empty text, which keeps what was read before a failure, as far as it is UTF-8 as
      a whole. -/
  | readInto (opened : Entry)
  /-- Open for appending, or create; a link is refused. -/
  | openAppend (path : Path)

/-- The calls that only look. -/
def Call.looks : Call → Bool
  | .symlinkMetadata _ | .metadata _ | .canonicalize _ | .openRead _ | .openMetadata _
  | .readToString _ | .readInto _ => true
  | _ => false

/-- What a call that succeeds returns. -/
abbrev Answer : Call → Type
  | .symlinkMetadata _ | .metadata _ | .openMetadata _ => Metadata
  | .canonicalize _ => Path
  | .createNew _ | .write _ _ | .openAppend _ => ℕ
  | .openRead _ => Entry
  | .readToString _ | .readInto _ => Text
  | .createDirAll _ | .removeFile _ | .syncAll _ | .rename _ _ => Unit

abbrev calls : Interface := ⟨Call, Answer, OsError⟩

abbrev FileProgram (ε : Type) := ExceptT ε (Prog calls)

/-- How a call goes: whether it fails, and how far a read, a write or the creation of directories
    gets. -/
structure Choice where
  failure : Option Text := none
  amount : ℕ := 0

def Tree.metadata (tree : Tree) : Entry → Except OsError Metadata
  | .absent => .error .noEntry
  | .file inode => .ok ⟨.file, (tree.content inode).length⟩
  | .symlink _ => .ok ⟨.symlink, 0⟩
  | .directory => .ok ⟨.directory, 0⟩
  | .special => .ok ⟨.special, 0⟩

/-- Follow links, at most so many. -/
def Tree.follow (tree : Tree) : ℕ → Path → Except OsError Path
  | 0, _ => .error .manyLinks
  | links + 1, path =>
    match tree.entry path with
    | .absent => .error .noEntry
    | .symlink dest => tree.follow links dest
    | _ => .ok path

def Tree.canonicalize (tree : Tree) (path : Path) : Except OsError Path := tree.follow 41 path

/-- A call that does not fail by itself. Directories are not renamed. -/
def perform (who : ι) (amount : ℕ) :
    (c : calls.Call) → Store ι → calls.Response c × Store ι
  | .createDirAll path, s =>
    if path.inits.all fun dir => s.entry dir = .absent ∨ s.entry dir = .directory then
      (.ok (), s.makeDirs path.inits)
    else (.error .notDirectory, s)
  | .symlinkMetadata path, s => (s.metadata (s.entry path), s)
  | .metadata path, s => ((s.canonicalize path).bind fun path => s.metadata (s.entry path), s)
  | .canonicalize path, s => (s.canonicalize path, s)
  | .removeFile path, s =>
    match s.entry path with
    | .absent => (.error .noEntry, s)
    | .directory => (.error .isDirectory, s)
    | _ => (.ok (), s.unlink path)
  | .createNew path, s =>
    if s.entry path.dropLast = .directory then
      if s.entry path = .absent then (.ok s.next, s.create who path) else (.error .exists, s)
    else (.error .noEntry, s)
  | .write inode bytes, s =>
    let taken : ℕ := min amount bytes.length
    (.ok taken, s.append inode (bytes.take taken))
  | .syncAll _, s => (.ok (), s)
  | .rename source target, s =>
    match s.entry source with
    | .absent => (.error .noEntry, s)
    | .directory => (.error .isDirectory, s)
    | _ =>
      if s.entry target = .directory then (.error .isDirectory, s)
      else (.ok (), s.move source target)
  | .openRead path, s =>
    match s.entry path with
    | .absent => (.error .noEntry, s)
    | .symlink _ => (.error .manyLinks, s)
    | entry => (.ok entry, s)
  | .openMetadata opened, s => (s.metadata opened, s)
  | .readToString opened, s =>
    match opened with
    | .file inode =>
      ((decode (s.content inode).toByteArray).elim (.error .notUtf8) .ok, s)
    | _ => (.error .isDirectory, s)
  | .readInto opened, s =>
    match opened with
    | .file inode => (.ok ((decode ((s.content inode).take amount).toByteArray).getD []), s)
    | _ => (.error .isDirectory, s)
  | .openAppend path, s =>
    match s.entry path with
    | .absent =>
      if s.entry path.dropLast = .directory then (.ok s.next, s.create who path)
      else (.error .noEntry, s)
    | .file inode => (.ok inode, s)
    | .symlink _ => (.error .manyLinks, s)
    | .directory => (.error .isDirectory, s)
    -- Appending to a pipe or a device changes no file; it is left out.
    | .special => (.error .noDevice, s)

/-- One call of a process. Directories that a failing call has made stay. -/
def act (who : ι) (choice : Choice) (c : calls.Call) (s : Store ι) : calls.Response c × Store ι :=
  match choice.failure with
  | none => perform who choice.amount c s
  | some message =>
    (.error ⟨.other, message⟩,
      match c with
      | .createDirAll path => s.makeDirs (path.inits.take choice.amount)
      | _ => s)

-- ════════════════════════════════════════════════════════════════════════
-- Programs
-- ════════════════════════════════════════════════════════════════════════

/-- The bytes of a text. -/
def utf8 (s : Text) : Bytes := s.flatMap String.utf8EncodeChar

section Texts

variable {s t : Text} {bytes : Bytes}

theorem utf8_append (s t : Text) : utf8 (s ++ t) = utf8 s ++ utf8 t := List.flatMap_append

theorem length_utf8_le (s : Text) : (utf8 s).length ≤ 4 * s.length := by
  induction s with
  | nil => exact Nat.le_refl _
  | cons c s ih =>
    have hchar : (String.utf8EncodeChar c).length ≤ 4 := by
      rw [String.length_utf8EncodeChar]
      exact Char.utf8Size_le_four c
    rw [utf8, List.flatMap_cons, List.length_append, List.length_cons]
    rw [utf8] at ih
    omega

theorem encode_eq (s : Text) : encode s = (utf8 s).toByteArray := by
  rw [encode, String.toByteArray_ofList]
  rfl

theorem decode_eq_some_iff : decode bytes.toByteArray = some s ↔ bytes = utf8 s := by
  rw [decode_eq_some, encode_eq, List.toByteArray_inj]

/-- A byte that begins a character goes on with no other. -/
theorem exists_of_utf8_eq_append {c : Char} {after : Bytes}
    (h : utf8 s = bytes ++ (String.utf8EncodeChar c ++ after)) : ∃ before, bytes = utf8 before := by
  induction s generalizing bytes with
  | nil => exact ⟨[], (List.eq_nil_of_append_eq_nil h.symm).1⟩
  | cons d s ih =>
    rw [utf8, List.flatMap_cons] at h
    rcases List.append_eq_append_iff.mp h with ⟨rest, hbytes, hs⟩ | ⟨rest, hchar, hs⟩
    · obtain ⟨before, hbefore⟩ := ih hs
      exact ⟨d :: before, by rw [hbytes, hbefore, utf8, utf8, List.flatMap_cons]⟩
    cases rest with
    | nil => exact ⟨[d], by rw [utf8, List.flatMap_singleton, hchar, List.append_nil]⟩
    | cons b rest =>
      -- The byte stands in `d`, and it is the first of `c`.
      have hb : b.IsUTF8FirstByte := by
        have hfirst := @UInt8.isUTF8FirstByte_getElem_zero_utf8EncodeChar c
        cases hc : String.utf8EncodeChar c with
        | nil => exact absurd (congrArg List.length hc) (by simp [c.utf8Size_pos.ne'])
        | cons first others =>
          rw [hc] at hs
          obtain ⟨rfl, -⟩ := List.cons.inj hs
          simpa only [hc, List.getElem_cons_zero] using hfirst
      have hd : bytes.length < (String.utf8EncodeChar d).length := by
        rw [hchar, List.length_append, List.length_cons]
        omega
      have hget : (String.utf8EncodeChar d)[bytes.length] = b := by simp [hchar]
      rw [← hget, UInt8.isUTF8FirstByte_getElem_utf8EncodeChar] at hb
      exact ⟨[], List.eq_nil_of_length_eq_zero hb⟩

theorem isSome_decode_iff : (decode bytes.toByteArray).isSome ↔ ∃ s, bytes = utf8 s := by
  simp only [Option.isSome_iff_exists, decode_eq_some_iff]

/-- A text that follows does not change whether bytes are UTF-8. -/
theorem isSome_decode_append :
    (decode (bytes ++ utf8 t).toByteArray).isSome ↔ (decode bytes.toByteArray).isSome := by
  rw [isSome_decode_iff, isSome_decode_iff]
  constructor
  · rintro ⟨s, hs⟩
    cases t with
    | nil => exact ⟨s, by rw [← hs, utf8, List.flatMap_nil, List.append_nil]⟩
    | cons c t => exact exists_of_utf8_eq_append hs.symm
  · rintro ⟨s, rfl⟩
    exact ⟨s ++ t, (utf8_append s t).symm⟩

end Texts

abbrev attempt {ε : Type} (c : Call) : FileProgram ε (Except OsError (Answer c)) :=
  Prog.attempt (I := calls) c

abbrev orThrow {ε : Type} (io : OsError → ε) (c : Call) : FileProgram ε (Answer c) :=
  Prog.orThrow (I := calls) io c

/-- Write these bytes, a piece at a time. An interrupted write is made again and has no other
    effect, so it is no step. -/
def writeAll {ε : Type} (io : OsError → ε) (inode : ℕ) : ℕ → Bytes → FileProgram ε Unit
  | 0, _ => pure ()
  | fuel + 1, bytes =>
    if bytes = [] then pure ()
    else do
      let taken ← orThrow io (.write inode bytes)
      if taken = 0 then throw (io .writeZero) else writeAll io inode fuel (bytes.drop taken)

-- ════════════════════════════════════════════════════════════════════════
-- All that each call can do
-- ════════════════════════════════════════════════════════════════════════

section Cases

variable (who : ι) (choice : Choice) (s : Store ι)

theorem act_of_not_failing {choice : Choice} (h : choice.failure = none) (c : calls.Call) :
    act who choice c s = perform who choice.amount c s := by
  unfold act
  rw [h]

theorem act_createDirAll (path : Path) :
    ∃ paths, (∀ dir ∈ paths, dir <+: path) ∧
      (act who choice (.createDirAll path) s).2 = s.makeDirs paths := by
  have hprefix : ∀ dir ∈ path.inits, dir <+: path := fun dir => (List.mem_inits dir path).mp
  unfold act
  cases choice.failure with
  | some message => exact ⟨_, fun dir hdir => hprefix dir (List.mem_of_mem_take hdir), rfl⟩
  | none =>
    dsimp only [perform]
    split
    · exact ⟨_, hprefix, rfl⟩
    · exact ⟨[], by simp, by simp [Store.makeDirs]⟩

theorem act_removeFile (path : Path) :
    (act who choice (.removeFile path) s).2 = s ∨
      (act who choice (.removeFile path) s).2 = s.unlink path := by
  unfold act
  cases choice.failure with
  | some message => exact Or.inl rfl
  | none =>
    dsimp only [perform]
    split
    · exact Or.inl rfl
    · exact Or.inl rfl
    · exact Or.inr rfl

theorem act_createNew (path : Path) :
    (∃ e, act who choice (.createNew path) s = (.error e, s)) ∨
      s.entry path = .absent ∧
        act who choice (.createNew path) s = (.ok s.next, s.create who path) := by
  unfold act
  cases choice.failure with
  | some message => exact Or.inl ⟨_, rfl⟩
  | none =>
    dsimp only [perform]
    split
    · split
      · next habsent => exact Or.inr ⟨habsent, rfl⟩
      · exact Or.inl ⟨_, rfl⟩
    · exact Or.inl ⟨_, rfl⟩

theorem act_write (inode : ℕ) (bytes : Bytes) :
    (∃ e, act who choice (.write inode bytes) s = (.error e, s)) ∨
      ∃ taken ≤ bytes.length,
        act who choice (.write inode bytes) s = (.ok taken, s.append inode (bytes.take taken)) := by
  unfold act
  cases choice.failure with
  | some message => exact Or.inl ⟨_, rfl⟩
  | none => exact Or.inr ⟨min choice.amount bytes.length, Nat.min_le_right _ _, rfl⟩

theorem act_openRead (path : Path) :
    (∃ e, act who choice (.openRead path) s = (.error e, s)) ∨
      s.entry path ≠ .absent ∧ act who choice (.openRead path) s = (.ok (s.entry path), s) := by
  unfold act
  cases choice.failure with
  | some message => exact Or.inl ⟨_, rfl⟩
  | none =>
    dsimp only [perform]
    split
    · exact Or.inl ⟨_, rfl⟩
    · exact Or.inl ⟨_, rfl⟩
    · next habsent _ => exact Or.inr ⟨habsent, rfl⟩

theorem act_openAppend (path : Path) :
    (∃ e, act who choice (.openAppend path) s = (.error e, s)) ∨
      s.entry path = .absent ∧
        act who choice (.openAppend path) s = (.ok s.next, s.create who path) ∨
      ∃ inode, s.entry path = .file inode ∧ act who choice (.openAppend path) s = (.ok inode, s) := by
  unfold act
  cases choice.failure with
  | some message => exact Or.inl ⟨_, rfl⟩
  | none =>
    dsimp only [perform]
    split
    · next habsent =>
      split
      · exact Or.inr (Or.inl ⟨habsent, rfl⟩)
      · exact Or.inl ⟨_, rfl⟩
    · next inode hfile => exact Or.inr (Or.inr ⟨inode, hfile, rfl⟩)
    · exact Or.inl ⟨_, rfl⟩
    · exact Or.inl ⟨_, rfl⟩
    · exact Or.inl ⟨_, rfl⟩

theorem act_rename (source target : Path) :
    (∃ e, act who choice (.rename source target) s = (.error e, s)) ∨
      s.entry source ≠ .absent ∧
        act who choice (.rename source target) s = (.ok (), s.move source target) := by
  unfold act
  cases choice.failure with
  | some message => exact Or.inl ⟨_, rfl⟩
  | none =>
    dsimp only [perform]
    split
    · exact Or.inl ⟨_, rfl⟩
    · exact Or.inl ⟨_, rfl⟩
    · next habsent _ =>
      split
      · exact Or.inl ⟨_, rfl⟩
      · exact Or.inr ⟨habsent, rfl⟩

/-- A call that only looks changes nothing. -/
theorem act_looks {c : Call} (h : c.looks) : (act who choice c s).2 = s := by
  unfold act
  cases choice.failure with
  | some message =>
    cases c with
    | createDirAll path => cases h
    | _ => rfl
  | none =>
    cases c with
    | symlinkMetadata | metadata | canonicalize | openMetadata => rfl
    | openRead path =>
      dsimp only [perform]
      split <;> rfl
    | readToString opened | readInto opened =>
      dsimp only [perform]
      split <;> rfl
    | _ => cases h

/-- What looks like a file is one, or a link. -/
theorem act_metadata (path : Path) :
    (act who choice (.metadata path) s).2 = s ∧
      ∀ info, (act who choice (.metadata path) s).1 = .ok info → info.fileType = .file →
        (∃ bytes, s.node path = .regular bytes) ∨ ∃ dest, s.node path = .symlink dest := by
  unfold act
  cases choice.failure with
  | some message => exact ⟨rfl, fun _ h => nomatch h⟩
  | none =>
    refine ⟨rfl, fun info hinfo hfile => ?_⟩
    change (s.follow 41 path).bind (fun path => s.metadata (s.entry path)) = .ok info at hinfo
    rw [Tree.follow] at hinfo
    cases hentry : s.entry path with
    | absent =>
      rw [hentry] at hinfo
      cases hinfo
    | file inode => exact Or.inl ⟨_, Tree.node_of_file hentry⟩
    | symlink dest => exact Or.inr ⟨dest, Tree.node_eq_symlink.mpr hentry⟩
    | directory =>
      simp only [hentry, Except.bind, Tree.metadata, Except.ok.injEq] at hinfo
      rw [← hinfo] at hfile
      cases hfile
    | special =>
      simp only [hentry, Except.bind, Tree.metadata, Except.ok.injEq] at hinfo
      rw [← hinfo] at hfile
      cases hfile

theorem act_syncAll (inode : ℕ) :
    (∃ e, act who choice (.syncAll inode) s = (.error e, s)) ∨
      act who choice (.syncAll inode) s = (.ok (), s) := by
  unfold act
  cases choice.failure with
  | some message => exact Or.inl ⟨_, rfl⟩
  | none => exact Or.inr rfl

theorem act_canonicalize (path : Path) :
    (∃ e, act who choice (.canonicalize path) s = (.error e, s)) ∨
      ∃ resolved, s.canonicalize path = .ok resolved ∧
        act who choice (.canonicalize path) s = (.ok resolved, s) := by
  unfold act
  cases choice.failure with
  | some message => exact Or.inl ⟨_, rfl⟩
  | none =>
    dsimp only [perform]
    cases s.canonicalize path with
    | error e => exact Or.inl ⟨e, rfl⟩
    | ok resolved => exact Or.inr ⟨resolved, rfl, rfl⟩

/-- A link is seen, unless the call fails. -/
theorem act_symlinkMetadata (path : Path) :
    (act who choice (.symlinkMetadata path) s).2 = s ∧
      ∀ dest, s.entry path = .symlink dest → choice.failure = none →
        (act who choice (.symlinkMetadata path) s).1 = .ok ⟨.symlink, 0⟩ := by
  unfold act
  cases choice.failure with
  | some message => exact ⟨rfl, fun _ _ h => nomatch h⟩
  | none =>
    refine ⟨rfl, fun dest hdest _ => ?_⟩
    dsimp only [perform]
    rw [hdest, Tree.metadata]

end Cases

end FileStore
