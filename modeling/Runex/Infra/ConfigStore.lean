import Runex.App.Config
import Runex.Lib.FileSystem
import Runex.Lib.Toml

/-!
# Reading and writing the configuration file

Every access to the configuration file: a read with a size cap, an append of one `[[abbr]]` block,
and a rewrite through a temporary sibling. The path has its links resolved.

## Main definitions

- `readConfigSource` — the text of the file
- `appendAbbrBlock` — append a rule
- `removeAbbrBlock` — remove the rules with a key, in place
-/

namespace Runex

open FileSystem Search

/-- 10 MB. -/
def maxConfigFileBytes : ℕ := 10 * 1024 * 1024

/-- Read the file: a regular file within the cap. -/
def readConfigSource (path : Path) : FileM ConfigError Text := do
  let resolved ← canonicalize .io path
  openRead .io resolved
  let info ← metadata .io resolved
  if !info.isFile then throw (.io "config path must be a regular file".toList)
  if info.len > maxConfigFileBytes then throw .fileTooLarge
  readToString .io resolved

section Reading

variable {path : Path} {faults : Faults} {disk disk' : Disk} {s : Text}

theorem keeps_readConfigSource (path other : Path) : Keeps other (readConfigSource path) := by
  refine (keeps_query _).bind fun resolved => (keeps_query _).bind fun _ =>
    (keeps_query _).bind fun info => ?_
  have hread : Keeps other (readToString ConfigError.io resolved) := keeps_query _
  have hcap := Keeps.ite (c := info.len > maxConfigFileBytes)
    ((keeps_throw ConfigError.fileTooLarge).bind fun _ : Unit => hread) hread
  exact Keeps.ite ((keeps_throw _).bind fun _ => hcap) hcap

/-- What is read is the text of a regular file within the cap. -/
theorem readConfigSource_eq_ok (h : exec (readConfigSource path) faults disk = (.ok s, disk')) :
    disk.node path = .regular (encode s) ∧ (encode s).size ≤ maxConfigFileBytes ∧
      disk'.node = disk.node := by
  unfold readConfigSource at h
  obtain ⟨resolved, d₁, hcall, h⟩ := exec_bind_eq_ok h
  obtain ⟨rfl, rfl⟩ := canonicalize_eq_ok hcall
  obtain ⟨⟨⟩, d₂, hcall, h⟩ := exec_bind_eq_ok h
  obtain rfl := openRead_eq_ok hcall
  obtain ⟨info, d₃, hcall, h⟩ := exec_bind_eq_ok h
  obtain ⟨rfl, hinfo⟩ := metadata_eq_ok hcall
  dsimp only at h
  split at h
  · simp [exec_bind] at h
  split at h
  · simp [exec_bind] at h
  · next hfile hlen =>
    obtain ⟨hnode, rfl⟩ := readToString_eq_ok h
    obtain ⟨bytes, hbytes, hsize⟩ := hinfo (by simpa using hfile)
    simp only [Disk.node_tick] at hnode hbytes
    obtain rfl := Node.regular.inj (hbytes.symm.trans hnode)
    exact ⟨hnode, by omega, rfl⟩

theorem readConfigSource_noFaults (hnode : disk.node path = .regular (encode s))
    (hsize : (encode s).size ≤ maxConfigFileBytes) :
    (exec (readConfigSource path) noFaults disk).1 = .ok s := by
  have h₁ : disk.tick.node path = .regular (encode s) := hnode
  have h₂ : disk.tick.tick.node path = .regular (encode s) := hnode
  have h₃ : disk.tick.tick.tick.node path = .regular (encode s) := hnode
  unfold readConfigSource
  rw [exec_bind_of_ok (canonicalize_noFaults hnode), exec_bind_of_ok (openRead_noFaults h₁),
    exec_bind_of_ok (metadata_noFaults h₂)]
  dsimp only
  rw [if_neg (by simp), if_neg (Nat.not_lt.mpr hsize),
    readToString_noFaults h₃ (decode_eq_some.mpr rfl)]

end Reading

/-- `.{file_name}.runex.tmp` in the same directory; `none` for the root. -/
def tempPath (path : Path) : Option Path :=
  path.getLast?.map fun fileName => path.dropLast ++ ['.' :: (fileName ++ ".runex.tmp".toList)]

theorem tempPath_concat (dir : Path) (name : Text) :
    tempPath (dir ++ [name]) = some (dir ++ ['.' :: (name ++ ".runex.tmp".toList)]) := by
  rw [tempPath, List.getLast?_concat, List.dropLast_concat, Option.map_some]

/-- Replace the file: write a sibling and rename it. -/
def atomicallyWriteConfig (path : Path) (contents : Text) : FileM ConfigError Unit := do
  let path ← canonicalize .io path
  match tempPath path with
  | none => throw (.io "config path has no parent directory".toList)
  | some tmp =>
    -- A stale temporary file of an earlier crash.
    ignoring (removeFile .io tmp)
    createNew .io tmp
    writeAll .io tmp (encode contents)
    syncAll .io
    tryCatch (rename .io tmp path) fun e => do
      ignoring (removeFile .io tmp)
      throw e

section Writing

variable {path tmp : Path}

theorem tempPath_ne (h : tempPath path = some tmp) : path ≠ tmp := by
  obtain ⟨fileName, hlast, rfl⟩ := Option.map_eq_some_iff.mp h
  intro heq
  have hname : fileName = '.' :: (fileName ++ ".runex.tmp".toList) := by
    have hlast' := congrArg List.getLast? heq
    simpa only [hlast, List.getLast?_concat, Option.some.injEq] using hlast'
  have hlength := congrArg List.length hname
  simp only [List.length_cons, List.length_append] at hlength
  omega

/-- A rewrite that fails leaves the file as it was. -/
theorem keepsOnError_atomicallyWriteConfig (path : Path) (contents : Text) :
    KeepsOnError path (atomicallyWriteConfig path contents) := by
  refine (keeps_query _).bindOnError fun resolved ⟨faults, disk, disk', hcanonical⟩ => ?_
  obtain ⟨rfl, -⟩ := canonicalize_eq_ok hcanonical
  cases htmp : tempPath resolved with
  | none => exact (keeps_throw _).onError
  | some tmp =>
    have hne := tempPath_ne htmp
    refine (keeps_removeFile hne).ignoring.bindOnError fun _ _ =>
      (keeps_createNew hne).bindOnError fun _ _ =>
      (keeps_writeAll hne _).bindOnError fun _ _ =>
      (keeps_query _).bindOnError fun _ _ => keepsOnError_rename fun e => ?_
    exact (keeps_removeFile hne).ignoring.bind fun _ => keeps_throw e

/-- A rewrite that returns leaves the contents. -/
theorem atomicallyWriteConfig_eq_ok {contents : Text} {faults : Faults} {disk disk' : Disk}
    (h : exec (atomicallyWriteConfig path contents) faults disk = (.ok (), disk')) :
    disk'.node path = .regular (encode contents) := by
  unfold atomicallyWriteConfig at h
  obtain ⟨resolved, d₁, hcanonical, hrest⟩ := exec_bind_eq_ok h
  obtain ⟨rfl, -⟩ := canonicalize_eq_ok hcanonical
  cases htmp : tempPath resolved with
  | none => simp [htmp] at hrest
  | some tmp =>
    simp only [htmp] at hrest
    obtain ⟨⟨⟩, d₂, -, hrest⟩ := exec_bind_eq_ok hrest
    obtain ⟨⟨⟩, d₃, hcreate, hrest⟩ := exec_bind_eq_ok hrest
    obtain ⟨⟨⟩, d₄, hwrite, hrest⟩ := exec_bind_eq_ok hrest
    obtain ⟨⟨⟩, d₅, hsync, hrest⟩ := exec_bind_eq_ok hrest
    -- The new file holds the contents when it is renamed.
    have hcontents : d₅.node tmp = .regular (encode contents) := by
      have hempty : d₃.tick.node tmp = .regular ByteArray.empty := by
        rw [createNew_eq_ok hcreate, Disk.node_tick, Disk.node_set_self]
      rw [syncAll_eq_ok hsync, writeAll_eq_ok hwrite, Disk.node_tick,
        Disk.node_append_self hempty, ByteArray.empty_append]
    rw [exec_tryCatch] at hrest
    rcases hrename : exec (rename ConfigError.io tmp resolved) faults d₅ with ⟨e | ⟨⟨⟩⟩, d₆⟩ <;>
      rw [hrename] at hrest
    · obtain ⟨_, _, -, hthrow⟩ := exec_bind_eq_ok hrest
      simp at hthrow
    · obtain ⟨-, rfl⟩ := Prod.mk.inj hrest
      exact (rename_eq_ok hrename).trans hcontents

end Writing

/-- Quote a string for TOML. -/
def tomlQuote (s : Text) : Text :=
  let escaped := replaceAll ['"'] ['\\', '"'] (replaceAll ['\\'] ['\\', '\\'] s)
  '"' :: (escaped ++ ['"'])

/-- The block of one rule. -/
def abbrBlock (key expand : Text) (whenCommandExists : Option (List Text)) : Text :=
  let block := "\n[[abbr]]\n".toList
  let block := block ++ ("key = ".toList ++ (tomlQuote key ++ ['\n']))
  let block := block ++ ("expand = ".toList ++ (tomlQuote expand ++ ['\n']))
  match whenCommandExists with
  | some cmds =>
    block ++ ("when_command_exists = [".toList ++
      (", ".toList.intercalate (cmds.map tomlQuote) ++ "]\n".toList))
  | none => block

/-- Append a rule that the caller has validated. -/
def appendAbbrBlock (path : Path) (key expand : Text) (whenCommandExists : Option (List Text)) :
    FileM ConfigError Unit := do
  openAppend .io path
  writeAll .io path (encode (abbrBlock key expand whenCommandExists))

theorem appendAbbrBlock_eq_ok {path : Path} {key expand : Text} {cmds : Option (List Text)}
    {faults : Faults} {disk disk' : Disk} {old : ByteArray} (hnode : disk.node path = .regular old)
    (h : exec (appendAbbrBlock path key expand cmds) faults disk = (.ok (), disk')) :
    disk'.node path = .regular (old ++ encode (abbrBlock key expand cmds)) := by
  obtain ⟨⟨⟩, d₁, hopen, hwrite⟩ := exec_bind_eq_ok h
  have hopened : d₁.tick.node path = .regular old := by
    rw [openAppend_eq_ok hnode hopen]
    exact hnode
  rw [writeAll_eq_ok hwrite, Disk.node_append_self hopened]

/-- Where neither call fails the block is appended. -/
theorem exists_exec_appendAbbrBlock {path : Path} {key expand : Text} {cmds : Option (List Text)}
    {faults : Faults} {disk : Disk} {old : ByteArray}
    (hnode : disk.node path = .regular old ∨ disk.node path = .absent)
    (hopen : faults disk.calls = none) (hwrite : faults (disk.calls + 1) = none) :
    ∃ disk', exec (appendAbbrBlock path key expand cmds) faults disk = (.ok (), disk') := by
  obtain ⟨between, hopened, hcalls⟩ := exists_exec_openAppend hnode hopen
  exact ⟨_, (exec_bind_of_ok hopened).trans (exec_writeAll _ (hcalls ▸ hwrite))⟩

theorem appendAbbrBlock_error {path : Path} {key expand : Text} {cmds : Option (List Text)}
    {faults : Faults} {disk disk' : Disk} {e : ConfigError}
    (h : exec (appendAbbrBlock path key expand cmds) faults disk = (.error e, disk')) :
    ∃ message, e = .io message := by
  rcases exec_bind_eq_error h with hopen | ⟨⟨⟩, d₁, -, hwrite⟩
  · exact exec_systemCall_error hopen
  · exact exec_systemCall_error hwrite

theorem replaceAll_singleton (c : Char) (value s : Text) :
    replaceAll [c] value s = s.flatMap fun d => if d = c then value else [d] := by
  induction s with
  | nil => rfl
  | cons d s ih =>
    by_cases h : d = c
    · subst h
      have hfirst : replaceAll [d] value (d :: s) = value ++ replaceAll [d] value s :=
        replaceAll_pat_append (List.cons_ne_nil d []) s
      rw [hfirst, ih]
      simp
    · rw [replaceAll_cons (by simpa using Ne.symm h), ih]
      simp [h]

/-- The two replacements escape each character on its own. -/
theorem tomlQuote_eq (s : Text) : tomlQuote s = Toml.quoted s := by
  have hescaped : replaceAll ['"'] ['\\', '"'] (replaceAll ['\\'] ['\\', '\\'] s) =
      s.flatMap Toml.escape := by
    rw [replaceAll_singleton, replaceAll_singleton, List.flatMap_assoc]
    refine List.flatMap_congr fun c _ => ?_
    unfold Toml.escape
    by_cases hslash : c = '\\' <;> by_cases hquote : c = '"' <;> simp_all
  rw [tomlQuote, hescaped, Toml.quoted]

/-- The lines of a rule. -/
def abbrLines (key expand : Text) (whenCommandExists : Option (List Text)) : List Text :=
  [Toml.line "key".toList (Toml.quoted key), Toml.line "expand".toList (Toml.quoted expand)] ++
    whenCommandExists.toList.map fun cmds =>
      Toml.line "when_command_exists".toList (Toml.quotedArray cmds)

theorem abbrBlock_eq (key expand : Text) (cmds : Option (List Text)) :
    abbrBlock key expand cmds = Toml.block "abbr".toList (abbrLines key expand cmds) := by
  have hquote : tomlQuote = Toml.quoted := funext tomlQuote_eq
  unfold abbrBlock Toml.block abbrLines Toml.line Toml.quotedArray
  rw [hquote]
  cases cmds <;> simp

variable (editor : Toml.Editor)

/-- Whether a table is that of a rule with this key. -/
def tableMatches (key : Text) (table : editor.TableText) : Bool :=
  match (editor.entries table).get "key".toList with
  | some (.string k) => k == key
  | _ => false

/-- Remove the matching tables from index `i` on, in place. -/
def removeLoop (key : Text) (arr : List editor.TableText) (i : ℕ) : List editor.TableText :=
  if h : i < arr.length then
    if tableMatches editor key arr[i] then removeLoop key (arr.eraseIdx i) i
    else removeLoop key arr (i + 1)
  else arr
termination_by arr.length - i
decreasing_by
  · rw [List.length_eraseIdx_of_lt h]
    omega
  · omega

theorem removeLoop_eq (key : Text) (arr : List editor.TableText) (i : ℕ) :
    removeLoop editor key arr i =
      arr.take i ++ (arr.drop i).filter fun table => !tableMatches editor key table := by
  fun_induction removeLoop editor key arr i with
  | case1 arr i h hmatch ih =>
    -- The next table has moved to index `i`.
    have htake : (arr.take i).length = i := List.length_take_of_le h.le
    rw [ih, List.drop_eq_getElem_cons h, List.filter_cons_of_neg (by simp [hmatch]),
      List.eraseIdx_eq_take_drop_succ, List.take_left' htake, List.drop_left' htake]
  | case2 arr i h hmatch ih =>
    rw [ih, List.drop_eq_getElem_cons h, List.filter_cons_of_pos (by simp [hmatch]),
      List.take_succ_eq_append_getElem h, List.append_assoc, List.singleton_append]
  | case3 arr i h =>
    rw [List.take_of_length_le (Nat.le_of_not_lt h), List.drop_eq_nil_of_le (Nat.le_of_not_lt h),
      List.filter_nil, List.append_nil]

/-- Remove all rules with `key`, and count them. -/
def removeAbbrBlock (path : Path) (key : Text) : FileM ConfigError ℕ := do
  let content ← readConfigSource path
  match editor.parse content with
  | none => throw (.io "failed to parse config as editable TOML".toList)
  | some doc =>
    match editor.arrayOfTables doc "abbr".toList with
    | none => return 0
    | some arr =>
      let kept := removeLoop editor key arr 0
      let removed := arr.length - kept.length
      if removed > 0 then
        atomicallyWriteConfig path (editor.print (editor.setTables doc "abbr".toList kept))
      return removed

end Runex
