import Runex.App.Config.Add
import Runex.Lib.Toml.Notation

/-!
# The block that is added

A rule is added as text at the end of the file. By the notation of TOML the text is one `[[abbr]]`
header and the entries of the rule with the values that were given, and nothing else.

## Main results

- `appendAbbrBlock_carries` — what is written, and what it reads as
-/

namespace Runex

open FileSystem Toml

/-- What is to stand in the block of a rule: one `[[abbr]]` header and the values of the rule. -/
def abbrExpressions (key expand : Text) (cmds : Option (List Text)) :
    List Notation.Expression :=
  [.arrayOfTables ["abbr".toList], .entry ["key".toList] (.string key),
    .entry ["expand".toList] (.string expand)] ++
    cmds.toList.map fun list =>
      .entry ["when_command_exists".toList] (.array (list.map .string))

variable {path : Path} {key expand : Text} {cmds : Option (List Text)} {faults : Faults}
  {disk disk' : Disk}

/-- The file is created where there is none. -/
theorem appendAbbrBlock_creates (hnode : disk.node path = .absent)
    (h : exec (appendAbbrBlock path key expand cmds) faults disk = (.ok (), disk')) :
    disk'.node path = .regular (encode (abbrBlock key expand cmds)) := by
  obtain ⟨⟨⟩, d₁, hopen, hwrite⟩ := exec_bind_eq_ok h
  have hact := exec_systemCall_eq_ok hopen
  simp only [Disk.node_tick, hnode, Prod.mk.injEq, true_and] at hact
  have hopened : d₁.tick.node path = .regular ByteArray.empty := by
    rw [← hact, Disk.node_tick, Disk.node_set_self]
  rw [writeAll_eq_ok hwrite, Disk.node_append_self hopened, ByteArray.empty_append]

/-- The lines of the block read as its entries. -/
theorem expressions_abbrBlock (hkey : checkAbbrKey key = none)
    (hexpand : checkExpandValue expand = none)
    (hcmds : ∀ list ∈ cmds, ∀ cmd ∈ list, checkCmdEntry cmd = none) :
    Notation.expressions (abbrBlock key expand cmds) = some (abbrExpressions key expand cmds) := by
  have hfirst := Notation.readsLine_quoted (by decide : IsBareKey "key".toList) (printable_key hkey)
  have hsecond := Notation.readsLine_quoted (by decide : IsBareKey "expand".toList)
    (printable_expand hexpand)
  rw [abbrBlock_eq]
  cases cmds with
  | none => exact Notation.expressions_block (by decide) (.cons hfirst (.cons hsecond .nil))
  | some list =>
    have hthird := Notation.readsLine_quotedArray
      (by decide : IsBareKey "when_command_exists".toList) fun cmd hcmd =>
        printable_cmd (hcmds list rfl cmd hcmd)
    exact Notation.expressions_block (by decide)
      (.cons hfirst (.cons hsecond (.cons hthird .nil)))

/-- A rule whose fields pass their checks is written as one block at the end of a regular file, or
    of one that is created: whenever the append returns, and it does if neither of its calls fails.
    By the notation of TOML the block is a header and the entries of the rule. -/
theorem appendAbbrBlock_carries {key expand : Text} {cmds : Option (List Text)}
    (hkey : checkAbbrKey key = none) (hexpand : checkExpandValue expand = none)
    (hcmds : ∀ list ∈ cmds, ∀ cmd ∈ list, checkCmdEntry cmd = none) :
    ∃ text : Text,
      (∀ path faults disk old,
        disk.node path = .regular old ∨ disk.node path = .absent ∧ old = ByteArray.empty →
        (∀ disk', exec (appendAbbrBlock path key expand cmds) faults disk = (.ok (), disk') →
          disk'.node path = .regular (old ++ encode text)) ∧
        (faults disk.calls = none → faults (disk.calls + 1) = none →
          ∃ disk', exec (appendAbbrBlock path key expand cmds) faults disk = (.ok (), disk') ∧
            disk'.node path = .regular (old ++ encode text))) ∧
      Notation.expressions text = some (abbrExpressions key expand cmds) := by
  refine ⟨abbrBlock key expand cmds, ?_, expressions_abbrBlock hkey hexpand hcmds⟩
  intro path faults disk old hnode
  have hwritten : ∀ disk', exec (appendAbbrBlock path key expand cmds) faults disk = (.ok (), disk') →
      disk'.node path = .regular (old ++ encode (abbrBlock key expand cmds)) := by
    intro disk' h
    rcases hnode with hnode | ⟨hnode, rfl⟩
    · exact appendAbbrBlock_eq_ok hnode h
    · rw [ByteArray.empty_append]
      exact appendAbbrBlock_creates hnode h
  refine ⟨hwritten, fun hopen hwrite => ?_⟩
  obtain ⟨disk', h⟩ := exists_exec_appendAbbrBlock (hnode.imp_right And.left) hopen hwrite
  exact ⟨disk', h, hwritten disk' h⟩

/-- Values that end in quotes and backslashes, and look like a comment and a header, are appended to
    a file of one line. -/
theorem appendAbbrBlock_carries_awkward :
    let disk : Disk := { node := fun _ => .regular (encode "version = 1\n".toList) }
    ∃ text disk',
      exec (appendAbbrBlock ["config.toml".toList] "\\\"".toList "\" # [[x]]\\".toList
        (some ["lsd".toList])) noFaults disk = (.ok (), disk') ∧
      disk'.node ["config.toml".toList] = .regular (encode ("version = 1\n".toList ++ text)) ∧
      Notation.expressions text = some
        [.arrayOfTables ["abbr".toList], .entry ["key".toList] (.string "\\\"".toList),
          .entry ["expand".toList] (.string "\" # [[x]]\\".toList),
          .entry ["when_command_exists".toList] (.array [.string "lsd".toList])] := by
  intro disk
  have hkey : checkAbbrKey "\\\"".toList = none := by decide
  have hexpand : checkExpandValue "\" # [[x]]\\".toList = none := by decide
  have hcmds : ∀ list ∈ some ["lsd".toList], ∀ cmd ∈ list, checkCmdEntry cmd = none := by
    intro list hlist
    obtain rfl := Option.mem_some_iff.mp hlist
    decide
  obtain ⟨text, hwrites, htext⟩ := appendAbbrBlock_carries hkey hexpand hcmds
  obtain ⟨disk', hrun, hnode⟩ := (hwrites ["config.toml".toList] noFaults disk _ (.inl rfl)).2 rfl rfl
  exact ⟨text, disk', hrun, by rw [hnode, encode_append], htext⟩

end Runex
