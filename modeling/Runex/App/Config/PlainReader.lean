import Runex.App.Config.Files
import Runex.Lib.Toml.Lines

/-!
# A reader of plain configurations

Rules with one expansion and an optional list of commands, in files of key/value lines and
`[[abbr]]` blocks. It meets what is assumed of readers.

## Main definitions

- `plainReader` — the reader

## Main results

- `plainReader_readsRules`, `plainReader_readsKeys` — what is assumed of the deserializer
-/

namespace Runex

open Toml

def asString : Item → Option Text
  | .string s => some s
  | _ => none

/-- A rule without `number` and `match`. -/
def plainRule (entries : Table) : Option Abbr := do
  let key ← (entries.get "key".toList).bind asString
  let expand ← (entries.get "expand".toList).bind asString
  if (entries.get "number".toList).isSome ∨ (entries.get "match".toList).isSome then none
  else
    match entries.get "when_command_exists".toList with
    | none => some (newRule key expand none)
    | some (.array items) => (items.mapM asString).map fun cmds => newRule key expand (some cmds)
    | some _ => none

def invalidType : Text := "invalid type".toList

/-- The default of a table that is absent. -/
def absentTable {α : Type} (default : α) : Option Item → Except Text α
  | none => .ok default
  | some _ => .error invalidType

def plainReader : ConfigReader where
  toml := Lines.parse
  version
    | some (.integer n) => if 0 ≤ n ∧ n < 2 ^ 32 then .ok n.toNat else .error invalidType
    | some _ => .error invalidType
    | none => .error "missing field version".toList
  keybind := absentTable {}
  precache := absentTable {}
  rule
    | .table entries => (plainRule entries).elim (.error invalidType) .ok
    | _ => .error invalidType
  invalidType _ := invalidType

theorem plainReader_rule_eq_ok {entries : Table} {rule : Abbr} :
    plainReader.rule (.table entries) = .ok rule ↔ plainRule entries = some rule := by
  simp only [plainReader]
  cases plainRule entries <;> simp

theorem mapM_asString (cmds : List Text) : (cmds.map Item.string).mapM asString = some cmds := by
  induction cmds with
  | nil => rfl
  | cons cmd cmds ih => simp [ih, asString]

theorem plainReader_readsRules : plainReader.ReadsRules := by
  intro entries key expand cmds hkey hexpand hcmds hnumber hmatch
  refine plainReader_rule_eq_ok.mpr ?_
  simp only [plainRule, hkey, hexpand, hnumber, hmatch, hcmds, asString, Option.bind_some,
    Option.bind_eq_bind, Option.isSome_none, Bool.false_eq_true, or_self, if_false]
  cases cmds with
  | none => rfl
  | some list => simp only [Option.map_some, mapM_asString]

theorem plainReader_readsKeys : plainReader.ReadsKeys := by
  intro entries rule h
  have hrule := plainReader_rule_eq_ok.mp h
  simp only [plainRule, Option.bind_eq_bind, Option.bind_eq_some_iff] at hrule
  obtain ⟨key, ⟨item, hitem, hkey⟩, expand, -, hrest⟩ := hrule
  have hname : rule.key = key := by
    split at hrest
    · simp at hrest
    · split at hrest
      · exact congrArg Abbr.key (Option.some.inj hrest).symm
      · obtain ⟨cmds, -, rfl⟩ := Option.map_eq_some_iff.mp hrest
        rfl
      · simp at hrest
  cases item with
  | string s =>
    obtain rfl : s = key := Option.some.inj hkey
    rw [hitem, hname]
  | _ => simp [asString] at hkey

def configPath : FileSystem.Path := ["runex".toList, "config.toml".toList]

/-- A disk with one file. -/
def oneFile (s : Text) : FileSystem.Disk where
  node path := if path = configPath then .regular (FileSystem.encode s) else .absent

theorem oneFile_eq {s t : Text} (h : (oneFile s).node configPath = .regular (FileSystem.encode t)) :
    t = s := by
  simpa [oneFile, FileSystem.encode_inj, eq_comm] using h

end Runex
