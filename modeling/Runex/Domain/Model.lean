import Runex.Lib.Text

/-!
# Configuration data model

The configuration a user writes: abbreviation rules with per-shell expansions and conditions,
key bindings, and the result of expanding a token.

## Main definitions

- `Shell` — the five supported shells
- `PerShell` — a value that is uniform or given per shell, with `PerShell.forShell`
- `Abbr`, `Config` — one rule and the whole configuration
- `ExpandResult` — what expanding one token yields
-/

namespace Runex

/-- Identifies which shell is running. -/
inductive Shell where
  | bash
  | zsh
  | pwsh
  | clink
  | nu
  deriving DecidableEq, Repr

/-- A value that is the same in every shell, or given per shell with `default` as the
    fallback. -/
inductive PerShell (α : Type) where
  | all (value : α)
  | byShell (default bash zsh pwsh nu : Option α)
  deriving DecidableEq, Repr

namespace PerShell

variable {α : Type}

/-- The entry that applies to `shell`: its own field before `default`. Clink has no field of its
    own. -/
def forShell (value : PerShell α) (shell : Shell) : Option α :=
  match value with
  | .all v => some v
  | .byShell default bash zsh pwsh nu =>
    let specific := match shell with
      | .bash => bash
      | .zsh => zsh
      | .pwsh => pwsh
      | .nu => nu
      | .clink => none
    specific.or default

/-- Every value that is present. -/
def allValues (value : PerShell α) : List α :=
  match value with
  | .all v => [v]
  | .byShell default bash zsh pwsh nu => [default, bash, zsh, pwsh, nu].filterMap id

/-- An entry that applies to some shell is one of the values validation walks over. -/
theorem mem_allValues_of_forShell {value : PerShell α} {shell : Shell} {v : α}
    (h : value.forShell shell = some v) : v ∈ value.allValues := by
  cases value with
  | all w => simpa [forShell, allValues, eq_comm] using h
  | byShell default bash zsh pwsh nu =>
    cases shell <;>
      simp only [forShell, Option.or_eq_some_iff, Option.none_or] at h <;>
      simp only [allValues, List.mem_filterMap, id] <;>
      aesop

end PerShell

/-- Expansion string, uniform or per shell. -/
abbrev PerShellString := PerShell Text

/-- `when_command_exists` list, uniform or per shell. -/
abbrev PerShellCmds := PerShell (List Text)

/-- Keys a binding can name. `ctrlV` is for `paste_intercept` only. -/
inductive TriggerKey where
  | space
  | tab
  | altSpace
  | shiftSpace
  | ctrlV
  deriving DecidableEq, Repr

structure PerShellKey where
  default : Option TriggerKey := none
  bash : Option TriggerKey := none
  zsh : Option TriggerKey := none
  pwsh : Option TriggerKey := none
  nu : Option TriggerKey := none
  deriving DecidableEq, Repr

structure KeybindConfig where
  trigger : PerShellKey := {}
  selfInsert : PerShellKey := {}
  pasteIntercept : PerShellKey := {}
  deriving DecidableEq, Repr

/-- Pattern language selected by a rule's `match` field. -/
inductive MatchKind where
  | glob
  | regex
  deriving DecidableEq, Repr

/-- A single abbreviation rule. `matchKind = none` is the literal / `{number}` meaning. -/
structure Abbr where
  key : Text
  expand : PerShellString
  whenCommandExists : Option PerShellCmds := none
  number : Option Text := none
  matchKind : Option MatchKind := none
  deriving DecidableEq, Repr

structure PrecacheConfig where
  pathOnly : Bool := false
  deriving DecidableEq, Repr

/-- Top-level configuration. -/
@[ext]
structure Config where
  version : ℕ
  keybind : KeybindConfig := {}
  precache : PrecacheConfig := {}
  abbr : List Abbr := []
  deriving DecidableEq, Repr

/-- Result of expanding a token. `cursorOffset` is the byte of `text` the cursor goes to. -/
inductive ExpandResult where
  | expanded (text : Text) (cursorOffset : Option ℕ)
  | passThrough (token : Text)
  deriving DecidableEq, Repr

/-- Cursor placeholder marker in expansion text. -/
def cursorPlaceholder : Text := ['{', '}']

end Runex
