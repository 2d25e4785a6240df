import Runex.App.BashStaticDispatcher
import Runex.App.Config.Issues
import Runex.App.Templates
import Runex.Domain.Shell
import Runex.Lib.Placeholder.InTurn

/-!
# The integration script

`runex export` and the key bindings that drive it. A chord generator has no chord for some keys,
and reaches `unreachable!` there: such a result is `none`.

## Main definitions

- `triggerFor`, `selfInsertFor`, `pasteInterceptFor` — the key that applies to a shell
- `bashChord`, …, `nuKeycode` — a key in the words of a shell
- `exportSlots` — the placeholders of the templates and what is inserted for them
- `exportScript` — the script of a shell

## Main results

- `exportSlots_isSome_iff` — which trigger keys reach no `unreachable!`
- `export_returns_iff` — when an accepted configuration can be exported
-/

namespace Runex

open Placeholder Search

/-- The entry of a keybind table for a shell. Clink has only the default. -/
def PerShellKey.forShell (table : PerShellKey) : Shell → Option TriggerKey
  | .bash => table.bash.or table.default
  | .zsh => table.zsh.or table.default
  | .pwsh => table.pwsh.or table.default
  | .nu => table.nu.or table.default
  | .clink => table.default

def triggerFor (shell : Shell) (config : Option Config) : Option TriggerKey := do
  (← config).keybind.trigger.forShell shell

def selfInsertFor (shell : Shell) (config : Option Config) : Option TriggerKey := do
  let keybind := (← config).keybind
  match shell with
  | .clink => none
  | shell => keybind.selfInsert.forShell shell

/-- Only nu honours the paste key. -/
def pasteInterceptFor (shell : Shell) (config : Option Config) : Option TriggerKey := do
  let keybind := (← config).keybind
  match shell with
  | .nu => keybind.pasteIntercept.nu
  | _ => none

def bashChord : TriggerKey → Option Text
  | .space => some "\\x20".toList
  | .tab => some "\\C-i".toList
  | .altSpace => some "\\e ".toList
  | .shiftSpace | .ctrlV => none

def zshChord : TriggerKey → Option Text
  | .space => some " ".toList
  | .tab => some "^I".toList
  | .altSpace => some "^[ ".toList
  | .shiftSpace | .ctrlV => none

def pwshChord : TriggerKey → Option Text
  | .space => some " ".toList
  | .tab => some "Tab".toList
  | .altSpace => some "Alt+Spacebar".toList
  | .shiftSpace | .ctrlV => none

def nuModifier : TriggerKey → Option Text
  | .altSpace => some "alt".toList
  | .shiftSpace => some "shift".toList
  | .space | .tab => some "none".toList
  | .ctrlV => none

def nuKeycode : TriggerKey → Option Text
  | .space | .altSpace | .shiftSpace => some "space".toList
  | .tab => some "tab".toList
  | .ctrlV => none

def clinkKeySequence : TriggerKey → Option Text
  | .space => some "\" \"".toList
  | .tab => some "\"\\t\"".toList
  | .altSpace => some "\"\\e \"".toList
  | .shiftSpace | .ctrlV => none

/-- The lines that bind the trigger key, for its chord. Nothing without a trigger. -/
def triggerLines (chord : TriggerKey → Option Text) (lines : Text → List Text)
    (trigger : Option TriggerKey) : Option Text :=
  match trigger with
  | none => some []
  | some trigger => (chord trigger).map fun key => Text.join (lines key)

def bashBindLines : Option TriggerKey → Option Text := triggerLines bashChord fun key => [
  "bind -r \"".toList ++ (key ++ "\" 2>/dev/null || true".toList),
  "bind -x '\"".toList ++ (key ++ "\": __runex_expand'".toList)]

def zshBindLines : Option TriggerKey → Option Text := triggerLines zshChord fun key => [
  "bindkey -r \"".toList ++ (key ++ "\" 2>/dev/null".toList),
  "bindkey \"".toList ++ (key ++ "\" __runex_expand".toList)]

def pwshRegisterLines : Option TriggerKey → Option Text := triggerLines pwshChord fun key => [
  "    __runex_register_expand_handler '".toList ++ (key ++ "'".toList),
  "    if ((Get-PSReadLineOption).EditMode -eq 'Vi') \x7b".toList,
  "        __runex_register_expand_handler '".toList ++ (key ++ "' Insert".toList),
  "    \x7d".toList]

def clinkBinding : Option TriggerKey → Option Text := triggerLines clinkKeySequence fun key => [
  "pcall(rl.setbinding, [[".toList ++
    (key ++ "]], [[\"luafunc:runex_expand\"]], \"emacs\")".toList),
  "pcall(rl.setbinding, [[".toList ++
    (key ++ "]], [[\"luafunc:runex_expand\"]], \"vi-insert\")".toList)]

def bashSelfInsertLines : Option TriggerKey → Text
  | some .altSpace => joinLines [
      "bind -r \"\\e \" 2>/dev/null || true",
      "bind '\"\\e \": self-insert'"]
  | _ => []

def zshSelfInsertLines : Option TriggerKey → Text
  | some .altSpace => joinLines [
      "bindkey -r \"^[ \" 2>/dev/null",
      "bindkey \"^[ \" self-insert"]
  | _ => []

def pwshSelfInsertLines : Option TriggerKey → Text
  | some .shiftSpace =>
    "    Set-PSReadLineKeyHandler -Chord 'Shift+Spacebar' -Function SelfInsert".toList
  | some .altSpace =>
    "    Set-PSReadLineKeyHandler -Chord 'Alt+Spacebar' -Function SelfInsert".toList
  | _ => []

/-- The placeholders of the nu binding, in the order they are replaced. -/
def nuBindingSlots (bin modifier keycode : Text) : List (Text × Text) := [
  ("NU_BIN".toList, nuQuoteStringEmbedded bin),
  ("NU_MODIFIER".toList, modifier),
  ("NU_KEYCODE".toList, keycode)]

def nuBindings (trigger : Option TriggerKey) (bin : Text) : Option Text :=
  match trigger with
  | none => some []
  | some trigger => do
    let modifier ← nuModifier trigger
    let keycode ← nuKeycode trigger
    some (replaceEach (nuBindingSlots bin modifier keycode) nuExpandBinding)

def nuPasteBindingText (pasteIntercept : Option TriggerKey) (bin : Text) : Text :=
  match pasteIntercept with
  | some .ctrlV => replaceEach [("NU_BIN".toList, nuQuoteStringEmbedded bin)] nuPasteBinding
  | _ => []

def nuSelfInsertLines (selfInsert : Option TriggerKey) : Text :=
  match selfInsert with
  | some .shiftSpace => lines "shift".toList
  | some .altSpace => lines "alt".toList
  | _ => []
where
  lines (modifier : Text) : Text := replaceEach
    [("NU_SI_MODIFIER".toList, modifier), ("NU_SI_KEYCODE".toList, "space".toList)]
    nuSelfInsertBinding

def template : Shell → Text
  | .bash => bashTemplate
  | .zsh => zshTemplate
  | .pwsh => pwshTemplate
  | .clink => clinkTemplate
  | .nu => nuTemplate

/-- The placeholders in the order they are replaced, with what is inserted for each. The lines of
    every shell are generated, for the keys of the one that is exported. -/
def exportSlots (shell : Shell) (bin : Text) (config : Option Config) :
    Option (List (Text × Text)) := do
  let trigger := triggerFor shell config
  let selfInsert := selfInsertFor shell config
  let pasteIntercept := pasteInterceptFor shell config
  let bashLines ← bashBindLines trigger
  let zshLines ← zshBindLines trigger
  let clinkLines ← clinkBinding trigger
  let pwshLines ← pwshRegisterLines trigger
  let nuLines ← nuBindings trigger bin
  some [
    ("BASH_BIN".toList, bashQuoteString bin),
    ("BASH_BIND_LINES".toList, bashLines),
    ("BASH_SELF_INSERT_LINES".toList, bashSelfInsertLines selfInsert),
    ("BASH_CYG_DISPATCHER".toList, (config.map generateCygwinDispatcher).getD []),
    ("ZSH_BIN".toList, bashQuoteString bin),
    ("ZSH_BIND_LINES".toList, zshLines),
    ("ZSH_SELF_INSERT_LINES".toList, zshSelfInsertLines selfInsert),
    ("CLINK_BIN".toList, luaQuoteString bin),
    ("CLINK_BINDING".toList, clinkLines),
    ("PWSH_BIN".toList, pwshQuoteString bin),
    ("PWSH_REGISTER_LINES".toList, pwshLines),
    ("PWSH_SELF_INSERT_LINES".toList, pwshSelfInsertLines selfInsert),
    ("NU_BIN".toList, nuQuoteString bin),
    ("NU_BINDINGS".toList, nuLines),
    ("NU_PASTE_BINDING".toList, nuPasteBindingText pasteIntercept bin),
    ("NU_SELF_INSERT_BINDINGS".toList, nuSelfInsertLines selfInsert)]

/-- The integration script of a shell. -/
def exportScript (shell : Shell) (bin : Text) (config : Option Config) : Option Text :=
  (exportSlots shell bin config).map fun slots =>
    replaceEach slots (replaceAll ['\r', '\n'] ['\n'] (template shell))

/-- Every generator has a chord for a key exactly when it is one of three. -/
theorem exportSlots_isSome_iff (shell : Shell) (bin : Text) (config : Option Config) :
    (exportSlots shell bin config).isSome ↔
      triggerFor shell config ≠ some .shiftSpace ∧ triggerFor shell config ≠ some .ctrlV := by
  unfold exportSlots bashBindLines zshBindLines clinkBinding pwshRegisterLines nuBindings
  cases triggerFor shell config with
  | none => simp [triggerLines]
  | some key =>
    cases key <;>
      simp [triggerLines, bashChord, zshChord, clinkKeySequence, pwshChord, nuModifier, nuKeycode]

/-- A table that names no `ctrl-v` gives it to no shell. -/
theorem PerShellKey.forShell_ne_ctrlV {table : PerShellKey}
    (h : ∀ entry ∈ table.labelled, entry.2 ≠ some .ctrlV) (shell : Shell) :
    table.forShell shell ≠ some .ctrlV := by
  have hentry : ∀ key ∈ [table.default, table.bash, table.zsh, table.pwsh, table.nu],
      key ≠ some .ctrlV := by
    simpa [PerShellKey.labelled, perShellLabels] using h
  simp only [List.forall_mem_cons] at hentry
  obtain ⟨hdefault, hbash, hzsh, hpwsh, hnu, -⟩ := hentry
  cases shell <;> simp only [PerShellKey.forShell, ne_eq, Option.or_eq_some_iff, not_or, not_and]
  · exact ⟨hbash, fun _ => hdefault⟩
  · exact ⟨hzsh, fun _ => hdefault⟩
  · exact ⟨hpwsh, fun _ => hdefault⟩
  · exact hdefault
  · exact ⟨hnu, fun _ => hdefault⟩

/-- Validation keeps `ctrl-v` out of the trigger table. -/
theorem Accepted.trigger_ne_ctrlV {engine : RegexLite} {config : Config}
    (h : Accepted engine config) (shell : Shell) :
    triggerFor shell (some config) ≠ some .ctrlV := by
  obtain ⟨-, hkeybind, -⟩ := accepted_iff.mp h
  refine PerShellKey.forShell_ne_ctrlV (fun entry hentry hctrlV => ?_) shell
  have htrigger : (config.keybind.trigger.labelled.findSome? fun entry =>
      if entry.2 = some .ctrlV then some (ConfigError.ctrlVAsTrigger entry.1) else none) = none := by
    by_contra hsome
    obtain ⟨error, herror⟩ := Option.ne_none_iff_exists'.mp hsome
    simp [firstKeybindError, herror] at hkeybind
  have hentry' := List.findSome?_eq_none_iff.mp htrigger entry hentry
  simp [hctrlV] at hentry'

/-- An accepted configuration can be exported for a shell exactly when the shell's trigger key is
    not `shift-space`: nothing rejects that key as a trigger, and the generators have no chord for
    it. -/
theorem export_returns_iff (engine : RegexLite) (config : Config) (h : Accepted engine config)
    (shell : Shell) (bin : Text) :
    (∃ script, exportScript shell bin (some config) = some script) ↔
      triggerFor shell (some config) ≠ some .shiftSpace := by
  have hctrlV := h.trigger_ne_ctrlV shell
  rw [← Option.isSome_iff_exists, exportScript, Option.isSome_map, exportSlots_isSome_iff]
  exact and_iff_left hctrlV

/-- The bindings that `[keybind.trigger]` with one nu key gives. -/
def nuTriggerConfig (key : TriggerKey) : Config where
  version := 1
  keybind := { trigger := { nu := some key } }

theorem nuTriggerConfig_accepted (engine : RegexLite) {key : TriggerKey} (h : key ≠ .ctrlV) :
    Accepted engine (nuTriggerConfig key) := by
  refine accepted_iff.mpr ⟨rfl, ?_, rfl⟩
  cases key with
  | ctrlV => exact absurd rfl h
  | _ => rfl

/-- A tab is a trigger nu can be exported with. -/
theorem export_returns_iff_tab :
    ∃ script, exportScript .nu "runex".toList (some (nuTriggerConfig .tab)) = some script :=
  (export_returns_iff default _ (nuTriggerConfig_accepted default (by decide)) .nu
    "runex".toList).mpr (by decide)

/-- The trigger the nu template itself recommends cannot be exported. -/
theorem accepted_without_export :
    ¬ ∀ (engine : RegexLite) (config : Config), Accepted engine config →
      ∀ (shell : Shell) (bin : Text), ∃ script, exportScript shell bin (some config) = some script := by
  intro h
  obtain ⟨script, hscript⟩ := h default (nuTriggerConfig .shiftSpace)
    (nuTriggerConfig_accepted default (by decide)) .nu "runex".toList
  have hnone : exportScript .nu "runex".toList (some (nuTriggerConfig .shiftSpace)) = none := rfl
  rw [hnone] at hscript
  exact Option.some_ne_none script hscript.symm

end Runex
