import Runex.Cmd.Hook.Session

/-!
# The same session in every shell

A configuration may be written for all shells alike. Then the same keys leave the same buffer and
the same caret in Bash, Zsh, PowerShell and nu, although each of them has its own key handler, its
own quoting and its own unit for the caret. clink is left out: it inserts a space where a rule only
moves the caret.

## Main definitions

- `Config.Uniform` — no rule tells the shells apart
- `Stroke` — what happens at a prompt, in whatever shell

## Main results

- `expand_of_uniform` — the scan does not look at the shell
- `session_across_shells` — a session leaves the same in two shells
-/

namespace Runex

/-- Every expansion and every condition is for all shells. -/
def Config.Uniform (config : Config) : Prop :=
  ∀ abbr ∈ config.abbr, (∃ template, abbr.expand = .all template) ∧
    ∀ cmds, abbr.whenCommandExists = some cmds → ∃ list, cmds = .all list

variable {engine : RegexLite}

theorem forShell_of_all {α : Type} {value : PerShell α} {v : α} (h : value = .all v)
    (shell shell' : Shell) : value.forShell shell = value.forShell shell' := by
  subst h
  rfl

/-- The scan does not look at the shell. -/
theorem expand_of_uniform {config : Config} (h : config.Uniform) (token : Text)
    (shell shell' : Shell) (commandExists : Text → Bool) :
    expand engine config token shell commandExists =
      expand engine config token shell' commandExists := by
  have hrule : ∀ abbr ∈ config.abbr, ∀ bindings,
      tryExpandRule abbr token shell commandExists bindings =
        tryExpandRule abbr token shell' commandExists bindings := by
    intro abbr hmem bindings
    obtain ⟨⟨template, htemplate⟩, hcmds⟩ := h abbr hmem
    rw [tryExpandRule, tryExpandRule, forShell_of_all htemplate shell shell']
    cases hwhen : abbr.whenCommandExists with
    | none => rfl
    | some cmds =>
      obtain ⟨list, hlist⟩ := hcmds cmds hwhen
      simp only [forShell_of_all hlist shell shell']
  have hscan : ∀ rules : List Abbr, (∀ abbr ∈ rules, abbr ∈ config.abbr) →
      (rules.findSome? fun abbr => (matchRule engine abbr token).bind fun bindings =>
        tryExpandRule abbr token shell commandExists bindings) =
      rules.findSome? fun abbr => (matchRule engine abbr token).bind fun bindings =>
        tryExpandRule abbr token shell' commandExists bindings := by
    intro rules hrules
    induction rules with
    | nil => rfl
    | cons abbr rules ih =>
      rw [List.forall_mem_cons] at hrules
      rw [List.findSome?_cons, List.findSome?_cons, ih hrules.2]
      simp only [hrule abbr hrules.1]
  rw [expand, expand]
  congr 2
  funext phase
  exact hscan _ fun abbr hmem => List.mem_of_mem_filter hmem

/-- What happens at a prompt, in whatever shell: the program starts, no keys are queued, and the
    configuration does not tell the shells apart. -/
inductive Stroke (engine : RegexLite) where
  | edit (z : Zipper) (plain : '\x00' ∉ z.text)
  | selfInsert
  | trigger (config : Option {config : Config // Accepted engine config ∧ config.Uniform})
      (commandExists : Text → Bool)

namespace Stroke

/-- The trigger key of a stroke. -/
def press (config : Option {config : Config // Accepted engine config ∧ config.Uniform})
    (commandExists : Text → Bool) : Press engine where
  config := config.map fun loaded => ⟨loaded.val, loaded.property.1⟩
  commandExists
  keysQueued := false
  started := true

/-- The stroke in one shell. -/
def toEvent (shell : Shell) : Stroke engine → Event engine shell
  | .edit z plain => .edit z fun _ => plain
  | .selfInsert => .selfInsert
  | .trigger config commandExists => .trigger (press config commandExists)

theorem intended_press (config : Option {config : Config // Accepted engine config ∧ config.Uniform})
    (commandExists : Text → Bool) (shell shell' : Shell) (z : Zipper) :
    (press config commandExists).intended shell z =
      (press config commandExists).intended shell' z := by
  have hpaste : ∀ s, (press config commandExists).pastePending s = false :=
    fun s => Bool.and_false _
  have hexpansion : (press config commandExists).expansion shell z =
      (press config commandExists).expansion shell' z := by
    rw [Press.expansion, Press.expansion, hpaste, hpaste]
    cases config with
    | none => rfl
    | some loaded =>
      have hloaded : (press (some loaded) commandExists).loaded = some loaded.val := rfl
      simp only [hloaded, expand_of_uniform loaded.property.2 _ shell shell']
  rw [Press.intended, Press.intended, hexpansion]

theorem edit_press (config : Option {config : Config // Accepted engine config ∧ config.Uniform})
    (commandExists : Text → Bool) (bin : Text) {shell : Shell} (hshell : shell ≠ .clink)
    (z : Zipper) :
    (press config commandExists).edit bin shell z =
      (press config commandExists).intended shell z := by
  have hstarted : (press config commandExists).started = true := rfl
  rw [Press.edit, if_pos hstarted, if_neg fun h => hshell h.1]

/-- The stroke leaves the same in two shells. -/
theorem onEditor_toEvent (stroke : Stroke engine) (bin : Text) {shell shell' : Shell}
    (hshell : shell ≠ .clink) (hshell' : shell' ≠ .clink) (z : Zipper) :
    (stroke.toEvent shell).onEditor bin z = (stroke.toEvent shell').onEditor bin z := by
  cases stroke with
  | edit z' plain => rfl
  | selfInsert =>
    show (if shell = .clink then z else z.space) = if shell' = .clink then z else z.space
    rw [if_neg hshell, if_neg hshell']
  | trigger config commandExists =>
    show (press config commandExists).edit bin shell z =
      (press config commandExists).edit bin shell' z
    rw [edit_press config commandExists bin hshell, edit_press config commandExists bin hshell',
      intended_press config commandExists shell shell']

theorem runEditor_toEvent (strokes : List (Stroke engine)) (bin : Text) {shell shell' : Shell}
    (hshell : shell ≠ .clink) (hshell' : shell' ≠ .clink) (z : Zipper) :
    runEditor bin (strokes.map (toEvent shell)) z =
      runEditor bin (strokes.map (toEvent shell')) z := by
  induction strokes generalizing z with
  | nil => rfl
  | cons stroke strokes ih =>
    rw [List.map_cons, List.map_cons, runEditor, runEditor, List.foldl_cons, List.foldl_cons,
      stroke.onEditor_toEvent bin hshell hshell']
    exact ih _

end Stroke

/-- **A session leaves the same in two shells.** For every sequence of edits, self-insert keys and
    trigger keys with configurations that do not tell the shells apart, two shells other than clink
    hold the same buffer with the same caret at the end, each in its own representation. -/
theorem session_across_shells (engine : RegexLite) (hengine : engine.CapturesOfToken)
    (toJson : Text → Text) (hjson : WritesJson toJson) (bin : Text) (shell shell' : Shell)
    (hshell : shell ≠ .clink) (hshell' : shell' ≠ .clink) (strokes : List (Stroke engine))
    (z : Zipper) (hplain : '\x00' ∉ z.text) :
    ∃ z' : Zipper,
      runShell toJson bin (strokes.map (Stroke.toEvent shell)) (z.state shell) =
        some (z'.state shell) ∧
      runShell toJson bin (strokes.map (Stroke.toEvent shell')) (z.state shell') =
        some (z'.state shell') := by
  refine ⟨_, (runShell_state hengine hjson bin _ fun _ => hplain).1, ?_⟩
  rw [Stroke.runEditor_toEvent strokes bin hshell hshell']
  exact (runShell_state hengine hjson bin _ fun _ => hplain).1

/-- A trigger key that finds one rule for `x` in every shell. -/
def uniformStroke : Stroke default :=
  .trigger
    (some ⟨oneRuleConfig "echo".toList, accepted_iff.mpr ⟨rfl, by decide, by decide +kernel⟩,
      fun abbr hmem => by
        obtain rfl := List.mem_singleton.mp hmem
        exact ⟨⟨_, rfl⟩, nofun⟩⟩)
    fun _ => false

/-- `x` expanded after a character outside the Basic Multilingual Plane, in PowerShell and Zsh. -/
theorem session_across_shells_pwsh :
    ∃ z' : Zipper,
      runShell ShellLiteral.jsonQuote [] ([uniformStroke].map (Stroke.toEvent .pwsh))
        (.buffer "🎯; x".toList 5) = some (z'.state .pwsh) ∧
      runShell ShellLiteral.jsonQuote [] ([uniformStroke].map (Stroke.toEvent .zsh))
        (.halves "🎯; x".toList []) = some (z'.state .zsh) :=
  session_across_shells default (fun regex => nomatch regex) ShellLiteral.jsonQuote
    ShellLiteral.scan_jsonQuote [] .pwsh .zsh (by decide) (by decide) [uniformStroke]
    ⟨"🎯; x".toList, []⟩ (by decide)

end Runex
