import Runex.App.Hook

/-!
# The `hook` subcommand

`handle` after the shell name has been parsed: the caret is converted once, an oversize line, a
pasted block or a configuration that does not load short-circuits to a literal space, and
everything else goes through `hook`.
-/

namespace Runex

open Text (byteLen)

/-- Upper bound on the line a key press looks at. -/
def maxHookLineBytes : ℕ := 16 * 1024

/-- The action `handle` renders. `config` is `none` when the configuration does not load. -/
def handleAction (engine : RegexLite) (shell : Shell) (line : Text) (cursor : ℕ)
    (pastePending : Bool) (config : Option Config) (commandExists : Text → Bool) :
    Option HookAction :=
  let cursor := shellCursorToByte shell line cursor
  if byteLen line > maxHookLineBytes then insertSpaceAction line cursor
  else if pastePending then insertSpaceAction line cursor
  else
    match config with
    | none => insertSpaceAction line cursor
    | some config => hook engine config shell line cursor commandExists

/-- What `handle` prints; `none` is a panic. -/
def handle (engine : RegexLite) (toJson : Text → Text) (shell : Shell) (line : Text) (cursor : ℕ)
    (pastePending : Bool) (config : Option Config) (commandExists : Text → Bool) : Option Text := do
  let action ← handleAction engine shell line cursor pastePending config commandExists
  render toJson shell action

end Runex
