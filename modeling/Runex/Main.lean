import Runex.App.Precache
import Runex.Cmd.Hook
import Runex.Domain.Expand.Questions

/-!
# The runtime context

What every invocation that answers a trigger key finds, and the context built from it: the
configuration if one loads, the hint of the precache where its fingerprint is the one of now, and
the closure that tells which commands exist.

## Main definitions

- `World` — what an invocation finds
- `buildOptional` — the context
- `hookCommand` — the `hook` subcommand, with its questions put to the closure

## Main results

- `hookCommand_eq` — the closure and its memo do not show
-/

namespace Runex

open Text (byteLen)

/-- What an invocation finds, apart from the variable of the precache. -/
structure World (engine : RegexLite) where
  config : Option {config : Config // Accepted engine config}
  configMtime : ℕ
  pathEnv : Text
  lookups : Lookups
  pathPrepend : Option FileSystem.Path

/-- The context of a command that survives a missing configuration. -/
structure OptionalContext where
  config : Option Config
  fingerprint : Text
  hint : Option CommandMap
  commandExists : Text → CommandMap → Bool × CommandMap

variable {engine : RegexLite} (hash : Text → ℕ → Text → BitVec 64)

namespace World

/-- `compute_precache_fingerprint`. -/
def computePrecacheFingerprint (w : World engine) (shell : Shell) : Text :=
  computeFingerprint hash w.pathEnv w.configMtime (shellShortName shell)

/-- The commands that exist, without a hint. -/
def installed (w : World engine) : Text → Bool := commandExists w.lookups w.pathPrepend none

/-- `AppContext::build_optional` with a shell, and the variable of the precache. -/
def buildOptional (serde : SerdeJson) (env : Option Text) (w : World engine) (shell : Shell)
    (precacheEnabled : Bool) : OptionalContext :=
  let fingerprint := w.computePrecacheFingerprint hash shell
  let hint := (if precacheEnabled then loadCache serde env fingerprint else none).map
    CmdCache.commands
  { config := w.config.map Subtype.val
    fingerprint
    hint
    commandExists := makeCommandExistsOwned w.lookups w.pathPrepend hint }

end World

/-- `handle_action` with its questions. -/
def handleActionAsking (engine : RegexLite) (shell : Shell) (line : Text) (cursor : ℕ)
    (pastePending : Bool) (config : Option Config) : Asking Text Bool (Option HookAction) :=
  let cursor := shellCursorToByte shell line cursor
  if byteLen line > maxHookLineBytes then pure (insertSpaceAction line cursor)
  else if pastePending then pure (insertSpaceAction line cursor)
  else
    match config with
    | none => pure (insertSpaceAction line cursor)
    | some config => hookAsking engine config shell line cursor

/-- What `runex hook` prints; `none` is a panic. -/
def hookCommand (serde : SerdeJson) (toJson : Text → Text) (env : Option Text) (w : World engine)
    (shell : Shell) (line : Text) (cursor : ℕ) (pastePending : Bool) : Option Text := do
  let ctx := w.buildOptional hash serde env shell true
  let asking := handleActionAsking engine shell line cursor pastePending ctx.config
  let action ← (asking.run ctx.commandExists ∅).1
  render toJson shell action

theorem answered_handleActionAsking (shell : Shell) (line : Text) (cursor : ℕ)
    (pastePending : Bool) (config : Option Config) (commandExists : Text → Bool) :
    (handleActionAsking engine shell line cursor pastePending config).answered commandExists =
      handleAction engine shell line cursor pastePending config commandExists := by
  unfold handleActionAsking handleAction
  simp only
  split
  · rfl
  · split
    · rfl
    · cases config with
      | none => rfl
      | some config => exact answered_hookAsking engine config shell commandExists line _

/-- The memo does not show: the command answers with what exists or has a positive hint. -/
theorem hookCommand_eq (serde : SerdeJson) (toJson : Text → Text) (env : Option Text)
    (w : World engine) (shell : Shell) (line : Text) (cursor : ℕ) (pastePending : Bool) :
    hookCommand hash serde toJson env w shell line cursor pastePending =
      handle engine toJson shell line cursor pastePending (w.config.map Subtype.val)
        (commandExists w.lookups w.pathPrepend
          ((loadCache serde env (w.computePrecacheFingerprint hash shell)).map
            CmdCache.commands)) := by
  have hclosure : ∀ hint, Memo.Answers (commandExists w.lookups w.pathPrepend hint)
      (makeCommandExistsOwned w.lookups w.pathPrepend hint) :=
    fun _ => answers_makeCommandExistsOwned
  have hrun := fun hint => (Asking.answered_run (hclosure hint)
    (handleActionAsking engine shell line cursor pastePending (w.config.map Subtype.val))
    Memo.sound_empty).1
  simp only [hookCommand, World.buildOptional, hrun, answered_handleActionAsking, if_true]
  rfl

end Runex
