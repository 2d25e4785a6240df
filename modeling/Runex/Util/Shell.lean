import Runex.Domain.Shell

/-!
# Which shell a command is for

`resolve_shell` takes the shell from `--shell`, and from the environment where the flag is absent.
-/

namespace Runex

/-- `Display` of the error for a name that is no shell. -/
def shellParseError (name : Text) : Text :=
  "unknown shell '".toList ++
    (name.filter (fun c => !isUnsafeForDisplay c) ++
      "' (expected: bash, zsh, pwsh, clink, nu)".toList)

/-- What the environment tells of the shell. -/
structure ShellEnv where
  /-- The file name in `$SHELL`, empty if there is none. -/
  shellName : Option Text
  /-- `PSModulePath` is set. -/
  psModulePath : Bool

def detectShell (env : ShellEnv) : Option Shell :=
  match env.shellName.bind Shell.fromStr with
  | some shell => some shell
  | none => if env.psModulePath then some .pwsh else none

def resolveShell (env : ShellEnv) (shellFlag : Option Text) : Except Text (Option Shell) :=
  match shellFlag with
  | some s =>
    match Shell.fromStr s with
    | some shell => .ok (some shell)
    | none => .error (shellParseError s)
  | none => .ok (detectShell env)

end Runex
