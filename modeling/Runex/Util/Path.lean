import Runex.Lib.FileSystem
import Runex.Lib.Memo

/-!
# Whether a command exists

Two constructors build a closure that answers whether a command is installed. Each consults a memo
of this run, then the hint of the precache, then the file system; a command with a path separator
does not exist.

## Main definitions

- `Lookups` — what the file system and the search path answer
- `makeCommandExists`, `makeCommandExistsOwned` — one query to the closures
- `commandExists` — the answer without memory

## Main results

- `answers_makeCommandExists`, `answers_makeCommandExistsOwned` — a query keeps the memo sound
- `command_exists_stateless` — every run of queries is answered without memory
-/

namespace Runex

open FileSystem (Path)

/-- Commands with whether they exist, as the precache and the memo keep them. -/
abbrev CommandMap := Memo.Store Text Bool

/-- What the file system and the search path answer, the same throughout a run. -/
structure Lookups where
  /-- Built for Windows. -/
  windows : Bool
  /-- `Path::is_file`. -/
  isFile : Path → Bool
  /-- `which::which`, or `which_in` with the effective search path on Windows. -/
  which : Text → Bool

/-- `dir.join(name)`. -/
def joinName (dir : Path) (name : Text) : Path := dir ++ [name]

section Closures

variable (env : Lookups)

/-- One query to the closure of `make_command_exists`: its answer, and the memo after it. -/
def makeCommandExists (pathPrepend : Option Path) (hint : Option CommandMap) (cmd : Text)
    (cache : CommandMap) : Bool × CommandMap :=
  if '/' ∈ cmd ∨ '\\' ∈ cmd ∨ ':' ∈ cmd then (false, cache)
  else
    match cache.lookup cmd with
    | some cached => (cached, cache)
    | none =>
      -- Only a positive hint is trusted: the command may have been installed since.
      if (hint.bind fun h => h.lookup cmd) = some true then (true, cache.insert cmd true)
      else
        let found :=
          match pathPrepend with
          | some dir =>
            if env.isFile (joinName dir cmd) then true
            else if env.windows then
              if env.isFile (joinName dir (cmd ++ ".exe".toList)) then true else env.which cmd
            else env.which cmd
          | none => env.which cmd
        (found, cache.insert cmd found)

/-- One query to the closure of `make_command_exists_owned`. -/
def makeCommandExistsOwned (pathPrepend : Option Path) (hint : Option CommandMap) (cmd : Text)
    (cache : CommandMap) : Bool × CommandMap :=
  if '/' ∈ cmd ∨ '\\' ∈ cmd ∨ ':' ∈ cmd then (false, cache)
  else
    match cache.lookup cmd with
    | some cached => (cached, cache)
    | none =>
      if (hint.bind fun h => h.lookup cmd) = some true then (true, cache.insert cmd true)
      else
        let found :=
          match pathPrepend with
          | some dir =>
            let direct :=
              if env.windows then
                env.isFile (joinName dir cmd) || env.isFile (joinName dir (cmd ++ ".exe".toList))
              else env.isFile (joinName dir cmd)
            direct || env.which cmd
          | none => env.which cmd
        (found, cache.insert cmd found)

/-- A file of this name is in the directory, on Windows also with `.exe`. -/
def inDirectory (dir : Path) (cmd : Text) : Bool :=
  env.isFile (joinName dir cmd) ||
    env.windows && env.isFile (joinName dir (cmd ++ ".exe".toList))

/-- The answer without memory: not for a name with a separator; otherwise the positive hint, the
    directory in front, or the search path. -/
def commandExists (pathPrepend : Option Path) (hint : Option CommandMap) (cmd : Text) : Bool :=
  !(cmd.contains '/' || cmd.contains '\\' || cmd.contains ':') &&
    ((hint.bind fun h => h.lookup cmd) == some true ||
      pathPrepend.any (inDirectory env · cmd) || env.which cmd)

variable {env} {pathPrepend : Option Path} {hint : Option CommandMap} {cmd : Text}

theorem commandExists_of_separator (h : '/' ∈ cmd ∨ '\\' ∈ cmd ∨ ':' ∈ cmd) :
    commandExists env pathPrepend hint cmd = false := by
  have hcontains : (cmd.contains '/' || cmd.contains '\\' || cmd.contains ':') = true := by
    simpa [List.contains_iff_mem, or_assoc] using h
  rw [commandExists, hcontains]
  rfl

theorem commandExists_of_name (h : ¬ ('/' ∈ cmd ∨ '\\' ∈ cmd ∨ ':' ∈ cmd)) :
    commandExists env pathPrepend hint cmd =
      ((hint.bind fun h => h.lookup cmd) == some true ||
        pathPrepend.any (inDirectory env · cmd) || env.which cmd) := by
  have hcontains : (cmd.contains '/' || cmd.contains '\\' || cmd.contains ':') = false := by
    simpa [List.contains_iff_mem, and_assoc] using h
  rw [commandExists, hcontains]
  rfl

/-- The shape the two closures share: separators, memo, hint, and then some live answer. -/
theorem answers_of_live {query : Text → CommandMap → Bool × CommandMap} {live : Text → Bool}
    (hquery : ∀ cmd cache, query cmd cache =
      if '/' ∈ cmd ∨ '\\' ∈ cmd ∨ ':' ∈ cmd then (false, cache)
      else
        match cache.lookup cmd with
        | some cached => (cached, cache)
        | none =>
          if (hint.bind fun h => h.lookup cmd) = some true then (true, cache.insert cmd true)
          else (live cmd, cache.insert cmd (live cmd)))
    (hlive : ∀ cmd, live cmd = (pathPrepend.any (inDirectory env · cmd) || env.which cmd)) :
    Memo.Answers (commandExists env pathPrepend hint) query := by
  intro cmd cache hsound
  rw [hquery]
  split
  · next hseparator => exact ⟨(commandExists_of_separator hseparator).symm, hsound⟩
  · next hname =>
    split
    · next cached hcached => exact ⟨hsound cmd cached hcached, hsound⟩
    · split
      · next hhint =>
        have hanswer : true = commandExists env pathPrepend hint cmd := by
          rw [commandExists_of_name hname, hhint]
          simp
        exact ⟨hanswer, hsound.insert hanswer⟩
      · next hhint =>
        have hanswer : live cmd = commandExists env pathPrepend hint cmd := by
          rw [commandExists_of_name hname, hlive, beq_eq_false_iff_ne.mpr hhint, Bool.false_or]
        exact ⟨hanswer, hsound.insert hanswer⟩

theorem answers_makeCommandExists :
    Memo.Answers (commandExists env pathPrepend hint) (makeCommandExists env pathPrepend hint) := by
  refine answers_of_live (fun cmd cache => rfl) fun cmd => ?_
  cases pathPrepend with
  | none => rfl
  | some dir =>
    simp only [Option.any_some, inDirectory]
    cases env.isFile (joinName dir cmd) <;> cases env.windows <;> simp

theorem answers_makeCommandExistsOwned :
    Memo.Answers (commandExists env pathPrepend hint)
      (makeCommandExistsOwned env pathPrepend hint) := by
  refine answers_of_live (fun cmd cache => rfl) fun cmd => ?_
  cases pathPrepend with
  | none => rfl
  | some dir =>
    simp only [Option.any_some, inDirectory]
    cases env.windows <;> simp

end Closures

/-- **The closures answer without memory.** For every directory in front, every hint and every
    sequence of queries, each answer of either closure is the stateless one, whatever was asked
    before. -/
theorem command_exists_stateless (env : Lookups) (pathPrepend : Option Path)
    (hint : Option CommandMap) (queries : List Text) :
    (Memo.run (makeCommandExists env pathPrepend hint) queries ∅).1 =
      queries.map (commandExists env pathPrepend hint) ∧
    (Memo.run (makeCommandExistsOwned env pathPrepend hint) queries ∅).1 =
      queries.map (commandExists env pathPrepend hint) :=
  ⟨(Memo.run_eq answers_makeCommandExists queries Memo.sound_empty).1,
    (Memo.run_eq answers_makeCommandExistsOwned queries Memo.sound_empty).1⟩

end Runex
