import Runex.App.Doctor.Report
import Runex.App.Precache
import Runex.Domain.Expand.Questions

/-!
# The rows about commands

The doctor has one row for each command that a rule asks for, and says by them how every token
expands in every shell.

## Main definitions

- `requiredBy` — the key of the first rule that asks for a command

## Main results

- `commandChecksLoop_eq` — the loop has a row for each command, at its first mention
- `mem_collectUniqueCommands_of_asked` — an expansion asks for no other command
- `command_rows` — the rows, and what they decide
-/

namespace Runex

variable {engine : RegexLite} {config : Config} {abbr : Abbr} {token : Text} {shell : Shell}
  {commandExists other : Text → Bool}

-- ════════════════════════════════════════════════════════════════════════
-- One row for each command
-- ════════════════════════════════════════════════════════════════════════

/-- The key with the first mention of a command. -/
def firstKey (entries : List (Text × Text)) (cmd : Text) : Text :=
  ((entries.find? fun entry => entry.1 = cmd).map Prod.snd).getD []

/-- The key of the first rule that asks for a command. -/
def requiredBy (config : Config) (cmd : Text) : Text := firstKey (requiredCommands config) cmd

theorem firstKey_cons_of_ne {cmd c key : Text} (h : c ≠ cmd) (entries : List (Text × Text)) :
    firstKey ((c, key) :: entries) cmd = firstKey entries cmd := by
  rw [firstKey, List.find?_cons_of_neg (by simpa using h), firstKey]

theorem firstKey_cons_self (cmd key : Text) (entries : List (Text × Text)) :
    firstKey ((cmd, key) :: entries) cmd = key := by
  rw [firstKey, List.find?_cons_of_pos (by simp)]
  rfl

/-- A command has its row at its first mention. -/
theorem commandChecksLoop_eq (entries : List (Text × Text)) (seen : List Text) :
    commandChecksLoop commandExists entries seen =
      (uniqueCommands seen (entries.map Prod.fst)).map fun cmd =>
        commandCheck commandExists cmd (firstKey entries cmd) := by
  induction entries generalizing seen with
  | nil => rfl
  | cons entry entries ih =>
    obtain ⟨c, key⟩ := entry
    -- The later rows are about other commands.
    have hlater : ∀ seen, c ∈ seen → (uniqueCommands seen (entries.map Prod.fst)).map
        (fun cmd => commandCheck commandExists cmd (firstKey ((c, key) :: entries) cmd)) =
        commandChecksLoop commandExists entries seen := by
      intro seen hseen
      rw [ih]
      refine List.map_congr_left fun cmd hmem => ?_
      have hne : c ≠ cmd := by
        rintro rfl
        exact (mem_uniqueCommands.mp hmem).2 hseen
      rw [firstKey_cons_of_ne hne]
    rw [commandChecksLoop, List.map_cons, uniqueCommands_cons]
    by_cases hseen : c ∈ seen
    · rw [if_pos (List.contains_iff_mem.mpr hseen), if_pos hseen, hlater seen hseen]
    · rw [if_neg (List.contains_iff_mem.not.mpr hseen), if_neg hseen, List.map_cons,
        firstKey_cons_self, hlater (c :: seen) List.mem_cons_self]

theorem map_fst_requiredCommands (config : Config) :
    (requiredCommands config).map Prod.fst = config.abbr.flatMap fun abbr =>
      abbr.whenCommandExists.toList.flatMap fun cmds => cmds.allValues.flatten := by
  rw [requiredCommands, List.map_flatMap]
  refine List.flatMap_congr fun abbr _ => ?_
  rw [List.map_flatMap]
  refine List.flatMap_congr fun cmds _ => ?_
  rw [List.map_flatMap, List.flatten_eq_flatMap]
  refine List.flatMap_congr fun list _ => ?_
  rw [List.map_map]
  exact List.map_id list

/-- The rows are about the commands that a precache probes, in its order. -/
theorem checkWhenCommandExists_eq (config : Config) (commandExists : Text → Bool) :
    checkWhenCommandExists config commandExists =
      (collectUniqueCommands config).map fun cmd =>
        commandCheck commandExists cmd (requiredBy config cmd) := by
  rw [checkWhenCommandExists, commandChecksLoop_eq, map_fst_requiredCommands]
  rfl

-- ════════════════════════════════════════════════════════════════════════
-- What an expansion depends on
-- ════════════════════════════════════════════════════════════════════════

/-- An expansion asks for commands of the rules only. -/
theorem mem_collectUniqueCommands_of_asked {cmd : Text}
    (h : cmd ∈ expandQuestions engine config token shell commandExists) :
    cmd ∈ collectUniqueCommands config := by
  obtain ⟨rule, hrule, hcmd⟩ := List.mem_flatMap.mp h
  have habbr : rule.2 ∈ config.abbr := List.mem_of_getElem?
    (mem_rulesInPhaseOrder.mp ((Asking.through_prefix _ _).subset hrule))
  have hcondition : cmd ∈ conditionOf engine token shell rule.2 :=
    (Asking.through_prefix _ _).subset hcmd
  rw [conditionOf] at hcondition
  split at hcondition
  · next cmds _ _ hcmds =>
    split at hcondition
    · cases hcondition
    · cases hlist : cmds.forShell shell with
      | none =>
        rw [hlist] at hcondition
        cases hcondition
      | some list =>
        rw [hlist, Option.getD_some] at hcondition
        refine mem_uniqueCommands.mpr ⟨List.mem_flatMap.mpr ⟨rule.2, habbr, ?_⟩, List.not_mem_nil⟩
        exact List.mem_flatMap.mpr ⟨cmds, Option.mem_toList.mpr hcmds,
          List.mem_flatten.mpr ⟨list, PerShell.mem_allValues_of_forShell hlist, hcondition⟩⟩
  · cases hcondition

/-- An expansion depends on the commands of the rules only. -/
theorem expand_congr (h : ∀ cmd ∈ collectUniqueCommands config, other cmd = commandExists cmd) :
    expand engine config token shell other = expand engine config token shell commandExists := by
  rw [← answered_expandAsking, ← answered_expandAsking]
  refine (Asking.answered_congr _ fun cmd hasked => h cmd ?_).1
  rw [asked_expandAsking] at hasked
  exact mem_collectUniqueCommands_of_asked hasked

/-- A trigger key does what its expansion says. -/
theorem hook_congr (h : ∀ token, expand engine config token shell other =
    expand engine config token shell commandExists) (line : Text) (cursor : ℕ) :
    hook engine config shell line cursor other =
      hook engine config shell line cursor commandExists := by
  simp only [hook, h]

/-- The rows: one for each command that a precache probes, with the first rule that asks for it.
    Where they have the same statuses, every trigger key does the same in every shell. -/
theorem command_rows (engine : RegexLite) (config : Config) (commandExists : Text → Bool) :
    checkWhenCommandExists config commandExists = (collectUniqueCommands config).map (fun cmd =>
      commandCheck commandExists cmd (requiredBy config cmd)) ∧
    ∀ other : Text → Bool,
      (checkWhenCommandExists config other).map Check.status =
        (checkWhenCommandExists config commandExists).map Check.status →
      ∀ shell, (∀ token, expand engine config token shell other =
          expand engine config token shell commandExists) ∧
        ∀ line cursor, hook engine config shell line cursor other =
          hook engine config shell line cursor commandExists := by
  refine ⟨checkWhenCommandExists_eq config commandExists, fun other hstatus shell => ?_⟩
  rw [checkWhenCommandExists_eq, checkWhenCommandExists_eq, List.map_map, List.map_map,
    List.map_inj_left] at hstatus
  have hexpand : ∀ token, expand engine config token shell other =
      expand engine config token shell commandExists := by
    refine fun token => expand_congr fun cmd hmem => ?_
    have hsame : (if other cmd then CheckStatus.ok else .warn) =
        if commandExists cmd then CheckStatus.ok else .warn := hstatus cmd hmem
    cases hother : other cmd <;> cases hexists : commandExists cmd <;>
      simp [hother, hexists] at hsame ⊢
  exact ⟨hexpand, hook_congr hexpand⟩

end Runex
