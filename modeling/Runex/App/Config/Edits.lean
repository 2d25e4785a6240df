import Runex.App.Config.Files
import Runex.Infra.AtomicWrite.Alone

/-!
# `runex add` and `runex remove`, call by call

Both edits of the configuration file on files that are shared, where any call may fail.

## Main definitions

- `Stepwise.appendAbbrToFile`, `Stepwise.removeAbbrFromFile` — the edits
- `Stepwise.Spared` — what an edit that does not return has left

## Main results

- `Stepwise.sat_appendAbbrToFile`, `Stepwise.sat_removeAbbrFromFile` — an edit that is refused, and
  one that finds nothing to remove, changes no file
-/

namespace Runex.Stepwise

open FileStore Process
open FileSystem (Path)
open Toml (Editor)

/-- Open the file that the path leads to, or create one where it leads to nothing. -/
def openConfigForAppendSafely (path : Path) : FileProgram ConfigError ℕ := do
  match ← attempt (.canonicalize path) with
  | .ok resolved => orThrow io (.openAppend resolved)
  | .error _ => orThrow io (.openAppend path)

/-- Append a rule that the caller has validated. -/
def appendAbbrBlock (path : Path) (key expand : Text) (whenCommandExists : Option (List Text)) :
    FileProgram ConfigError Unit := do
  let block := utf8 (abbrBlock key expand whenCommandExists)
  let file ← openConfigForAppendSafely path
  writeAll io file block.length block

/-- Remove all rules with `key`, and count them. -/
def removeAbbrBlock (editor : Editor) (path : Path) (key : Text) : FileProgram ConfigError ℕ := do
  let content ← readConfigSource path
  match editor.parse content with
  | none => throw (.io "failed to parse config as editable TOML".toList)
  | some doc =>
    match editor.arrayOfTables doc "abbr".toList with
    | none => pure 0
    | some arr =>
      let kept := removeLoop editor key arr 0
      let removed := arr.length - kept.length
      if removed > 0 then do
        atomicallyWriteConfig path (editor.print (editor.setTables doc "abbr".toList kept))
        pure removed
      else pure removed

section Edits

variable (engine : RegexLite) (reader : ConfigReader)

/-- Append a rule to a file, after validating it and the number of rules there will be. -/
def appendAbbrToFile (path : Path) (key expand : Text) (whenCommandExists : Option (List Text)) :
    FileProgram ConfigError Unit := do
  ExceptT.mk (pure (checkNewRule key expand whenCommandExists))
  let existing ← loadConfig engine reader path
  if existing.abbr.length + 1 > maxAbbrRules then
    throw (ValidationIssue.config .tooManyRules).toConfigError
  else appendAbbrBlock path key expand whenCommandExists

/-- Remove the rules with a key from a file that loads. -/
def removeAbbrFromFile (editor : Editor) (path : Path) (key : Text) : FileProgram ConfigError ℕ := do
  let _ ← loadConfig engine reader path
  removeAbbrBlock editor path key

end Edits

-- ════════════════════════════════════════════════════════════════════════
-- Edits that do not return
-- ════════════════════════════════════════════════════════════════════════

variable {α β : Type} {allowed : Choice → calls.Call → Store Unit → Prop} {s : Store Unit}
  {path target : Path} {editor : Editor} {contents key expand : Text} {cmds : Option (List Text)}

/-- An edit that ends with an error has left the files as they were, unless the error is that of a
    call. -/
def Spared (s : Store Unit) : Except ConfigError α → Store Unit → Prop
  | .ok _, _ => True
  | .error e, s' => (∃ message, e = .io message) ∨ s' = s

theorem sat_orThrow_io {c : Call} {f : Answer c → FileProgram ConfigError β} {t : Store Unit}
    (h : ∀ a s, (solo allowed).Sat (Spared t) (f a).run s) :
    (solo allowed).Sat (Spared t) (orThrow io c >>= f).run s := by
  refine Contract.Sat.bindE (Contract.Sat.orThrow fun s' _ x _ => ⟨trivial, ?_⟩)
  cases ((solo allowed).act x c s').1 with
  | error e => exact Or.inl ⟨e.message, rfl⟩
  | ok a => exact h a _

theorem sat_call_io {c : Call} {t : Store Unit} :
    (solo allowed).Sat (Spared t) (orThrow io c).run s := by
  refine Contract.Sat.orThrow fun s' _ x _ => ⟨trivial, ?_⟩
  cases ((solo allowed).act x c s').1 with
  | error e => exact Or.inl ⟨e.message, rfl⟩
  | ok a => trivial

theorem sat_attempt_io {c : Call} {f : Except OsError (Answer c) → FileProgram ConfigError β}
    {t : Store Unit} (h : ∀ response s, (solo allowed).Sat (Spared t) (f response).run s) :
    (solo allowed).Sat (Spared t) (attempt c >>= f).run s :=
  Contract.Sat.bindE (Contract.Sat.attempt fun _ _ _ _ => ⟨trivial, h _ _⟩)

theorem sat_writeAll_io {t : Store Unit} {inode fuel : ℕ} {bytes : Bytes} :
    (solo allowed).Sat (Spared t) (writeAll io inode fuel bytes).run s := by
  induction fuel generalizing bytes s with
  | zero => exact trivial
  | succ fuel ih =>
    rw [writeAll]
    split
    · exact trivial
    · refine sat_orThrow_io fun taken s => ?_
      split
      · exact Or.inl ⟨_, rfl⟩
      · exact ih

theorem sat_replaceThroughTemp_io {t : Store Unit} {tmp : Path} :
    (solo allowed).Sat (Spared t) (replaceThroughTemp (fun _ => io) tmp target contents).run s := by
  refine sat_attempt_io fun _ s => sat_orThrow_io fun file s => Contract.Sat.bindE ?_
  refine (sat_writeAll_io (t := t)).mono fun result s hresult => ?_
  cases result with
  | error e => exact hresult
  | ok _ =>
    refine sat_orThrow_io fun _ s => sat_attempt_io fun response s => ?_
    cases response with
    | ok _ => exact trivial
    | error e => exact sat_attempt_io fun _ s => Or.inl ⟨_, rfl⟩

theorem sat_atomicallyWriteConfig_io {t : Store Unit} :
    (solo allowed).Sat (Spared t) (atomicallyWriteConfig path contents).run s := by
  refine sat_orThrow_io fun resolved s => ?_
  split
  · exact Or.inl ⟨_, rfl⟩
  split
  · exact Or.inl ⟨_, rfl⟩
  · exact sat_replaceThroughTemp_io

theorem sat_appendAbbrBlock_io {t : Store Unit} :
    (solo allowed).Sat (Spared t) (appendAbbrBlock path key expand cmds).run s := by
  refine Contract.Sat.bindE (Contract.Sat.mono (Q := Spared t) ?_ ?_)
  · refine sat_attempt_io fun response s => ?_
    cases response with
    | ok resolved => exact sat_call_io
    | error e => exact sat_call_io
  · rintro (e | file) s h
    · exact h
    · exact sat_writeAll_io

/-- Reading the file changes nothing. -/
theorem sat_readConfigSource_state (allowed : Choice → calls.Call → Store Unit → Prop) :
    (solo allowed).Sat (fun _ s' => s' = s) (readConfigSource path).run s := by
  have hquiet : (quiet ()).Sat (fun _ _ => True) (readConfigSource path).run s := by
    refine quiet_orThrow rfl fun resolved s => quiet_orThrow rfl fun file s =>
      quiet_orThrow rfl fun info s => ?_
    split
    · trivial
    split
    · trivial
    · exact Contract.Sat.orThrow fun s' _ x _ => ⟨act_looks () x s' rfl, trivial⟩
  have hkeep := hquiet.keep (K := fun s' => s' = s) rfl (fun _ _ h hrely => hrely.trans h)
    (fun _ _ h hstep => hstep.trans h)
  exact ((hkeep.mono fun _ _ h => h.2).weaken fun _ _ _ => trivial).restrict fun _ _ _ _ => trivial

variable (engine : RegexLite) (reader : ConfigReader)

/-- An appended rule, or a refusal. -/
theorem sat_appendAbbrToFile (allowed : Choice → calls.Call → Store Unit → Prop) (path : Path)
    (key expand : Text) (cmds : Option (List Text)) (s : Store Unit) :
    (solo allowed).Sat (Spared s) (appendAbbrToFile engine reader path key expand cmds).run s := by
  rw [appendAbbrToFile]
  cases hcheck : checkNewRule key expand cmds with
  | error e => exact Or.inr rfl
  | ok _ =>
    refine Contract.Sat.bindE ?_
    refine Contract.Sat.bindE ((sat_loadConfig engine reader path allowed).mono ?_)
    rintro (e | existing) s' rfl
    · exact Or.inr rfl
    · dsimp only
      split
      · exact Or.inr rfl
      · exact sat_appendAbbrBlock_io

/-- Removed rules, or none, or a refusal. -/
theorem sat_removeAbbrFromFile (allowed : Choice → calls.Call → Store Unit → Prop)
    (editor : Editor) (path : Path) (key : Text) (s : Store Unit) :
    (solo allowed).Sat (fun result s' => Spared s result s' ∧ (result = .ok 0 → s' = s))
      (removeAbbrFromFile engine reader editor path key).run s := by
  rw [removeAbbrFromFile]
  refine Contract.Sat.bindE ((sat_loadConfig engine reader path allowed).mono ?_)
  rintro (e | existing) s' rfl
  · exact ⟨Or.inr rfl, fun _ => rfl⟩
  refine Contract.Sat.bindE ((sat_readConfigSource_state allowed).mono ?_)
  rintro (e | content) s' rfl
  · exact ⟨Or.inr rfl, fun _ => rfl⟩
  dsimp only
  cases editor.parse content with
  | none => exact ⟨Or.inr rfl, fun _ => rfl⟩
  | some doc =>
    dsimp only
    cases editor.arrayOfTables doc "abbr".toList with
    | none => exact ⟨trivial, fun _ => rfl⟩
    | some arr =>
      dsimp only
      split
      · next hremoved =>
        refine Contract.Sat.bindE ((sat_atomicallyWriteConfig_io (t := s')).mono ?_)
        rintro (e | _) s₁ hwritten
        · exact ⟨hwritten, fun h => nomatch h⟩
        · refine ⟨trivial, fun hzero => ?_⟩
          exact absurd (Except.ok.inj hzero) hremoved.ne'
      · exact ⟨trivial, fun _ => rfl⟩

end Runex.Stepwise
