import Runex.App.Config.Files
import Runex.Infra.AtomicWrite

/-!
# The configuration file, call by call

The read and the rewrite of `Infra.ConfigStore` on the files that several processes share, where a
write takes its bytes in pieces and a name may be a link.

## Main definitions

- `Stepwise.loadConfig` — read and validate
- `Stepwise.atomicallyWriteConfig` — rewrite the file a path leads to

## Main results

- `Stepwise.sat_atomicallyWriteConfig` — a rewrite that returns has replaced that file
-/

namespace Runex.Stepwise

open FileStore Process
open FileSystem (Path)

/-- `ConfigError::Io` -/
def io (e : OsError) : ConfigError := .io e.message

/-- Read the file: a regular file within the cap. -/
def readConfigSource (path : Path) : FileProgram ConfigError Text := do
  let resolved ← orThrow io (.canonicalize path)
  let file ← orThrow io (.openRead resolved)
  let info ← orThrow io (.openMetadata file)
  if info.fileType ≠ .file then throw (.io "config path must be a regular file".toList)
  else if info.len > maxConfigFileBytes then throw .fileTooLarge
  else orThrow io (.readToString file)

/-- Load the configuration from a file. -/
def loadConfig (engine : RegexLite) (reader : ConfigReader) (path : Path) :
    FileProgram ConfigError Config := do
  let content ← readConfigSource path
  ExceptT.mk (pure (parseConfig engine reader.fromStr content))

/-- Replace the file that `path` leads to. -/
def atomicallyWriteConfig (path : Path) (contents : Text) : FileProgram ConfigError Unit := do
  let path ← orThrow io (.canonicalize path)
  match parent path with
  | none => throw (.io "config path has no parent directory".toList)
  | some dir =>
    match fileName path with
    | none => throw (.io "config path has no file name".toList)
    | some name =>
      replaceThroughTemp (fun _ => io) (dir ++ ['.' :: (name ++ ".runex.tmp".toList)]) path contents

variable {ι : Type} {w : Writer ι} {old : Node} {s : Store ι} {path : Path} {contents : Text}

/-- A rewrite keeps the contract of a writer, if the path leads to no other file meanwhile. -/
theorem sat_atomicallyWriteConfig (hw : w.Tolerates) (h : w.Before old s)
    (hbytes : w.bytes = utf8 contents)
    (hpath : ∀ s', w.rely s s' → ∀ resolved, s'.canonicalize path = .ok resolved →
      resolved = w.target) :
    w.contract.Sat (w.Ended old) (atomicallyWriteConfig path contents).run s := by
  refine Contract.Sat.bindE (Contract.Sat.orThrow fun s' hs' x _ => ?_)
  have h' := h.wait hw hs'
  rcases act_canonicalize w.who x s' path with ⟨e, hact⟩ | ⟨resolved, hresolved, hact⟩
  · rw [Writer.contract_act, hact]
    exact ⟨Writes.refl .., h'.alone⟩
  · rw [Writer.contract_act, hact]
    refine ⟨Writes.refl .., ?_⟩
    obtain rfl := hpath s' hs' resolved hresolved
    obtain ⟨name, hname, htmp⟩ := Option.map_eq_some_iff.mp hw.tmp
    change w.contract.Sat _ (match parent w.target with
      | none => throw (.io "config path has no parent directory".toList)
      | some dir =>
        match fileName w.target with
        | none => throw (.io "config path has no file name".toList)
        | some name =>
          replaceThroughTemp (fun _ => io) (dir ++ ['.' :: (name ++ ".runex.tmp".toList)]) w.target
            contents : FileProgram ConfigError Unit).run _
    rw [parent_eq_some hname, show fileName w.target = some name from hname]
    dsimp only
    rw [htmp]
    exact Writer.sat_replaceThroughTemp hw h' hbytes

end Runex.Stepwise
