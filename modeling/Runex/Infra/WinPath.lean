import Runex.Lib.Search
import Runex.Lib.Text
import Mathlib.Data.Finset.Basic

/-!
# The search path on Windows

Commands are looked for along the `PATH` of the process and the two `Path` values of the registry,
the user's and the system's, merged into one string. A Windows string is a sequence of UTF-16 code
units.

## Main definitions

- `capRegistryValue` — what is used of a registry value
- `expandEnvVars` — the `%VAR%` references of an entry
- `pushDedup` — one more entry, unless it is there up to ASCII case
- `effectiveSearchPath` — the merged path, and how much each source added to it
- `searchPathFor` — the merged path of a build for Windows
-/

namespace Runex

open Search Text

/-- A Windows string in UTF-16 code units. It need not be well formed. -/
abbrev Wide := List UInt16

/-- The code units of one character. -/
def encodeUtf16 (c : Char) : Wide :=
  if c.toNat < 0x10000 then [c.toNat.toUInt16]
  else
    [(0xD800 + (c.toNat - 0x10000) / 0x400).toUInt16,
      (0xDC00 + (c.toNat - 0x10000) % 0x400).toUInt16]

/-- `OsString::from`, in the units `encode_wide` shows. -/
def encodeWide (s : Text) : Wide := s.flatMap encodeUtf16

/-- `;` in a Windows string. -/
def wideSemicolon : UInt16 := 0x3B

def maxRegistryPathBytes : ℕ := 64 * 1024

def maxPathEntries : ℕ := 256

/-- Truncate an oversized value at its last `;` that fits. `none` is the panic of a slice that ends
    inside a character. -/
def capRegistryValue (v : Text) : Option Text :=
  if v = [] then some v
  else if byteLen v ≤ maxRegistryPathBytes then some v
  else do
    let head ← sliceTo? v maxRegistryPathBytes
    match splitLast ';' head with
    | some (before, _) => sliceTo? v (byteLen before)
    | none => some []

/-- `value` is what the registry holds, if the key can be opened and the value is a string. -/
def readRegistryPath (value : Option Text) : Option (Option Text) :=
  match value with
  | none => some none
  | some v => (capRegistryValue v).map some

/-- `u8::to_ascii_lowercase`. -/
def lowercaseByte (c : UInt8) : UInt8 := if 0x41 ≤ c ∧ c ≤ 0x5A then c + 0x20 else c

def foldUnit (c : UInt16) : UInt16 := if c < 128 then (lowercaseByte c.toUInt8).toUInt16 else c

/-- The key under which an entry is looked up. -/
def foldKey (seg : Wide) : Wide := seg.map foldUnit

/-- The string that is put together, and the keys of the entries in it. -/
structure Merge where
  dst : Wide
  seen : Finset Wide

def Merge.empty : Merge := ⟨[], ∅⟩

/-- Append an entry unless its key is there. `true` if it was appended. -/
def pushDedup (seg : Wide) (merge : Merge) : Merge × Bool :=
  if seg = [] then (merge, false)
  else if foldKey seg ∉ merge.seen then
    let dst := if merge.dst ≠ [] then merge.dst ++ [wideSemicolon] else merge.dst
    (⟨dst ++ seg, insert (foldKey seg) merge.seen⟩, true)
  else (merge, false)

/-- One entry of a source; the count is of the entries that were appended. -/
def absorbStep (state : Merge × ℕ) (seg : Wide) : Merge × ℕ :=
  let (merge, inserted) := pushDedup seg state.1
  (merge, if inserted then state.2 + 1 else state.2)

/-- Append the entries of one source. -/
def absorb (segs : List Wide) (merge : Merge) : Merge × ℕ := segs.foldl absorbStep (merge, 0)

/-- One unit of the loop of `split_path_env`: what was split off, and where the next piece starts. -/
def splitPathStep (wide : Wide) (split : List Wide × ℕ) (unit : UInt16 × ℕ) : List Wide × ℕ :=
  let (out, start) := split
  let (w, i) := unit
  if w = wideSemicolon then (out ++ [(wide.drop start).take (i - start)], i + 1) else (out, start)

def splitPathEnv (wide : Wide) : List Wide :=
  let (out, start) := wide.zipIdx.foldl (splitPathStep wide) ([], 0)
  out ++ [wide.drop start]

theorem length_after_percent {s before after : Text}
    (h : splitOnce ['%'] s = some (before, after)) : after.length < s.length := by
  have hlen := congrArg List.length (eq_append_of_splitOnce h)
  simp only [List.length_append, List.length_singleton] at hlen
  omega

/-- What stands for `%name%`: its value, or itself if there is none. -/
def expandedVar (var : Text → Option Text) (name : Text) : Text :=
  match var name with
  | some val => val
  | none => '%' :: (name ++ ['%'])

/-- The loop of `expand_env_vars`; `out` is the text so far. -/
def expandEnvVarsLoop (var : Text → Option Text) (out rest : Text) : Text :=
  match _hstart : splitOnce ['%'] rest with
  | none => out ++ rest
  | some (before, after) =>
    match _hend : splitOnce ['%'] after with
    | some (name, rest) => expandEnvVarsLoop var (out ++ before ++ expandedVar var name) rest
    | none => out ++ before ++ ['%'] ++ after
termination_by rest.length
decreasing_by
  have hstart := length_after_percent _hstart
  have hend := length_after_percent _hend
  omega

/-- Replace the `%VAR%` references by the values of the variables that are set. -/
def expandEnvVars (var : Text → Option Text) (s : Text) : Wide :=
  encodeWide (expandEnvVarsLoop var [] s)

def absorbRegistryPathStr (var : Text → Option Text) (raw : Text) (merge : Merge) : Merge × ℕ :=
  absorb (((raw.splitOn ';').take maxPathEntries).map (expandEnvVars var)) merge

def absorbRegistryPath (var : Text → Option Text) (value : Option Text) (merge : Merge) :
    Option (Merge × ℕ) := do
  match ← readRegistryPath value with
  | some raw => return absorbRegistryPathStr var raw merge
  | none => return (merge, 0)

/-- What the path is merged from: `PATH` of the process, the `Path` values of the registry, and the
    variables of the environment. -/
structure PathSources where
  path : Option Wide
  user : Option Text
  system : Option Text
  var : Text → Option Text

structure EffectiveSearchPath where
  combined : Wide
  fromProcess : ℕ
  fromUserRegistry : ℕ
  fromSystemRegistry : ℕ
  deriving DecidableEq

/-- `PATH` of the process comes first. -/
def absorbProcessPath (path : Option Wide) : Merge × ℕ :=
  match path with
  | some path => absorb (splitPathEnv path) Merge.empty
  | none => (Merge.empty, 0)

/-- The entries of the process, then the user's, then the system's. -/
def effectiveSearchPath (sources : PathSources) : Option EffectiveSearchPath := do
  let (merge, fromProcess) := absorbProcessPath sources.path
  let (merge, fromUserRegistry) ← absorbRegistryPath sources.var sources.user merge
  let (merge, fromSystemRegistry) ← absorbRegistryPath sources.var sources.system merge
  return { combined := merge.dst, fromProcess, fromUserRegistry, fromSystemRegistry }

/-- What a build for Windows puts together before it looks for commands. Another build has no
    such path. -/
def searchPathFor (windows : Bool) (sources : PathSources) : Option (Option EffectiveSearchPath) :=
  if windows then (effectiveSearchPath sources).map some else some none

end Runex
