import Runex.App.Config.Loaded
import Runex.Infra.IntegrationCheck.RcFile

/-!
# What the checks read

The checks read a regular file of limited size and follow no link to it. Where no call fails, what
they find is a function of the files.

## Main definitions

- `readCappedRegularFile` — the steps of a read
- `Disk.ofTree` — what the checks find among these files

## Main results

- `sat_readCappedRegularFile` — a read finds what is there, or nothing
- `absolutePath?_displayPath` — a path is found again in its text
-/

namespace Runex

open FileStore Process
open FileSystem (Path decode)

def maxProbeFileBytes : ℕ := 10 * 1024 * 1024

/-- Read a file. Whatever goes wrong, nothing has been read. -/
def readCappedRegularFile {ε : Type} (path : Path) : FileProgram ε (Option Text) := do
  match ← attempt (.symlinkMetadata path) with
  | .error _ => pure none
  | .ok ⟨.symlink, _⟩ => pure none
  | .ok _ =>
    match ← attempt (.openRead path) with
    | .error _ => pure none
    | .ok file =>
      match ← attempt (.openMetadata file) with
      | .error _ => pure none
      | .ok info =>
        if info.fileType ≠ .file then pure none
        else if info.len > maxProbeFileBytes then pure none
        else
          match ← attempt (.readToString file) with
          | .error _ => pure none
          | .ok content => pure (some content)

/-- The text of a regular file within the limit. -/
def cappedText : Node → Option Text
  | .regular bytes => if bytes.length > maxProbeFileBytes then none else decode bytes.toByteArray
  | _ => none

/-- A name that leads to nowhere else. -/
def isPlainName (name : Text) : Bool := name ≠ [] ∧ name ≠ ['.'] ∧ name ≠ ['.', '.']

/-- The path of a text such as `/home/user`. -/
def absolutePath? : Text → Option Path
  | '/' :: s =>
    let names := s.splitOn '/'
    if names.all isPlainName then some names else none
  | _ => none

/-- What the checks find among these files. `elsewhere` tells whether a path exists that is relative
    or has dots in it. -/
def Disk.ofTree (tree : Tree) (elsewhere : Text → Bool) : Disk where
  exists? s := match absolutePath? s with
    | some path => (tree.canonicalize path).isOk
    | none => elsewhere s
  readCappedRegularFile path := cappedText (tree.node path)

-- ════════════════════════════════════════════════════════════════════════
-- A read
-- ════════════════════════════════════════════════════════════════════════

variable {ε : Type} {path : Path} {tree : Tree} {elsewhere : Text → Bool}

/-- Where no call fails, a read finds what is there. -/
theorem sat_readCappedRegularFile (s : Store Unit) :
    (solo readsSucceed).Sat (fun result s' => s' = s ∧ result = .ok (cappedText (s.node path)))
      (readCappedRegularFile path : FileProgram ε (Option Text)).run s := by
  refine Contract.Sat.bindE (Contract.Sat.attempt fun s₁ hs₁ x₁ hx₁ => ⟨trivial, ?_⟩)
  obtain rfl : s₁ = s := hs₁
  rw [act_reads hx₁ rfl, perform, FileStore.Tree.node]
  cases hentry : s₁.entry path with
  | absent => exact ⟨rfl, rfl⟩
  | symlink dest => exact ⟨rfl, rfl⟩
  | directory | special =>
    refine Contract.Sat.bindE (Contract.Sat.attempt fun s₂ hs₂ x₂ hx₂ => ⟨trivial, ?_⟩)
    obtain rfl : s₂ = s₁ := hs₂
    rw [act_reads hx₂ rfl, perform, hentry]
    refine Contract.Sat.bindE (Contract.Sat.attempt fun s₃ hs₃ x₃ hx₃ => ⟨trivial, ?_⟩)
    obtain rfl : s₃ = s₂ := hs₃
    rw [act_reads hx₃ rfl, perform]
    exact ⟨rfl, rfl⟩
  | file inode =>
    refine Contract.Sat.bindE (Contract.Sat.attempt fun s₂ hs₂ x₂ hx₂ => ⟨trivial, ?_⟩)
    obtain rfl : s₂ = s₁ := hs₂
    rw [act_reads hx₂ rfl, perform, hentry]
    refine Contract.Sat.bindE (Contract.Sat.attempt fun s₃ hs₃ x₃ hx₃ => ⟨trivial, ?_⟩)
    obtain rfl : s₃ = s₂ := hs₃
    rw [act_reads hx₃ rfl, perform, Tree.metadata, cappedText]
    dsimp only
    rw [if_neg (not_not_intro rfl)]
    by_cases hlarge : (s₃.content inode).length > maxProbeFileBytes
    · rw [if_pos hlarge, if_pos hlarge]
      exact ⟨rfl, rfl⟩
    · rw [if_neg hlarge, if_neg hlarge]
      refine Contract.Sat.bindE (Contract.Sat.attempt fun s₄ hs₄ x₄ hx₄ => ⟨trivial, ?_⟩)
      obtain rfl : s₄ = s₃ := hs₄
      rw [act_reads hx₄ rfl, perform]
      cases decode (s₄.content inode).toByteArray <;> exact ⟨rfl, rfl⟩

-- ════════════════════════════════════════════════════════════════════════
-- Paths and their texts
-- ════════════════════════════════════════════════════════════════════════

/-- A path of names that can be told apart in its text. -/
def WellNamed (path : Path) : Prop := path ≠ [] ∧ ∀ name ∈ path, isPlainName name ∧ '/' ∉ name

instance (path : Path) : Decidable (WellNamed path) := instDecidableAnd

theorem flatMap_cons_eq {c : Char} {names : List Text} (hne : names ≠ []) :
    names.flatMap (c :: ·) = c :: List.intercalate [c] names := by
  induction names with
  | nil => exact absurd rfl hne
  | cons name names ih =>
    cases names with
    | nil => simp
    | cons next names =>
      rw [List.flatMap_cons, ih (List.cons_ne_nil _ _), List.intercalate_cons_cons]
      simp

/-- A path is found again in its text. -/
theorem absolutePath?_displayPath (h : WellNamed path) :
    absolutePath? (displayPath path) = some path := by
  obtain ⟨hne, hnames⟩ := h
  have htext : displayPath path = '/' :: List.intercalate ['/'] path := by
    rw [displayPath, if_neg hne]
    exact flatMap_cons_eq hne
  have hsplit : (List.intercalate ['/'] path).splitOn '/' = path :=
    List.splitOn_intercalate '/' (fun name hmem => (hnames name hmem).2) hne
  rw [htext, absolutePath?, hsplit, if_pos (List.all_eq_true.mpr fun name hmem => (hnames name hmem).1)]

end Runex
