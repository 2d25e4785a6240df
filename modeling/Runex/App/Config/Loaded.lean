import Runex.Infra.AtomicWrite.Alone
import Runex.Lib.FileStore.Links

/-!
# What the configuration file loads as

A load whose calls do not fail is a function of the files.

## Main definitions

- `readsSucceed` — no call fails that only looks
- `loadedFrom` — what the file loads as

## Main results

- `sat_loadConfig_reads` — a load among calls that do not fail
- `loadedFrom_congr` — what it depends on
-/

namespace Runex

open FileStore Process
open FileSystem (Path decode)

/-- No call fails that only looks. -/
def readsSucceed (x : Choice) (c : calls.Call) (_ : Store Unit) : Prop :=
  c.looks = true → x.failure = none

/-- The text of the configuration file. -/
def sourceOf (tree : Tree) (path : Path) : Except ConfigError Text :=
  match tree.canonicalize path with
  | .error e => .error (Stepwise.io e)
  | .ok resolved =>
    match tree.node resolved with
    | .regular bytes =>
      if bytes.length > maxConfigFileBytes then .error .fileTooLarge
      else (decode bytes.toByteArray).elim (.error (Stepwise.io .notUtf8)) .ok
    | _ => .error (.io "config path must be a regular file".toList)

/-- What the configuration file loads as. -/
def loadedFrom (engine : RegexLite) (reader : ConfigReader) (path : Path) (tree : Tree) :
    Except ConfigError Config :=
  (sourceOf tree path).bind fun content => parseConfig engine reader.fromStr content

variable {engine : RegexLite} {reader : ConfigReader} {path : Path} {s : Store Unit}
  {tree tree' : Tree}

theorem act_reads {x : Choice} {c : calls.Call} (h : readsSucceed x c s) (hlooks : c.looks = true) :
    (solo readsSucceed).act x c s = perform () x.amount c s :=
  act_of_not_failing () s (h hlooks) c

/-- The text that is read, where no read fails. -/
theorem sat_readConfigSource_reads :
    (solo readsSucceed).Sat (fun result s' => s' = s ∧ result = sourceOf s.toTree path)
      (Stepwise.readConfigSource path).run s := by
  refine Contract.Sat.bindE (Contract.Sat.orThrow fun s₁ hs₁ x₁ hx₁ => ⟨trivial, ?_⟩)
  obtain rfl : s₁ = s := hs₁
  rw [act_reads hx₁ rfl, perform, sourceOf]
  cases hresolved : s₁.canonicalize path with
  | error e => exact ⟨rfl, rfl⟩
  | ok resolved =>
    obtain ⟨-, hpresent, hlink⟩ := Tree.follow_eq_ok hresolved
    have hopen : perform () x₁.amount (.openRead resolved) s₁ = (.ok (s₁.entry resolved), s₁) := by
      rw [perform]
      cases hentry : s₁.entry resolved with
      | absent => exact absurd hentry hpresent
      | symlink dest => exact absurd hentry (hlink dest)
      | _ => rfl
    refine Contract.Sat.bindE (Contract.Sat.orThrow fun s₂ hs₂ x₂ hx₂ => ⟨trivial, ?_⟩)
    obtain rfl : s₂ = s₁ := hs₂
    rw [act_reads hx₂ rfl, show perform () x₂.amount (.openRead resolved) s₂ = _ from hopen]
    refine Contract.Sat.bindE (Contract.Sat.orThrow fun s₃ hs₃ x₃ hx₃ => ⟨trivial, ?_⟩)
    obtain rfl : s₃ = s₂ := hs₃
    rw [act_reads hx₃ rfl, perform]
    dsimp only
    rw [FileStore.Tree.node]
    cases hentry : s₃.entry resolved with
    | absent => exact absurd hentry hpresent
    | symlink dest => exact absurd hentry (hlink dest)
    | directory => exact ⟨rfl, rfl⟩
    | special => exact ⟨rfl, rfl⟩
    | file inode =>
      show (solo readsSucceed).Sat _ (ite _ _ _ : FileProgram ConfigError Text).run s₃
      dsimp only
      rw [if_neg fun h : FileType.file ≠ FileType.file => h rfl]
      by_cases hlarge : (s₃.content inode).length > maxConfigFileBytes
      · rw [if_pos hlarge, if_pos hlarge]
        exact ⟨rfl, rfl⟩
      · rw [if_neg hlarge, if_neg hlarge]
        refine Contract.Sat.orThrow fun s₄ hs₄ x₄ hx₄ => ⟨trivial, ?_⟩
        obtain rfl : s₄ = s₃ := hs₄
        rw [act_reads hx₄ rfl, perform]
        cases decode (s₄.content inode).toByteArray <;> exact ⟨rfl, rfl⟩

/-- What is loaded, where no read fails. -/
theorem sat_loadConfig_reads (engine : RegexLite) (reader : ConfigReader) (path : Path)
    (s : Store Unit) :
    (solo readsSucceed).Sat
      (fun result s' => s' = s ∧ result = loadedFrom engine reader path s.toTree)
      (Stepwise.loadConfig engine reader path).run s := by
  refine Contract.Sat.bindE (sat_readConfigSource_reads.mono ?_)
  rintro result s' ⟨rfl, rfl⟩
  rw [loadedFrom]
  cases sourceOf s'.toTree path with
  | error e => exact ⟨rfl, rfl⟩
  | ok content => exact ⟨rfl, rfl⟩

/-- What is loaded depends on the names on the way, and on one file. -/
theorem loadedFrom_congr
    (hentry : ∀ name ∈ tree'.way 41 path, tree'.entry name = tree.entry name)
    (hcontent : ∀ inode < tree.next, tree'.content inode = tree.content inode) :
    loadedFrom engine reader path tree' = loadedFrom engine reader path tree := by
  have hresolved : tree.canonicalize path = tree'.canonicalize path :=
    Tree.canonicalize_congr fun name hmem => (hentry name hmem).symm
  have hsource : sourceOf tree' path = sourceOf tree path := by
    rw [sourceOf, sourceOf, hresolved]
    cases hfound : tree'.canonicalize path with
    | error e => rfl
    | ok resolved =>
      have hsame := hentry resolved (Tree.follow_eq_ok hfound).1
      have hnode : tree'.node resolved = tree.node resolved :=
        Tree.node_congr hsame fun inode hinode => hcontent inode (tree.entry_lt _ _ hinode)
      dsimp only
      rw [hnode]
  rw [loadedFrom, loadedFrom, hsource]

end Runex
