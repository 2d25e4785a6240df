import Runex.Lib.FileStore

/-!
# What a path leads to

Links are followed name by name. What a path leads to depends on the names on its way only.

## Main definitions

- `FileStore.Tree.way` — the names on the way

## Main results

- `FileStore.Tree.follow_eq_ok` — a path never leads to a link, nor to nothing
- `FileStore.Tree.canonicalize_congr` — other names do not matter
-/

namespace FileStore.Tree

open FileSystem (Path)

/-- The names on the way from a path, through so many links. -/
def way (tree : Tree) : ℕ → Path → List Path
  | 0, _ => []
  | links + 1, path =>
    path :: match tree.entry path with
      | .symlink dest => tree.way links dest
      | _ => []

variable {tree tree' : Tree} {links : ℕ} {path resolved : Path}

theorem way_succ_of_symlink {dest : Path} (h : tree.entry path = .symlink dest) :
    tree.way (links + 1) path = path :: tree.way links dest := by
  rw [way, h]

theorem way_succ_of_file {inode : ℕ} (h : tree.entry path = .file inode) :
    tree.way (links + 1) path = [path] := by
  rw [way, h]

theorem way_succ_of_absent (h : tree.entry path = .absent) : tree.way (links + 1) path = [path] := by
  rw [way, h]

/-- What a path leads to is on the way, and no link. -/
theorem follow_eq_ok (h : tree.follow links path = .ok resolved) :
    resolved ∈ tree.way links path ∧ tree.entry resolved ≠ .absent ∧
      ∀ dest, tree.entry resolved ≠ .symlink dest := by
  induction links generalizing path with
  | zero => cases h
  | succ links ih =>
    rw [follow] at h
    cases hentry : tree.entry path with
    | absent =>
      rw [hentry] at h
      cases h
    | symlink dest =>
      rw [hentry] at h
      obtain ⟨hmem, hrest⟩ := ih h
      rw [way_succ_of_symlink hentry]
      exact ⟨List.mem_cons_of_mem _ hmem, hrest⟩
    | file | directory | special =>
      rw [hentry] at h
      obtain rfl := Except.ok.inj h
      exact ⟨List.mem_cons_self, by simp [hentry], by simp [hentry]⟩

theorem follow_congr (h : ∀ name ∈ tree.way links path, tree'.entry name = tree.entry name) :
    tree'.follow links path = tree.follow links path := by
  induction links generalizing path with
  | zero => rfl
  | succ links ih =>
    have hentry : tree'.entry path = tree.entry path := h path List.mem_cons_self
    rw [follow, follow, hentry]
    cases hdest : tree.entry path with
    | symlink dest =>
      refine ih fun name hmem => h name ?_
      rw [way_succ_of_symlink hdest]
      exact List.mem_cons_of_mem _ hmem
    | _ => rfl

theorem canonicalize_congr (h : ∀ name ∈ tree.way 41 path, tree'.entry name = tree.entry name) :
    tree'.canonicalize path = tree.canonicalize path := follow_congr h

end FileStore.Tree
