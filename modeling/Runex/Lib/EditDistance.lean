import Mathlib.Data.List.Basic
import Mathlib.Data.Nat.Notation

/-!
# Edit distance

The least number of symbols to delete, insert or replace to make one list of another. The
definition takes the lists apart at their heads; a table that is filled prefix by prefix needs the
same recursion at the other end. Both are minima over the ways to edit, and these can be read
backwards.

## Main definitions

- `EditDistance.distance` — the recursive definition
- `EditDistance.Edits` — a way to edit, with what it costs

## Main results

- `EditDistance.distance_reverse` — the distance of the reversed lists
- `EditDistance.distance_concat` — the recursion at the last symbols
-/

namespace EditDistance

variable {α : Type*} [DecidableEq α]

/-- What it costs to put one symbol in the place of another. -/
def replaceCost (x y : α) : ℕ := if x = y then 0 else 1

/-- Insertions, deletions and replacements cost one each. -/
def distance : List α → List α → ℕ
  | [], ys => ys.length
  | xs, [] => xs.length
  | x :: xs, y :: ys =>
    min (min (distance xs (y :: ys) + 1) (distance (x :: xs) ys + 1))
      (distance xs ys + replaceCost x y)
termination_by xs ys => xs.length + ys.length

/-- A way to make the second list of the first, and what it costs. -/
inductive Edits : List α → List α → ℕ → Prop
  | nil : Edits [] [] 0
  | delete {xs ys : List α} {n : ℕ} (x : α) (h : Edits xs ys n) : Edits (x :: xs) ys (n + 1)
  | insert {xs ys : List α} {n : ℕ} (y : α) (h : Edits xs ys n) : Edits xs (y :: ys) (n + 1)
  | replace {xs ys : List α} {n : ℕ} (x y : α) (h : Edits xs ys n) :
      Edits (x :: xs) (y :: ys) (n + replaceCost x y)

variable {xs ys : List α} {n : ℕ}

theorem distance_nil_left (ys : List α) : distance [] ys = ys.length := by
  rw [distance]

theorem distance_nil_right (xs : List α) : distance xs [] = xs.length := by
  cases xs with
  | nil => rw [distance]
  | cons x xs =>
    rw [distance]
    simp

theorem distance_cons_cons (x y : α) (xs ys : List α) : distance (x :: xs) (y :: ys) =
    min (min (distance xs (y :: ys) + 1) (distance (x :: xs) ys + 1))
      (distance xs ys + replaceCost x y) := by
  rw [distance]

theorem distance_cons_left_le (x : α) (xs ys : List α) :
    distance (x :: xs) ys ≤ distance xs ys + 1 := by
  cases ys with
  | nil => simp [distance_nil_right]
  | cons y ys =>
    rw [distance_cons_cons]
    omega

theorem distance_cons_right_le (y : α) (xs ys : List α) :
    distance xs (y :: ys) ≤ distance xs ys + 1 := by
  cases xs with
  | nil => simp [distance_nil_left]
  | cons x xs =>
    rw [distance_cons_cons]
    omega

/-- No way to edit is cheaper. -/
theorem Edits.distance_le (h : Edits xs ys n) : distance xs ys ≤ n := by
  induction h with
  | nil =>
    rw [distance_nil_left]
    exact Nat.le_refl _
  | delete x _ ih =>
    apply Nat.le_trans (distance_cons_left_le ..)
    omega
  | insert y _ ih =>
    apply Nat.le_trans (distance_cons_right_le ..)
    omega
  | replace x y _ ih =>
    rw [distance_cons_cons]
    omega

theorem edits_nil_left (ys : List α) : Edits [] ys ys.length := by
  induction ys with
  | nil => exact .nil
  | cons y ys ih => exact .insert y ih

theorem edits_nil_right (xs : List α) : Edits xs [] xs.length := by
  induction xs with
  | nil => exact .nil
  | cons x xs ih => exact .delete x ih

/-- One way costs no more. -/
theorem edits_distance (xs ys : List α) : Edits xs ys (distance xs ys) := by
  induction xs, ys using distance.induct with
  | case1 ys =>
    rw [distance_nil_left]
    exact edits_nil_left ys
  | case2 xs =>
    rw [distance_nil_right]
    exact edits_nil_right xs
  | case3 x xs y ys hdelete hinsert hreplace =>
    have hone : ∀ a b c : ℕ, min (min a b) c = a ∨ min (min a b) c = b ∨ min (min a b) c = c := by
      omega
    rw [distance_cons_cons]
    obtain h | h | h := hone (distance xs (y :: ys) + 1) (distance (x :: xs) ys + 1)
      (distance xs ys + replaceCost x y)
    · rw [h]
      exact .delete x hdelete
    · rw [h]
      exact .insert y hinsert
    · rw [h]
      exact .replace x y hreplace

/-- Edits of two parts, one after the other. -/
theorem Edits.append {xs' ys' : List α} {m : ℕ} (h : Edits xs ys n) (h' : Edits xs' ys' m) :
    Edits (xs ++ xs') (ys ++ ys') (n + m) := by
  induction h with
  | nil =>
    rw [Nat.zero_add]
    exact h'
  | delete x _ ih =>
    rw [Nat.add_right_comm]
    exact .delete x ih
  | insert y _ ih =>
    rw [Nat.add_right_comm]
    exact .insert y ih
  | replace x y _ ih =>
    rw [Nat.add_right_comm]
    exact .replace x y ih

theorem Edits.reverse (h : Edits xs ys n) : Edits xs.reverse ys.reverse n := by
  induction h with
  | nil => exact .nil
  | delete x _ ih =>
    have hlast := ih.append (.delete x .nil)
    simpa using hlast
  | insert y _ ih =>
    have hlast := ih.append (.insert y .nil)
    simpa using hlast
  | replace x y _ ih =>
    have hlast := ih.append (.replace x y .nil)
    simpa using hlast

theorem distance_reverse (xs ys : List α) : distance xs.reverse ys.reverse = distance xs ys := by
  apply Nat.le_antisymm
  · exact (edits_distance xs ys).reverse.distance_le
  · have h := (edits_distance xs.reverse ys.reverse).reverse.distance_le
    rwa [List.reverse_reverse, List.reverse_reverse] at h

/-- The recursion at the last symbols. -/
theorem distance_concat (x y : α) (xs ys : List α) : distance (xs ++ [x]) (ys ++ [y]) =
    min (min (distance xs (ys ++ [y]) + 1) (distance (xs ++ [x]) ys + 1))
      (distance xs ys + replaceCost x y) := by
  rw [← distance_reverse xs (ys ++ [y]), ← distance_reverse (xs ++ [x]) ys,
    ← distance_reverse xs ys, ← distance_reverse (xs ++ [x])]
  simp only [List.reverse_append, List.reverse_singleton, List.singleton_append]
  exact distance_cons_cons x y xs.reverse ys.reverse

end EditDistance
