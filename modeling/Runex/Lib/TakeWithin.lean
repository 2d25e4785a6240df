import Mathlib.Algebra.Ring.Nat
import Mathlib.Data.List.Infix
import Mathlib.Data.Nat.Notation

/-!
# The longest prefix within a budget

Elements of a list have sizes, and a budget pays for a prefix: the longest one whose sizes add up
to at most the budget. An element that the rest of the budget does not pay for is left out, and so
is everything after it.

## Main definitions

- `TakeWithin.total` — the sizes of a list, added up
- `TakeWithin.takeWithin` — the longest prefix within a budget

## Main results

- `TakeWithin.takeWithin_append` — a budget that ends inside an element pays for what is before it
- `TakeWithin.takeWithin_isPrefix` — a larger budget pays for a longer prefix
- `TakeWithin.split_takeWithin` — where the budget ends
-/

namespace TakeWithin

variable {α : Type} (size : α → ℕ)

/-- The sizes of a list, added up. -/
def total (s : List α) : ℕ := (s.map size).sum

/-- The longest prefix within a budget. -/
def takeWithin : ℕ → List α → List α
  | _, [] => []
  | budget, a :: s => if size a ≤ budget then a :: takeWithin (budget - size a) s else []

@[simp] theorem total_nil : total size [] = 0 := rfl

@[simp] theorem total_cons (a : α) (s : List α) : total size (a :: s) = size a + total size s := by
  simp [total]

@[simp] theorem total_append (s t : List α) :
    total size (s ++ t) = total size s + total size t := by
  simp [total]

variable {size}

/-- A budget that ends inside an element pays for exactly what is before it. -/
theorem takeWithin_append (left right : List α) (a : α) {k : ℕ} (hk : k < size a) :
    takeWithin size (total size left + k) (left ++ a :: right) = left := by
  induction left with
  | nil => simp [takeWithin, hk]
  | cons b left ih =>
    have hrest : size b + total size left + k - size b = total size left + k := by omega
    simp only [List.cons_append, takeWithin, total_cons]
    rw [if_pos (by omega), hrest, ih]

/-- A budget for the whole list pays for the whole list. -/
theorem takeWithin_of_le {s : List α} {budget : ℕ} (h : total size s ≤ budget) :
    takeWithin size budget s = s := by
  induction s generalizing budget with
  | nil => rfl
  | cons a s ih =>
    rw [total_cons] at h
    rw [takeWithin, if_pos (by omega), ih (by omega)]

/-- A larger budget pays for a longer prefix. -/
theorem takeWithin_isPrefix (size : α → ℕ) {small large : ℕ} (h : small ≤ large) (s : List α) :
    takeWithin size small s <+: takeWithin size large s := by
  induction s generalizing small large with
  | nil => exact List.prefix_refl []
  | cons a s ih =>
    simp only [takeWithin]
    by_cases hsmall : size a ≤ small
    · rw [if_pos hsmall, if_pos (by omega)]
      exact (List.prefix_cons_inj a).mpr (ih (by omega))
    · rw [if_neg hsmall]
      exact List.nil_prefix

/-- Where the budget ends: at the end of the list, or before an element it does not pay for. -/
theorem split_takeWithin (size : α → ℕ) (budget : ℕ) (s : List α) :
    takeWithin size budget s = s ∧ total size s ≤ budget ∨
      ∃ a right, s = takeWithin size budget s ++ a :: right ∧
        total size (takeWithin size budget s) ≤ budget ∧
        budget < total size (takeWithin size budget s) + size a := by
  induction s generalizing budget with
  | nil => exact Or.inl ⟨rfl, Nat.zero_le _⟩
  | cons b s ih =>
    by_cases hb : size b ≤ budget
    · rw [takeWithin, if_pos hb]
      obtain ⟨hall, hle⟩ | ⟨a, right, hs, hle, hlt⟩ := ih (budget - size b)
      · left
        rw [hall, total_cons]
        exact ⟨rfl, by omega⟩
      · right
        refine ⟨a, right, ?_, ?_, ?_⟩
        · rw [List.cons_append, ← hs]
        · rw [total_cons]
          omega
        · rw [total_cons]
          omega
    · right
      rw [takeWithin, if_neg hb]
      exact ⟨b, s, rfl, Nat.zero_le _, by simpa using hb⟩

/-- The prefix is one. -/
theorem takeWithin_prefix (size : α → ℕ) (budget : ℕ) (s : List α) : takeWithin size budget s <+: s := by
  obtain ⟨hall, -⟩ | ⟨a, right, hs, -⟩ := split_takeWithin size budget s
  · rw [hall]
  · exact ⟨a :: right, hs.symm⟩

end TakeWithin
