import Mathlib.Data.Nat.Notation

/-!
# Walks and visitors

A walk hands its findings to a visitor one by one and runs it in the visitor's monad. Which walk
it is, is a list: a walk equals `forM` over its findings, in every lawful monad. A visitor with a
mutable state that can stop the walk is one particular monad.

## Main definitions

- `Visit` — the monad of a visitor with a state and a break
- `Visit.collect`, `Visit.first` — the visitors that keep every finding, and the first one
- `Visit.upTo` — the visitor that keeps what it sees and breaks after so many findings

## Main results

- `Visit.collect_forM`, `Visit.first_forM`, `Visit.upTo_forM` — what they keep of a list of findings
- `List.forM_flatMap` — a walk of walks
-/

theorem List.forM_flatMap {m : Type → Type} [Monad m] [LawfulMonad m] {α β : Type} (l : List α)
    (g : α → List β) (f : β → m PUnit) :
    forM (l.flatMap g) f = forM l fun a => forM (g a) f := by
  induction l with
  | nil => rfl
  | cons a l ih => simp [ih]

/-- A walk of walks, each given by its findings. -/
theorem List.forM_congr {m : Type → Type} [Monad m] [LawfulMonad m] {α β : Type} (l : List α)
    {walk : α → m PUnit} {g : α → List β} {f : β → m PUnit} (h : ∀ a, walk a = forM (g a) f) :
    forM l walk = forM (l.flatMap g) f := by
  rw [List.forM_flatMap, funext h]

/-- The monad of a visitor with state `σ`: an exception is a break. -/
abbrev Visit (σ : Type) := ExceptT Unit (StateM σ)

namespace Visit

variable {α β σ : Type}

/-- The state a visit ends with, whether or not it broke off. -/
def finish (visit : Visit σ Unit) (start : σ) : σ := (visit.run.run start).2

/-- Keep every finding, and continue. -/
def collect (issue : α) : Visit (List α) Unit := modify fun issues => issues ++ [issue]

/-- Keep one finding, and break. -/
def first (value : β) : Visit (Option β) Unit := do
  set (some value)
  throw ()

theorem finish_collect_forM (l start : List α) :
    finish (forM l collect) start = start ++ l := by
  induction l generalizing start with
  | nil => exact (List.append_nil start).symm
  | cons a l ih =>
    have hstep : finish (forM (a :: l) collect) start = finish (forM l collect) (start ++ [a]) := rfl
    rw [hstep, ih, List.append_assoc, List.singleton_append]

/-- Collecting keeps the whole list. -/
theorem collect_forM (l : List α) : finish (forM l collect) [] = l := by
  simpa using finish_collect_forM l []

/-- Breaking at the first finding keeps the head of the list. -/
theorem first_forM (l : List α) (f : α → β) :
    finish (forM l fun a => first (f a)) none = l.head?.map f := by
  cases l <;> rfl

/-- Keep every finding, and break after `k` of them. -/
def upTo (k : ℕ) (issue : α) : Visit (List α) Unit := do
  modify fun issues => issues ++ [issue]
  if k ≤ (← get).length then throw ()

/-- A walk goes on where one finding has left the visitor, unless that was a break. -/
theorem finish_cons_ok {f : α → Visit σ Unit} {a : α} {start next : σ}
    (h : (f a).run.run start = (.ok (), next)) (l : List α) :
    finish (forM (a :: l) f) start = finish (forM l f) next := by
  rw [List.forM_cons, finish, finish, ExceptT.run_bind, StateT.run_bind, h]
  rfl

theorem finish_cons_error {f : α → Visit σ Unit} {a : α} {start next : σ}
    (h : (f a).run.run start = (.error (), next)) (l : List α) :
    finish (forM (a :: l) f) start = next := by
  rw [List.forM_cons, finish, ExceptT.run_bind, StateT.run_bind, h]
  rfl

theorem run_upTo (k : ℕ) (a : α) (start : List α) :
    (upTo k a).run.run start =
      (if k ≤ start.length + 1 then .error () else .ok (), start ++ [a]) := by
  have hlen : (start ++ [a]).length = start.length + 1 := List.length_append
  change (if k ≤ (start ++ [a]).length then throw () else pure () : Visit (List α) Unit).run.run
    (start ++ [a]) = _
  rw [hlen]
  split <;> rfl

theorem finish_upTo_forM {k : ℕ} (l : List α) {start : List α} (h : start.length < k) :
    finish (forM l (upTo k)) start = start ++ l.take (k - start.length) := by
  induction l generalizing start with
  | nil => exact (List.append_nil start).symm.trans (by rw [List.take_nil])
  | cons a l ih =>
    have hlen : (start ++ [a]).length = start.length + 1 := List.length_append
    by_cases hlast : k ≤ start.length + 1
    · have hone : k - start.length = 1 := by omega
      rw [finish_cons_error (by rw [run_upTo, if_pos hlast]) l, hone]
      rfl
    · have hrest : k - start.length = k - (start ++ [a]).length + 1 := by omega
      rw [finish_cons_ok (by rw [run_upTo, if_neg hlast]) l, ih (by omega), hrest,
        List.take_succ_cons, List.append_assoc, List.singleton_append]

/-- Breaking after some number of findings, the visitor has seen that many from the front. -/
theorem upTo_forM (k : ℕ) (l : List α) : finish (forM l (upTo (k + 1))) [] = l.take (k + 1) := by
  simpa using finish_upTo_forM l (show ([] : List α).length < k + 1 by simp)

end Visit
