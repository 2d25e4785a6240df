import Mathlib.Data.Nat.Notation

/-!
# Computations that ask questions

A computation that gets a function to ask as a parameter, as the tree of its questions. The function
may have a memory. If its answers do not depend on the memory, the result is that of a pure
function.

## Main definitions

- `Asking` — a computation that asks
- `Asking.answered`, `Asking.asked` — the result and the questions, for fixed answers
- `Asking.run` — the result and the memory, for answers from a memory
- `Asking.missed` — the questions that a memory does not answer
- `Asking.all`, `Asking.findSome?` — searches of a list that ask up to where they end

## Main results

- `Asking.answered_run` — a run with a memory that answers as a pure function
- `Asking.answered_congr` — only the answers to the questions that are asked matter
- `Asking.nodup_missed` — a memory that keeps its answers misses a question once
- `Asking.asked_all`, `Asking.asked_findSome?` — what the searches ask
-/

inductive Asking (κ β α : Type) where
  | done (a : α)
  | ask (k : κ) (next : β → Asking κ β α)

namespace Asking

variable {κ β α γ σ : Type}

def bind : Asking κ β α → (α → Asking κ β γ) → Asking κ β γ
  | .done a, f => f a
  | .ask k next, f => .ask k fun b => (next b).bind f

instance : Monad (Asking κ β) where
  pure := .done
  bind := bind

def question (k : κ) : Asking κ β β := .ask k .done

/-- The result when every question has its answer. -/
def answered (f : κ → β) : Asking κ β α → α
  | .done a => a
  | .ask k next => (next (f k)).answered f

/-- The questions, in the order they are asked. -/
def asked (f : κ → β) : Asking κ β α → List κ
  | .done _ => []
  | .ask k next => k :: (next (f k)).asked f

/-- The answers come from a memory, which changes as it is asked. -/
def run (query : κ → σ → β × σ) : Asking κ β α → σ → α × σ
  | .done a, s => (a, s)
  | .ask k next, s => (next (query k s).1).run query (query k s).2

-- ════════════════════════════════════════════════════════════════════════
-- One computation after the other
-- ════════════════════════════════════════════════════════════════════════

section Rules

variable (f : κ → β) (prog : Asking κ β α) (next : α → Asking κ β γ)

@[simp] theorem answered_pure (a : α) : (pure a : Asking κ β α).answered f = a := rfl

@[simp] theorem asked_pure (a : α) : (pure a : Asking κ β α).asked f = [] := rfl

@[simp] theorem answered_question (k : κ) : (question k).answered f = f k := rfl

@[simp] theorem asked_question (k : κ) : (question k).asked f = [k] := rfl

@[simp] theorem answered_bind :
    (prog >>= next).answered f = (next (prog.answered f)).answered f := by
  induction prog with
  | done a => rfl
  | ask k rest ih => exact ih (f k)

@[simp] theorem asked_bind :
    (prog >>= next).asked f = prog.asked f ++ (next (prog.answered f)).asked f := by
  induction prog with
  | done a => rfl
  | ask k rest ih => exact congrArg (k :: ·) (ih (f k))

theorem bind_assoc (last : γ → Asking κ β σ) :
    prog >>= next >>= last = prog >>= fun a => next a >>= last := by
  induction prog with
  | done a => rfl
  | ask k rest ih =>
    show ask k _ = ask k _
    congr 1
    funext b
    exact ih b

theorem run_bind (query : κ → σ → β × σ) (s : σ) :
    (prog >>= next).run query s =
      (next (prog.run query s).1).run query (prog.run query s).2 := by
  induction prog generalizing s with
  | done a => rfl
  | ask k rest ih => exact ih (query k s).1 (query k s).2

end Rules

-- ════════════════════════════════════════════════════════════════════════
-- Answers from a memory
-- ════════════════════════════════════════════════════════════════════════

section Memory

variable {f g : κ → β} {query : κ → σ → β × σ} {inv : σ → Prop}

/-- The memory never shows in an answer, and a question keeps what makes it so. -/
def Transparent (f : κ → β) (query : κ → σ → β × σ) (inv : σ → Prop) : Prop :=
  ∀ k s, inv s → (query k s).1 = f k ∧ inv (query k s).2

theorem answered_run (h : Transparent f query inv) (prog : Asking κ β α) {s : σ} (hs : inv s) :
    (prog.run query s).1 = prog.answered f ∧ inv (prog.run query s).2 := by
  induction prog generalizing s with
  | done a => exact ⟨rfl, hs⟩
  | ask k next ih =>
    obtain ⟨hanswer, hinv⟩ := h k s hs
    rw [run, hanswer]
    exact ih (f k) hinv

/-- Answers to other questions do not matter. -/
theorem answered_congr (prog : Asking κ β α) (h : ∀ k ∈ prog.asked f, f k = g k) :
    prog.answered f = prog.answered g ∧ prog.asked f = prog.asked g := by
  induction prog with
  | done a => exact ⟨rfl, rfl⟩
  | ask k next ih =>
    rw [asked, List.forall_mem_cons] at h
    obtain ⟨hanswered, hasked⟩ := ih (f k) h.2
    rw [answered, answered, asked, asked, ← h.1]
    exact ⟨hanswered, congrArg (k :: ·) hasked⟩

end Memory

-- ════════════════════════════════════════════════════════════════════════
-- Questions that miss the memory
-- ════════════════════════════════════════════════════════════════════════

section Misses

variable (query : κ → σ → β × σ) (miss : κ → σ → Bool)

/-- Of questions one after the other, those that the memory does not answer. -/
def missed : List κ → σ → List κ
  | [], _ => []
  | k :: ks, s => (if miss k s then [k] else []) ++ missed ks (query k s).2

variable {query miss}

theorem mem_missed {k : κ} {ks : List κ} {s : σ} (h : k ∈ missed query miss ks s) :
    k ∈ ks ∧ ∃ s, miss k s = true := by
  induction ks generalizing s with
  | nil => cases h
  | cons first ks ih =>
    rcases List.mem_append.mp h with hfirst | hrest
    · split at hfirst
      · next hmiss =>
        obtain rfl := List.mem_singleton.mp hfirst
        exact ⟨List.mem_cons_self, s, hmiss⟩
      · cases hfirst
    · obtain ⟨hmem, hmiss⟩ := ih hrest
      exact ⟨List.mem_cons_of_mem first hmem, hmiss⟩

/-- What the memory answers now it answers later. -/
theorem not_mem_missed (hkeep : ∀ k k' s, miss k s = false → miss k (query k' s).2 = false)
    {k : κ} {s : σ} (hk : miss k s = false) (ks : List κ) : k ∉ missed query miss ks s := by
  induction ks generalizing s with
  | nil => exact List.not_mem_nil
  | cons first ks ih =>
    rw [missed, List.mem_append, not_or]
    refine ⟨fun hmem => ?_, ih (hkeep k first s hk)⟩
    split at hmem
    · next hmiss =>
      obtain rfl := List.mem_singleton.mp hmem
      rw [hk] at hmiss
      cases hmiss
    · cases hmem

/-- A memory that keeps its answers misses a question once. -/
theorem nodup_missed (hkeep : ∀ k k' s, miss k s = false → miss k (query k' s).2 = false)
    (hlearn : ∀ k s, miss k (query k s).2 = false) (ks : List κ) (s : σ) :
    (missed query miss ks s).Nodup := by
  induction ks generalizing s with
  | nil => exact List.nodup_nil
  | cons first ks ih =>
    rw [missed]
    split
    · exact List.nodup_cons.mpr ⟨not_mem_missed hkeep (hlearn first s) ks, ih _⟩
    · exact ih _

/-- Another memory gives the same run if it answers the missed questions in the same way, and what
    is not missed does not tell the two apart. -/
theorem run_congr_missed {query' : κ → σ → β × σ} {f : κ → β} {inv : σ → Prop}
    (h : Transparent f query inv) (hhit : ∀ k s, miss k s = false → query' k s = query k s)
    (prog : Asking κ β α) {s : σ} (hs : inv s)
    (hmiss : ∀ k ∈ missed query miss (prog.asked f) s, ∀ s, query' k s = query k s) :
    prog.run query' s = prog.run query s := by
  induction prog generalizing s with
  | done a => rfl
  | ask k next ih =>
    rw [asked, missed] at hmiss
    have hk : query' k s = query k s := by
      cases hmissk : miss k s with
      | false => exact hhit k s hmissk
      | true => exact hmiss k (List.mem_append_left _ (by simp [hmissk])) s
    obtain ⟨hanswer, hinv⟩ := h k s hs
    rw [run, run, hk, hanswer]
    exact ih (f k) hinv fun k' hk' => hmiss k' (List.mem_append_right _ hk')

end Misses

-- ════════════════════════════════════════════════════════════════════════
-- Questions about a list
-- ════════════════════════════════════════════════════════════════════════

section Lists

variable {δ : Type}

/-- The elements through the first one that `p` holds of, that one included. -/
def through (p : δ → Bool) : List δ → List δ
  | [] => []
  | a :: l => a :: (if p a then [] else through p l)

theorem through_prefix (p : δ → Bool) (l : List δ) : through p l <+: l := by
  induction l with
  | nil => exact List.nil_prefix
  | cons a l ih =>
    rw [through]
    split
    · exact List.cons_prefix_cons.mpr ⟨rfl, List.nil_prefix⟩
    · exact List.cons_prefix_cons.mpr ⟨rfl, ih⟩

theorem through_map {ε : Type} (p : δ → Bool) (f : ε → δ) (l : List ε) :
    through p (l.map f) = (through (fun a => p (f a)) l).map f := by
  induction l with
  | nil => rfl
  | cons a l ih =>
    rw [List.map_cons, through, through, List.map_cons, ih]
    split <;> rfl

/-- Whether the answer is yes for each of a list. It asks up to the first no. -/
def all : List κ → Asking κ Bool Bool
  | [] => pure true
  | k :: ks => do
    if ← question k then all ks else pure false

/-- The first result over a list. It asks for nothing after it. -/
def findSome? (f : δ → Asking κ β (Option γ)) : List δ → Asking κ β (Option γ)
  | [] => pure none
  | a :: l => do
    match ← f a with
    | some c => pure (some c)
    | none => findSome? f l

@[simp] theorem answered_all (p : κ → Bool) (ks : List κ) : (all ks).answered p = ks.all p := by
  induction ks with
  | nil => rfl
  | cons k ks ih =>
    rw [all, answered_bind, answered_question, List.all_cons]
    cases p k with
    | true => exact ih
    | false => rfl

@[simp] theorem asked_all (p : κ → Bool) (ks : List κ) :
    (all ks).asked p = through (fun k => !p k) ks := by
  induction ks with
  | nil => rfl
  | cons k ks ih =>
    rw [all, asked_bind, answered_question, asked_question, through]
    cases p k with
    | true => exact congrArg (k :: ·) ih
    | false => rfl

variable (g : κ → β) (f : δ → Asking κ β (Option γ)) (l : List δ)

/-- Searching list after list is searching them as one. -/
theorem findSome?_flatMap {ε : Type} (lists : ε → List δ) (l : List ε) :
    findSome? f (l.flatMap lists) = findSome? (fun a => findSome? f (lists a)) l := by
  induction l with
  | nil => rfl
  | cons a l ih =>
    rw [List.flatMap_cons, findSome?, ← ih]
    induction lists a with
    | nil => rfl
    | cons b bs ihbs =>
      rw [List.cons_append, findSome?, findSome?, ihbs, bind_assoc]
      congr 1
      funext found
      cases found <;> rfl

@[simp] theorem answered_findSome? :
    (findSome? f l).answered g = l.findSome? fun a => (f a).answered g := by
  induction l with
  | nil => rfl
  | cons a l ih =>
    rw [findSome?, answered_bind, List.findSome?_cons]
    cases (f a).answered g with
    | some c => rfl
    | none => exact ih

@[simp] theorem asked_findSome? :
    (findSome? f l).asked g =
      (through (fun a => ((f a).answered g).isSome) l).flatMap fun a => (f a).asked g := by
  induction l with
  | nil => rfl
  | cons a l ih =>
    rw [findSome?, asked_bind, through, List.flatMap_cons]
    cases (f a).answered g with
    | some c => rfl
    | none => exact congrArg ((f a).asked g ++ ·) ih

end Lists

end Asking
