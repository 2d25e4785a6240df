import Mathlib.Data.List.Basic

/-!
# Loops that can return

A `for` loop over a list whose body goes on with the next entry or returns from the function, with
the state it leaves. A loop that looks for the first entry that yields something computes
`List.findSome?`.

## Main definitions

- `Loop.Flow`, `Loop.forEach` — the loop
- `Loop.Flow.Answers`, `Loop.Finds` — what one step of a search does
- `Loop.Outcome` — what a search ends with

## Main results

- `Loop.forEach_finds`, `Loop.Outcome.orElse` — what a search does, and two in a row
-/

namespace Loop

variable {σ ε ι ρ : Type*}

/-- What the body of a loop does with its state: `continue`, or `return`. -/
inductive Flow (σ : Type*) where
  | next (s : σ)
  | done (s : σ)

def forEach (body : ε → σ → Flow σ) : List ε → σ → σ
  | [], s => s
  | entry :: entries, s =>
    match body entry s with
    | .next s => forEach body entries s
    | .done s => s

/-- The state after a step. -/
def Flow.state : Flow σ → σ
  | .next s => s
  | .done s => s

/-- A step finds `result`: it returns and leaves it, or keeps the invariant and goes on. -/
def Flow.Answers (inv : σ → Prop) (leaves : ρ → σ → Prop) (result : Option ρ) (flow : Flow σ) :
    Prop :=
  match result with
  | none => ∃ s, flow = .next s ∧ inv s
  | some r => ∃ s, flow = .done s ∧ leaves r s

/-- What a search ends with: the invariant when it found nothing. -/
def Outcome (inv : σ → Prop) (leaves : ρ → σ → Prop) : Option ρ → σ → Prop
  | none, s => inv s
  | some r, s => leaves r s

/-- At this entry the body finds `result`. -/
def Finds (inv : σ → Prop) (leaves : ρ → σ → Prop) (body : ε → σ → Flow σ) (entry : ε)
    (result : Option ρ) : Prop :=
  ∀ s, inv s → (body entry s).Answers inv leaves result

variable {inv : σ → Prop} {leaves : ρ → σ → Prop} {body : ε → σ → Flow σ}

/-- A loop keeps what each step keeps. -/
theorem forEach_keeps {P : σ → Prop} (hbody : ∀ entry s, P s → P (body entry s).state)
    (entries : List ε) {s : σ} (h : P s) : P (forEach body entries s) := by
  induction entries generalizing s with
  | nil => exact h
  | cons entry entries ih =>
    have hstep := hbody entry s h
    rw [forEach]
    split
    · next s' hflow =>
      rw [hflow] at hstep
      exact ih hstep
    · next s' hflow =>
      rw [hflow] at hstep
      exact hstep

@[simp] theorem answers_next {s : σ} :
    (Flow.next s).Answers inv leaves (none : Option ρ) ↔ inv s := by
  simp [Flow.Answers]

@[simp] theorem answers_done {s : σ} {r : ρ} :
    (Flow.done s).Answers inv leaves (some r) ↔ leaves r s := by
  simp [Flow.Answers]

/-- A search over entries that stand for items finds what the first item yields. -/
theorem forEach_finds {items : List ι} {entries : List ε} {yields : ι → Option ρ}
    (h : List.Forall₂ (fun item entry => Finds inv leaves body entry (yields item)) items entries)
    {s : σ} (hs : inv s) : Outcome inv leaves (items.findSome? yields) (forEach body entries s) := by
  induction h generalizing s with
  | nil => exact hs
  | @cons item entry items entries hentry _ ih =>
    have hstep := hentry s hs
    rw [List.findSome?_cons, forEach]
    cases hyield : yields item with
    | none =>
      rw [hyield] at hstep
      obtain ⟨s', hbody, hs'⟩ := hstep
      rw [hbody]
      exact ih hs'
    | some r =>
      rw [hyield] at hstep
      obtain ⟨s', hbody, hs'⟩ := hstep
      rw [hbody]
      exact hs'

/-- Two searches, the second where the first finds nothing. -/
theorem Outcome.orElse {first second : Option ρ} {s : σ} (h : Outcome inv leaves first s)
    {hit : σ → Bool} (hinv : ∀ s, inv s → hit s = false) (hleaves : ∀ r s, leaves r s → hit s = true)
    {next : σ → σ} (hnext : ∀ s, inv s → Outcome inv leaves second (next s)) :
    Outcome inv leaves (first.or second) (if !hit s then next s else s) := by
  cases first with
  | none =>
    rw [hinv s h, Bool.not_false, if_pos rfl, Option.none_or]
    exact hnext s h
  | some r =>
    rw [hleaves r s h, Bool.not_true, if_neg Bool.false_ne_true, Option.some_or]
    exact h

end Loop
