import Mathlib.Data.List.Infix
import Mathlib.Logic.Function.Basic

/-!
# Processes that make calls

A program is a tree: it is done, or it makes a call, which may fail, and goes on with the response.
Processes that run side by side take turns on a shared state, one call a turn; a choice for each
turn says how the call goes. A process that gets no more turns has died.

What a program does among others is stated by rely and guarantee: before each of its calls the
others may have changed the state as the rely relation allows, and each call changes it as the
guarantee allows.

## Main definitions

- `Process.Prog` — programs, a monad
- `Process.System`, `Process.System.run` — processes and their turns
- `Process.Prog.exec` — a program that runs alone, to its end
- `Process.Contract`, `Process.Contract.Sat` — what a program relies on, guarantees and ends with

## Main results

- `Process.Contract.Sat.bind`, `Process.Contract.Sat.keep` — sequencing, and an invariant on top
- `Process.System.run_finished` — each of several processes that respect each other ends with its
  own postcondition
- `Process.System.run_invariant` — what every guarantee preserves holds throughout
- `Process.Contract.Sat.exec` — a program that runs alone
-/

namespace Process

-- ════════════════════════════════════════════════════════════════════════
-- Programs
-- ════════════════════════════════════════════════════════════════════════

/-- The calls programs make, with what a call returns when it succeeds and when it fails. -/
structure Interface where
  Call : Type
  Answer : Call → Type
  Failure : Type

/-- What a call returns. -/
abbrev Interface.Response (I : Interface) (c : I.Call) : Type := Except I.Failure (I.Answer c)

inductive Prog (I : Interface) (α : Type) where
  | done (a : α)
  | call (c : I.Call) (next : I.Response c → Prog I α)

variable {I : Interface} {α β ε : Type}

namespace Prog

def bind : Prog I α → (α → Prog I β) → Prog I β
  | done a, f => f a
  | call c next, f => call c fun response => (next response).bind f

instance : Monad (Prog I) where
  pure := done
  bind := bind

@[simp] theorem done_bind (a : α) (f : α → Prog I β) : (done a : Prog I α) >>= f = f a := rfl

@[simp] theorem pure_bind (a : α) (f : α → Prog I β) : (pure a : Prog I α) >>= f = f a := rfl

theorem bind_assoc {γ : Type} (prog : Prog I α) (f : α → Prog I β) (g : β → Prog I γ) :
    prog >>= f >>= g = prog >>= fun a => f a >>= g := by
  induction prog with
  | done a => rfl
  | call c next ih => exact congrArg (call c) (funext ih)

/-- A call, with its response as the result. -/
def attempt (c : I.Call) : ExceptT ε (Prog I) (I.Response c) :=
  ExceptT.mk (call c fun response => done (.ok response))

/-- A call whose failure ends the program: `?`. -/
def orThrow (wrap : I.Failure → ε) (c : I.Call) : ExceptT ε (Prog I) (I.Answer c) :=
  ExceptT.mk (call c fun response => done (response.mapError wrap))

theorem run_lift_bind (prog : Prog I α) (f : α → ExceptT ε (Prog I) β) :
    (ExceptT.lift prog >>= f).run = prog >>= fun a => (f a).run := by
  induction prog with
  | done a => rfl
  | call c next ih => exact congrArg (call c) (funext ih)

end Prog

-- ════════════════════════════════════════════════════════════════════════
-- Runs
-- ════════════════════════════════════════════════════════════════════════

/-- How each process `ι` performs a call on a shared state `σ`, for each way `χ` it can go. -/
abbrev Semantics (I : Interface) (ι χ σ : Type) := ι → χ → (c : I.Call) → σ → I.Response c × σ

variable {ι χ σ : Type}

/-- Run a program alone and to its end, with the choices in turn: its result, the choices left and
    the state. -/
def Prog.exec (act : χ → (c : I.Call) → σ → I.Response c × σ) :
    Prog I α → (ℕ → χ) → σ → α × (ℕ → χ) × σ
  | done a, choices, s => (a, choices, s)
  | call c next, choices, s =>
    (next (act (choices 0) c s).1).exec act (fun n => choices (n + 1)) (act (choices 0) c s).2

theorem Prog.exec_bind {act : χ → (c : I.Call) → σ → I.Response c × σ} (prog : Prog I α)
    (f : α → Prog I β) (choices : ℕ → χ) (s : σ) :
    (prog >>= f).exec act choices s =
      (f (prog.exec act choices s).1).exec act (prog.exec act choices s).2.1
        (prog.exec act choices s).2.2 := by
  induction prog generalizing choices s with
  | done a => rfl
  | call c next ih => exact ih _ _ _

/-- Every call of a program that runs alone is one of those allowed at its moment. -/
def Prog.Meets (act : χ → (c : I.Call) → σ → I.Response c × σ)
    (allowed : χ → I.Call → σ → Prop) : Prog I α → (ℕ → χ) → σ → Prop
  | done _, _, _ => True
  | call c next, choices, s =>
    allowed (choices 0) c s ∧
      (next (act (choices 0) c s).1).Meets act allowed (fun n => choices (n + 1))
        (act (choices 0) c s).2

/-- Every choice is one that is always allowed. -/
theorem Prog.meets_of_choices {act : χ → (c : I.Call) → σ → I.Response c × σ}
    {allowed : χ → I.Call → σ → Prop} {choices : ℕ → χ} (h : ∀ n c s, allowed (choices n) c s)
    (prog : Prog I α) (s : σ) : prog.Meets act allowed choices s := by
  induction prog generalizing choices s with
  | done a => trivial
  | call c next ih => exact ⟨h 0 c s, ih _ (fun n => h (n + 1)) _⟩

theorem Prog.meets_of_forall {act : χ → (c : I.Call) → σ → I.Response c × σ}
    {allowed : χ → I.Call → σ → Prop} (h : ∀ x c s, allowed x c s) (prog : Prog I α)
    (choices : ℕ → χ) (s : σ) : prog.Meets act allowed choices s :=
  meets_of_choices (fun n => h (choices n)) prog s

/-- Processes, each with what is left of its program, and the state they share. -/
structure System (I : Interface) (ι σ α : Type) where
  progs : ι → Prog I α
  state : σ

namespace System

variable [DecidableEq ι] (act : Semantics I ι χ σ)

/-- One process makes its next call. -/
def step (system : System I ι σ α) (turn : ι × χ) : System I ι σ α :=
  match system.progs turn.1 with
  | .done _ => system
  | .call c next =>
    ⟨Function.update system.progs turn.1 (next (act turn.1 turn.2 c system.state).1),
      (act turn.1 turn.2 c system.state).2⟩

/-- The processes take these turns. -/
def run (system : System I ι σ α) (turns : List (ι × χ)) : System I ι σ α :=
  turns.foldl (step act) system

/-- The call the process is about to make is one of those allowed now. -/
def Allows (allowed : ι → χ → I.Call → σ → Prop) (system : System I ι σ α) (turn : ι × χ) : Prop :=
  match system.progs turn.1 with
  | .done _ => True
  | .call c _ => allowed turn.1 turn.2 c system.state

/-- Every call of a run is one of those allowed at its moment. -/
def Meets (allowed : ι → χ → I.Call → σ → Prop) : System I ι σ α → List (ι × χ) → Prop
  | _, [] => True
  | system, turn :: turns => system.Allows allowed turn ∧ (system.step act turn).Meets allowed turns

instance (allowed : ι → χ → I.Call → σ → Prop) [∀ i x c s, Decidable (allowed i x c s)]
    (system : System I ι σ α) (turn : ι × χ) : Decidable (system.Allows allowed turn) :=
  match h : system.progs turn.1 with
  | .done _ => .isTrue (by simp only [Allows, h])
  | .call c _ =>
    decidable_of_iff (allowed turn.1 turn.2 c system.state) (by simp only [Allows, h])

instance decidableMeets (allowed : ι → χ → I.Call → σ → Prop)
    [∀ i x c s, Decidable (allowed i x c s)] :
    (system : System I ι σ α) → (turns : List (ι × χ)) →
      Decidable (system.Meets act allowed turns)
  | _, [] => .isTrue trivial
  | system, turn :: turns =>
    @instDecidableAnd _ _ inferInstance (decidableMeets allowed (system.step act turn) turns)

variable {act} {allowed : ι → χ → I.Call → σ → Prop} {system : System I ι σ α}
  {turns : List (ι × χ)} {turn : ι × χ}

theorem run_concat : system.run act (turns ++ [turn]) = (system.run act turns).step act turn := by
  simp only [run, List.foldl_append, List.foldl_cons, List.foldl_nil]

theorem meets_concat :
    system.Meets act allowed (turns ++ [turn]) ↔
      system.Meets act allowed turns ∧ (system.run act turns).Allows allowed turn := by
  induction turns generalizing system with
  | nil => simp only [List.nil_append, Meets, and_true, true_and, run, List.foldl_nil]
  | cons first turns ih =>
    rw [List.cons_append, Meets, Meets, ih, and_assoc]
    rfl

theorem meets_of_forall (h : ∀ i x c s, allowed i x c s) : system.Meets act allowed turns := by
  induction turns generalizing system with
  | nil => trivial
  | cons turn turns ih =>
    refine ⟨?_, ih⟩
    rw [Allows]
    split
    · trivial
    · exact h _ _ _ _

end System

-- ════════════════════════════════════════════════════════════════════════
-- Rely and guarantee
-- ════════════════════════════════════════════════════════════════════════

/-- How one process acts, which of its calls are considered, what it relies on the others to do
    between its calls, and what it guarantees each of its calls to do. -/
structure Contract (I : Interface) (χ σ : Type) where
  act : χ → (c : I.Call) → σ → I.Response c × σ
  allowed : χ → I.Call → σ → Prop := fun _ _ _ => True
  rely : σ → σ → Prop
  guarantee : σ → σ → Prop

namespace Contract

variable (k : Contract I χ σ)

/-- A program keeps the contract from `s` on, and ends with `Q`. -/
def Sat (Q : α → σ → Prop) : Prog I α → σ → Prop
  | .done a, s => Q a s
  | .call c next, s => ∀ s', k.rely s s' → ∀ x, k.allowed x c s' →
      k.guarantee s' (k.act x c s').2 ∧ Sat Q (next (k.act x c s').1) (k.act x c s').2

variable {k} {Q Q' : α → σ → Prop} {prog : Prog I α} {s s' : σ}

theorem Sat.mono (h : k.Sat Q prog s) (hQ : ∀ a s, Q a s → Q' a s) : k.Sat Q' prog s := by
  induction prog generalizing s with
  | done a => exact hQ a s h
  | call c next ih =>
    intro s' hs' x hx
    exact ⟨(h s' hs' x hx).1, ih _ (h s' hs' x hx).2⟩

theorem Sat.and (h : k.Sat Q prog s) (h' : k.Sat Q' prog s) :
    k.Sat (fun a s => Q a s ∧ Q' a s) prog s := by
  induction prog generalizing s with
  | done a => exact ⟨h, h'⟩
  | call c next ih =>
    intro s' hs' x hx
    exact ⟨(h s' hs' x hx).1, ih _ (h s' hs' x hx).2 (h' s' hs' x hx).2⟩

theorem Sat.bind {f : α → Prog I β} {Q : β → σ → Prop}
    (h : k.Sat (fun a s => k.Sat Q (f a) s) prog s) : k.Sat Q (prog >>= f) s := by
  induction prog generalizing s with
  | done a => exact h
  | call c next ih =>
    intro s' hs' x hx
    exact ⟨(h s' hs' x hx).1, ih _ (h s' hs' x hx).2⟩

/-- What the others and the process itself preserve still holds at the end. -/
theorem Sat.keep {K : σ → Prop} (h : k.Sat Q prog s) (hs : K s)
    (hrely : ∀ s s', K s → k.rely s s' → K s')
    (hguarantee : ∀ s s', K s → k.guarantee s s' → K s') :
    k.Sat (fun a s => Q a s ∧ K s) prog s := by
  induction prog generalizing s with
  | done a => exact ⟨h, hs⟩
  | call c next ih =>
    intro s' hs' x hx
    obtain ⟨hstep, hrest⟩ := h s' hs' x hx
    exact ⟨hstep, ih _ hrest (hguarantee _ _ (hrely _ _ hs hs') hstep)⟩

/-- A process about to make a call can wait. -/
theorem Sat.wait {c : I.Call} {next : I.Response c → Prog I α} (h : k.Sat Q (.call c next) s)
    (htrans : ∀ s₁ s₂ s₃, k.rely s₁ s₂ → k.rely s₂ s₃ → k.rely s₁ s₃) (hs : k.rely s s') :
    k.Sat Q (.call c next) s' :=
  fun s'' hs'' => h s'' (htrans s s' s'' hs hs'')

/-- A weaker guarantee. -/
theorem Sat.weaken {guarantee : σ → σ → Prop} (h : k.Sat Q prog s)
    (hguarantee : ∀ s s', k.guarantee s s' → guarantee s s') :
    ({ k with guarantee } : Contract I χ σ).Sat Q prog s := by
  induction prog generalizing s with
  | done a => exact h
  | call c next ih =>
    intro s' hs' x hx
    exact ⟨hguarantee _ _ (h s' hs' x hx).1, ih _ (h s' hs' x hx).2⟩

/-- Fewer calls are considered. -/
theorem Sat.restrict {allowed : χ → I.Call → σ → Prop} (h : k.Sat Q prog s)
    (hallowed : ∀ x c s, allowed x c s → k.allowed x c s) :
    ({ k with allowed } : Contract I χ σ).Sat Q prog s := by
  induction prog generalizing s with
  | done a => exact h
  | call c next ih =>
    intro s' hs' x hx
    obtain ⟨hstep, hrest⟩ := h s' hs' x (hallowed x c s' hx)
    exact ⟨hstep, ih _ hrest⟩

/-- A program that runs alone ends with its postcondition. -/
theorem Sat.exec {choices : ℕ → χ} (h : k.Sat Q prog s) (hrefl : ∀ s, k.rely s s)
    (hmeets : prog.Meets k.act k.allowed choices s) :
    Q (prog.exec k.act choices s).1 (prog.exec k.act choices s).2.2 := by
  induction prog generalizing choices s with
  | done a => exact h
  | call c next ih => exact ih _ (h s (hrefl s) (choices 0) hmeets.1).2 hmeets.2

section Exceptions

variable {Q : Except ε α → σ → Prop}

theorem Sat.throw {e : ε} (h : Q (.error e) s) :
    k.Sat Q (throw e : ExceptT ε (Prog I) α).run s := h

/-- A program that may fail goes on, or ends with its error. -/
theorem Sat.bindE {prog : ExceptT ε (Prog I) β} {f : β → ExceptT ε (Prog I) α}
    (h : k.Sat (fun result s => match result with
      | .ok b => k.Sat Q (f b).run s
      | .error e => Q (.error e) s) prog.run s) :
    k.Sat Q (prog >>= f).run s := by
  refine Sat.bind (h.mono fun result s hresult => ?_)
  cases result with
  | ok b => exact hresult
  | error e => exact hresult

theorem Sat.orThrow {wrap : I.Failure → ε} {c : I.Call} {Q : Except ε (I.Answer c) → σ → Prop}
    (h : ∀ s', k.rely s s' → ∀ x, k.allowed x c s' →
      k.guarantee s' (k.act x c s').2 ∧
        Q ((k.act x c s').1.mapError wrap) (k.act x c s').2) :
    k.Sat Q (Prog.orThrow wrap c).run s := h

theorem Sat.attempt {c : I.Call} {Q : Except ε (I.Response c) → σ → Prop}
    (h : ∀ s', k.rely s s' → ∀ x, k.allowed x c s' →
      k.guarantee s' (k.act x c s').2 ∧ Q (.ok (k.act x c s').1) (k.act x c s').2) :
    k.Sat Q (Prog.attempt c : ExceptT ε (Prog I) (I.Response c)).run s := h

theorem Sat.lift {prog : Prog I α} (h : k.Sat (fun a s => Q (.ok a) s) prog s) :
    k.Sat Q (ExceptT.lift prog : ExceptT ε (Prog I) α).run s :=
  Sat.bind h

end Exceptions

end Contract

-- ════════════════════════════════════════════════════════════════════════
-- Processes side by side
-- ════════════════════════════════════════════════════════════════════════

namespace System

variable [DecidableEq ι] {k : ι → Contract I χ σ} {Q : ι → α → σ → Prop}
  {system : System I ι σ α} {turns : List (ι × χ)}

/-- Where a process is after these turns: it still keeps its contract, or it has ended, with its
    postcondition at that moment, and nothing but what it relies on has happened since. -/
def Stands (k : ι → Contract I χ σ) (Q : ι → α → σ → Prop) (system : System I ι σ α)
    (turns : List (ι × χ)) (i : ι) : Prop :=
  match (system.run (fun i => (k i).act) turns).progs i with
  | .call c next => (k i).Sat (Q i) (.call c next) (system.run (fun i => (k i).act) turns).state
  | .done a => ∃ earlier, earlier <+: turns ∧
      Q i a (system.run (fun i => (k i).act) earlier).state ∧
      (k i).rely (system.run (fun i => (k i).act) earlier).state
        (system.run (fun i => (k i).act) turns).state

/-- Processes that can run side by side: what one guarantees, the others rely on. -/
structure Compatible (k : ι → Contract I χ σ) : Prop where
  refl : ∀ i s, (k i).rely s s
  trans : ∀ i s₁ s₂ s₃, (k i).rely s₁ s₂ → (k i).rely s₂ s₃ → (k i).rely s₁ s₃
  other : ∀ i j, i ≠ j → ∀ s s', (k i).guarantee s s' → (k j).rely s s'

theorem stands_nil (hk : Compatible k)
    (h : ∀ i, (k i).Sat (Q i) (system.progs i) system.state) (i : ι) : Stands k Q system [] i := by
  have hi := h i
  rw [Stands, run, List.foldl_nil]
  cases hprog : system.progs i with
  | call c next =>
    rw [hprog] at hi
    exact hi
  | done a =>
    rw [hprog] at hi
    exact ⟨[], List.prefix_rfl, hi, hk.refl i _⟩

theorem Stands.other {turn : ι × χ} {i : ι} (hk : Compatible k) (h : Stands k Q system turns i)
    (hprog : (system.run (fun i => (k i).act) (turns ++ [turn])).progs i =
      (system.run (fun i => (k i).act) turns).progs i)
    (hrely : (k i).rely (system.run (fun i => (k i).act) turns).state
      (system.run (fun i => (k i).act) (turns ++ [turn])).state) :
    Stands k Q system (turns ++ [turn]) i := by
  rw [Stands] at h ⊢
  rw [hprog]
  cases hnow : (system.run (fun i => (k i).act) turns).progs i with
  | call c next =>
    rw [hnow] at h
    exact h.wait (hk.trans i) hrely
  | done a =>
    rw [hnow] at h
    obtain ⟨earlier, hearlier, hQ, hsince⟩ := h
    exact ⟨earlier, hearlier.trans (List.prefix_append _ _), hQ, hk.trans i _ _ _ hsince hrely⟩

/-- One turn: the process that takes it keeps its contract, and the others can wait. -/
theorem stands_concat {turn : ι × χ} (hk : Compatible k) (h : ∀ i, Stands k Q system turns i)
    (hallows : (system.run (fun i => (k i).act) turns).Allows (fun i => (k i).allowed) turn) :
    (∀ i, Stands k Q system (turns ++ [turn]) i) ∧
      ((system.run (fun i => (k i).act) (turns ++ [turn])).state =
          (system.run (fun i => (k i).act) turns).state ∨
        (k turn.1).guarantee (system.run (fun i => (k i).act) turns).state
          (system.run (fun i => (k i).act) (turns ++ [turn])).state) := by
  have hrun : system.run (fun i => (k i).act) (turns ++ [turn]) =
      (system.run (fun i => (k i).act) turns).step (fun i => (k i).act) turn := run_concat
  cases hprog : (system.run (fun i => (k i).act) turns).progs turn.1 with
  | done a =>
    rw [step, hprog] at hrun
    refine ⟨fun i => ?_, Or.inl (congrArg state hrun)⟩
    exact (h i).other hk (by rw [hrun]) (by rw [hrun]; exact hk.refl i _)
  | call c next =>
    have hturn := h turn.1
    rw [Stands, hprog] at hturn
    rw [Allows, hprog] at hallows
    obtain ⟨hguarantee, hrest⟩ := hturn _ (hk.refl _ _) turn.2 hallows
    rw [step, hprog] at hrun
    refine ⟨fun i => ?_, Or.inr (by rw [hrun]; exact hguarantee)⟩
    by_cases hi : i = turn.1
    · subst hi
      have hnow := congrArg (fun system => system.progs turn.1) hrun
      simp only [Function.update_self] at hnow
      have hstate := congrArg state hrun
      rw [Stands, hnow]
      cases hnext : next ((k turn.1).act turn.2 c (system.run (fun i => (k i).act) turns).state).1 with
      | call c' next' =>
        rw [hnext] at hrest
        rw [hstate]
        exact hrest
      | done a =>
        rw [hnext] at hrest
        refine ⟨turns ++ [turn], List.prefix_rfl, ?_, hk.refl _ _⟩
        rw [hstate]
        exact hrest
    · refine (h i).other hk ?_ ?_
      · rw [hrun]
        exact Function.update_of_ne hi _ _
      · rw [hrun]
        exact hk.other turn.1 i (Ne.symm hi) _ _ hguarantee

/-- Throughout a run every process stands by its contract, and what every guarantee preserves
    holds. -/
theorem run_stands {K : σ → Prop} (hk : Compatible k)
    (h : ∀ i, (k i).Sat (Q i) (system.progs i) system.state) (hstart : K system.state)
    (hguarantee : ∀ i s s', K s → (k i).guarantee s s' → K s')
    (hmeets : system.Meets (fun i => (k i).act) (fun i => (k i).allowed) turns) :
    (∀ i, Stands k Q system turns i) ∧ K (system.run (fun i => (k i).act) turns).state := by
  induction turns using List.reverseRecOn with
  | nil => exact ⟨stands_nil hk h, hstart⟩
  | append_singleton turns turn ih =>
    obtain ⟨hbefore, hallows⟩ := meets_concat.mp hmeets
    obtain ⟨hstands, hK⟩ := ih hbefore
    obtain ⟨hnext, hstate⟩ := stands_concat hk hstands hallows
    refine ⟨hnext, ?_⟩
    rcases hstate with hsame | hstep
    · rw [hsame]
      exact hK
    · exact hguarantee _ _ _ hK hstep

/-- A process that has ended had its postcondition at that moment. -/
theorem run_finished (hk : Compatible k)
    (h : ∀ i, (k i).Sat (Q i) (system.progs i) system.state)
    (hmeets : system.Meets (fun i => (k i).act) (fun i => (k i).allowed) turns) {i : ι} {a : α}
    (hdone : (system.run (fun i => (k i).act) turns).progs i = .done a) :
    ∃ earlier, earlier <+: turns ∧ Q i a (system.run (fun i => (k i).act) earlier).state ∧
      (k i).rely (system.run (fun i => (k i).act) earlier).state
        (system.run (fun i => (k i).act) turns).state := by
  have hstands := (run_stands (K := fun _ => True) hk h trivial (fun _ _ _ _ _ => trivial)
    hmeets).1 i
  rwa [Stands, hdone] at hstands

theorem run_invariant {K : σ → Prop} (hk : Compatible k)
    (h : ∀ i, (k i).Sat (Q i) (system.progs i) system.state) (hstart : K system.state)
    (hguarantee : ∀ i s s', K s → (k i).guarantee s s' → K s')
    (hmeets : system.Meets (fun i => (k i).act) (fun i => (k i).allowed) turns) :
    K (system.run (fun i => (k i).act) turns).state :=
  (run_stands hk h hstart hguarantee hmeets).2

end System

end Process
