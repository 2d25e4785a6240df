import Mathlib.Data.Nat.Notation

/-!
# One-symbol scanners

A reader of a literal that looks at one symbol at a time. In each mode the next symbol is
refused, ends the literal before it, or is consumed: the scanner goes to another mode and yields
some output. A literal grammar is then a step function, and that a writer is inverse to it is a
statement about the short text the writer emits for one symbol.

## Main definitions

- `Scanner` — step function and accepting modes
- `Scanner.drive` — consume a whole text
- `Scanner.scan` — consume one literal and return the rest of the text

## Main results

- `Scanner.drive_append`, `Scanner.drive_flatMap` — texts written piece by piece
- `Scanner.exists_of_drive_append` — a text consumed in two parts
- `Scanner.scan_of_drive` — a text that is consumed and then ends is one literal
- `Scanner.exists_drive_of_scan` — a literal is consumed up to where it ends
-/

/-- What a scanner does with the next symbol. -/
inductive Verdict (σ β : Type) where
  /-- The text is not a literal. -/
  | fail
  /-- The literal ended before this symbol. -/
  | stop
  /-- The symbol belongs to the literal. -/
  | move (mode : σ) (out : List β)
  deriving DecidableEq

/-- A reader of literals over symbols `α` with output `β` and modes `σ`. -/
structure Scanner (σ α β : Type) where
  step : σ → α → Verdict σ β
  /-- The modes in which a literal may end with the text. -/
  accepts : σ → Bool

namespace Scanner

variable {σ α β : Type} (M : Scanner σ α β)

/-- Consume a whole text: the mode after it, and the output. -/
def drive : σ → List α → Option (σ × List β)
  | mode, [] => some (mode, [])
  | mode, c :: s =>
    match M.step mode c with
    | .move mode' out => (drive mode' s).map fun (last, value) => (last, out ++ value)
    | _ => none

/-- Consume one literal: its value, and the text after it. -/
def scan : σ → List α → Option (List β × List α)
  | mode, [] => if M.accepts mode then some ([], []) else none
  | mode, c :: s =>
    match M.step mode c with
    | .fail => none
    | .stop => some ([], c :: s)
    | .move mode' out => (scan mode' s).map fun (value, rest) => (out ++ value, rest)

variable {M} {m m' m'' : σ} {p q s rest : List α} {out out' : List β}

@[simp] theorem drive_nil : M.drive m [] = some (m, []) := rfl

theorem drive_cons {c : α} (h : M.step m c = .move m' out) (s : List α) :
    M.drive m (c :: s) = (M.drive m' s).map fun (last, value) => (last, out ++ value) := by
  simp only [drive, h]

theorem scan_cons_move {c : α} (h : M.step m c = .move m' out) (s : List α) :
    M.scan m (c :: s) = (M.scan m' s).map fun (value, rest) => (out ++ value, rest) := by
  simp only [scan, h]

theorem scan_cons_stop {c : α} (h : M.step m c = .stop) (s : List α) :
    M.scan m (c :: s) = some ([], c :: s) := by
  simp only [scan, h]

/-- A text that is consumed starts with a symbol the scanner moves over. -/
theorem move_of_drive_cons {c : α} (h : M.drive m (c :: s) = some (m', out)) :
    ∃ mode o value, M.step m c = .move mode o ∧ M.drive mode s = some (m', value) ∧
      out = o ++ value := by
  simp only [drive] at h
  split at h
  · next mode o hstep =>
    simp only [Option.map_eq_some_iff, Prod.mk.injEq, Prod.exists] at h
    obtain ⟨_, value, hdrive, rfl, rfl⟩ := h
    exact ⟨mode, o, value, hstep, hdrive, rfl⟩
  · simp at h

/-- Two texts that are consumed one after the other are consumed together. -/
theorem drive_append (hp : M.drive m p = some (m', out)) (hq : M.drive m' q = some (m'', out')) :
    M.drive m (p ++ q) = some (m'', out ++ out') := by
  induction p generalizing m out with
  | nil =>
    simp only [drive_nil, Option.some.injEq, Prod.mk.injEq] at hp
    obtain ⟨rfl, rfl⟩ := hp
    exact hq
  | cons c p ih =>
    obtain ⟨mode, o, value, hstep, hdrive, rfl⟩ := move_of_drive_cons hp
    rw [List.cons_append, drive_cons hstep, ih hdrive]
    simp

/-- A text that is consumed in two parts. -/
theorem exists_of_drive_append (h : M.drive m (p ++ q) = some (m'', out)) :
    ∃ mode value value', M.drive m p = some (mode, value) ∧ M.drive mode q = some (m'', value') ∧
      out = value ++ value' := by
  induction p generalizing m out with
  | nil => exact ⟨m, [], out, rfl, h, rfl⟩
  | cons c p ih =>
    obtain ⟨next, o, tail, hstep, hdrive, rfl⟩ := move_of_drive_cons h
    obtain ⟨mode, value, value', hp, hq, rfl⟩ := ih hdrive
    refine ⟨mode, o ++ value, value', ?_, hq, (List.append_assoc ..).symm⟩
    rw [drive_cons hstep, hp]
    rfl

/-- A text written symbol by symbol is consumed in one mode when each piece is. -/
theorem drive_flatMap {γ : Type} {s : List γ} {write : γ → List α} {value : γ → List β}
    (h : ∀ c ∈ s, M.drive m (write c) = some (m, value c)) :
    M.drive m (s.flatMap write) = some (m, s.flatMap value) := by
  induction s with
  | nil => rfl
  | cons c s ih =>
    simp only [List.flatMap_cons]
    exact drive_append (h c (List.mem_cons_self ..)) (ih fun d hd => h d (List.mem_cons_of_mem _ hd))

/-- Consuming a piece first only puts its output in front. -/
theorem scan_append (hp : M.drive m p = some (m', out)) (rest : List α) :
    M.scan m (p ++ rest) = (M.scan m' rest).map fun (value, rest) => (out ++ value, rest) := by
  induction p generalizing m out with
  | nil =>
    simp only [drive_nil, Option.some.injEq, Prod.mk.injEq] at hp
    obtain ⟨rfl, rfl⟩ := hp
    simp
  | cons c p ih =>
    obtain ⟨mode, o, value, hstep, hdrive, rfl⟩ := move_of_drive_cons hp
    rw [List.cons_append, scan_cons_move hstep, ih hdrive]
    simp [Function.comp_def]

/-- A text that is consumed, with a rest at which the literal ends, is one literal. -/
theorem scan_of_drive (hp : M.drive m p = some (m', out)) (hend : M.scan m' rest = some ([], rest)) :
    M.scan m (p ++ rest) = some (out, rest) := by
  simp [scan_append hp, hend]

/-- A literal between two delimiters, written piece by piece. -/
theorem scan_delimited {γ : Type} {s : List γ} {write : γ → List α} {value : γ → List β}
    {opening closing : List α} (hopen : M.drive m opening = some (m', []))
    (h : ∀ c ∈ s, M.drive m' (write c) = some (m', value c))
    (hclose : M.drive m' closing = some (m'', [])) (hend : M.scan m'' rest = some ([], rest)) :
    M.scan m (opening ++ (s.flatMap write ++ closing) ++ rest) = some (s.flatMap value, rest) := by
  have hall := drive_append hopen (drive_append (drive_flatMap h) hclose)
  simpa using scan_of_drive hall hend

/-- A text that is one literal is consumed by the scanner, up to where the literal ends. -/
theorem exists_drive_of_scan (h : M.scan m s = some (out, rest)) :
    ∃ consumed last, s = consumed ++ rest ∧ M.drive m consumed = some (last, out) ∧
      (rest = [] → M.accepts last = true) := by
  induction s generalizing m out with
  | nil =>
    simp only [scan, Option.ite_none_right_eq_some, Option.some.injEq, Prod.mk.injEq] at h
    obtain ⟨haccepts, rfl, rfl⟩ := h
    exact ⟨[], m, rfl, rfl, fun _ => haccepts⟩
  | cons c s ih =>
    simp only [scan] at h
    split at h
    · cases h
    · simp only [Option.some.injEq, Prod.mk.injEq] at h
      obtain ⟨rfl, rfl⟩ := h
      exact ⟨[], m, rfl, rfl, fun hrest => nomatch hrest⟩
    · next next o hstep =>
      simp only [Option.map_eq_some_iff, Prod.mk.injEq, Prod.exists] at h
      obtain ⟨value, tail, hscan, rfl, rfl⟩ := h
      obtain ⟨consumed, last, rfl, hdrive, haccepts⟩ := ih hscan
      refine ⟨c :: consumed, last, rfl, ?_, haccepts⟩
      rw [drive_cons hstep, hdrive]
      rfl

end Scanner
