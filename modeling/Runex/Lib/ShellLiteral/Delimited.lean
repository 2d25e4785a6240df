import Runex.Lib.ShellLiteral
import Runex.Lib.TakeWithin

/-!
# Literals between delimiters

Three more string grammars. In a PowerShell single-quoted string five characters delimit, and two
of them in a row are one character of the value. A single-quoted string of nu has no escape at all;
a double-quoted one has backslash escapes, and no interpolation.

## Main definitions

- `ShellLiteral.pwshSingle` — a PowerShell single-quoted string
- `ShellLiteral.nuSingle`, `ShellLiteral.nuString` — the strings of nu

## Main results

- `ShellLiteral.total_of_drive` — how long the value of a PowerShell string is: it counts its
  delimiters by half
-/

namespace ShellLiteral

open TakeWithin (total total_cons)

-- ════════════════════════════════════════════════════════════════════════
-- PowerShell, single quotes
-- ════════════════════════════════════════════════════════════════════════

inductive PwshSingleMode where
  | start
  | inside
  | closing
  deriving DecidableEq, Repr

/-- The characters the tokenizer accepts as a single quote besides the ASCII one. -/
def isSmartSingleQuote (c : Char) : Bool := 0x2018 ≤ c.toNat && c.toNat ≤ 0x201B

def isPwshSingleQuote (c : Char) : Bool := c == '\'' || isSmartSingleQuote c

def pwshSingleStep : PwshSingleMode → Char → Verdict PwshSingleMode Char
  | .start, c => if isPwshSingleQuote c then .move .inside [] else .fail
  | .inside, c => if isPwshSingleQuote c then .move .closing [] else .move .inside [c]
  -- A doubled quote is a quote; a single one was the end.
  | .closing, c => if isPwshSingleQuote c then .move .inside [c] else .stop

/-- A PowerShell single-quoted string. -/
def pwshSingle : Scanner PwshSingleMode Char Char := ⟨pwshSingleStep, (· == .closing)⟩

theorem pwshSingle_ends {rest : Text} (h : ∀ c ∈ rest.head?, isPwshSingleQuote c = false) :
    pwshSingle.scan .closing rest = some ([], rest) := by
  cases rest with
  | nil => rfl
  | cons c s =>
    apply Scanner.scan_cons_stop
    simp [pwshSingle, pwshSingleStep, h c rfl]

/-- Twice what a character adds to the value: half a character for a delimiter. -/
def pwshWeight (c : Char) : ℕ := if isPwshSingleQuote c then 1 else 2

/-- Whether a delimiter waits for its partner. -/
def PwshSingleMode.pending : PwshSingleMode → ℕ
  | .closing => 1
  | .start | .inside => 0

/-- Inside the quotes the value grows by the weights. -/
theorem total_of_drive {mode last : PwshSingleMode} {s value : Text} (hmode : mode ≠ .start)
    (h : pwshSingle.drive mode s = some (last, value)) :
    2 * value.length + last.pending = mode.pending + total pwshWeight s := by
  induction s generalizing mode value with
  | nil =>
    simp only [Scanner.drive_nil, Option.some.injEq, Prod.mk.injEq] at h
    obtain ⟨rfl, rfl⟩ := h
    simp
  | cons c s ih =>
    obtain ⟨next, out, tail, hstep, hdrive, rfl⟩ := Scanner.move_of_drive_cons h
    have hone : next ≠ .start ∧ 2 * out.length + next.pending = mode.pending + pwshWeight c := by
      cases hquote : isPwshSingleQuote c <;> cases mode <;>
        simp [pwshSingle, pwshSingleStep, hquote] at hstep hmode <;>
        obtain ⟨rfl, rfl⟩ := hstep <;> simp [PwshSingleMode.pending, pwshWeight, hquote]
    have hrest := ih hone.1 hdrive
    rw [total_cons, List.length_append]
    omega

/-- What the delimiters cost: each is half a character. -/
theorem total_pwshWeight_add_countP (s : Text) :
    total pwshWeight s + s.countP isPwshSingleQuote = 2 * s.length := by
  induction s with
  | nil => rfl
  | cons c s ih =>
    rw [total_cons, List.countP_cons, List.length_cons, pwshWeight]
    split <;> omega

/-- The value has only characters of the text. -/
theorem mem_of_drive {mode last : PwshSingleMode} {s value : Text}
    (h : pwshSingle.drive mode s = some (last, value)) {c : Char} (hc : c ∈ value) : c ∈ s := by
  induction s generalizing mode value with
  | nil =>
    simp only [Scanner.drive_nil, Option.some.injEq, Prod.mk.injEq] at h
    obtain ⟨rfl, rfl⟩ := h
    exact hc
  | cons d s ih =>
    obtain ⟨next, out, tail, hstep, hdrive, rfl⟩ := Scanner.move_of_drive_cons h
    have hout : out = [] ∨ out = [d] := by
      cases hquote : isPwshSingleQuote d <;> cases mode <;>
        simp [pwshSingle, pwshSingleStep, hquote] at hstep <;> simp [← hstep.2]
    rcases List.mem_append.mp hc with hmem | hmem
    · rcases hout with rfl | rfl
      · cases hmem
      · rw [List.mem_singleton.mp hmem]
        exact List.mem_cons_self ..
    · exact List.mem_cons_of_mem d (ih hdrive hmem)

/-- Only the opening delimiter leaves the first mode. -/
theorem ne_start_of_drive {mode last : PwshSingleMode} {s value : Text} (hmode : mode ≠ .start)
    (h : pwshSingle.drive mode s = some (last, value)) : last ≠ .start := by
  induction s generalizing mode value with
  | nil =>
    simp only [Scanner.drive_nil, Option.some.injEq, Prod.mk.injEq] at h
    exact h.1 ▸ hmode
  | cons c s ih =>
    obtain ⟨next, out, tail, hstep, hdrive, -⟩ := Scanner.move_of_drive_cons h
    refine ih (fun hnext => ?_) hdrive
    subst hnext
    cases mode <;> simp only [pwshSingle, pwshSingleStep] at hstep <;> split at hstep <;> cases hstep

/-- A character that is no delimiter closes no pair: the text before it is consumed by itself. -/
theorem exists_of_drive_inside {s rest value : Text} {c : Char} {last : PwshSingleMode}
    (hc : isPwshSingleQuote c = false)
    (h : pwshSingle.drive .inside (s ++ c :: rest) = some (last, value)) :
    ∃ before after, pwshSingle.drive .inside s = some (.inside, before) ∧
      pwshSingle.drive .inside rest = some (last, after) ∧ value = before ++ c :: after := by
  obtain ⟨mode, before, tail, hs, hrest, rfl⟩ := Scanner.exists_of_drive_append h
  obtain ⟨next, out, after, hstep, hafter, rfl⟩ := Scanner.move_of_drive_cons hrest
  cases mode with
  | start => exact absurd rfl (ne_start_of_drive (by decide) hs)
  | closing => simp [pwshSingle, pwshSingleStep, hc] at hstep
  | inside =>
    simp only [pwshSingle, pwshSingleStep, hc, Bool.false_eq_true, if_false, Verdict.move.injEq]
      at hstep
    obtain ⟨rfl, rfl⟩ := hstep
    exact ⟨before, after, hs, hafter, rfl⟩

/-- A text without delimiters is its own value. -/
theorem exists_of_drive_plain {q rest value : Text} {last : PwshSingleMode}
    (hq : ∀ c ∈ q, isPwshSingleQuote c = false)
    (h : pwshSingle.drive .inside (q ++ rest) = some (last, value)) :
    ∃ after, pwshSingle.drive .inside rest = some (last, after) ∧ value = q ++ after := by
  induction q generalizing value with
  | nil => exact ⟨value, h, rfl⟩
  | cons c q ih =>
    obtain ⟨before, after, hnil, hafter, rfl⟩ :=
      exists_of_drive_inside (s := []) (hq c (by simp)) h
    obtain rfl : [] = before := by simpa using hnil
    obtain ⟨tail, htail, rfl⟩ := ih (fun d hd => hq d (by simp [hd])) hafter
    exact ⟨tail, htail, rfl⟩

/-- A text without delimiters is consumed as it is. -/
theorem drive_plain {q : Text} (hq : ∀ c ∈ q, isPwshSingleQuote c = false) :
    pwshSingle.drive .inside q = some (.inside, q) := by
  have h : ∀ c ∈ q, pwshSingle.drive .inside [c] = some (.inside, [c]) := by
    intro c hc
    have hstep : pwshSingle.step .inside c = .move .inside [c] := by
      simp [pwshSingle, pwshSingleStep, hq c hc]
    rw [Scanner.drive_cons hstep]
    rfl
  have hall := Scanner.drive_flatMap h
  rwa [List.flatMap_singleton'] at hall

-- ════════════════════════════════════════════════════════════════════════
-- nu
-- ════════════════════════════════════════════════════════════════════════

inductive NuSingleMode where
  | start
  | inside
  | done
  deriving DecidableEq, Repr

def nuSingleStep : NuSingleMode → Char → Verdict NuSingleMode Char
  | .start, c => if c = '\'' then .move .inside [] else .fail
  | .inside, c => if c = '\'' then .move .done [] else .move .inside [c]
  | .done, _ => .stop

/-- A single-quoted string of nu: every character but the delimiter is itself. -/
def nuSingle : Scanner NuSingleMode Char Char := ⟨nuSingleStep, (· == .done)⟩

theorem nuSingle_ends (rest : Text) : nuSingle.scan .done rest = some ([], rest) := by
  cases rest <;> rfl

inductive NuMode where
  | start
  | inside
  | escape
  | done
  deriving DecidableEq, Repr

/-- The character an escape stands for; `\u` is left out. -/
def nuEscape? (c : Char) : Option Char :=
  if c ∈ ['"', '\'', '\\', '/', '(', ')', '\x7b', '\x7d', '$', '^', '#', '|', '~'] then some c
  else
    match c with
    | 'a' => some (Char.ofNat 7)
    | 'b' => some (Char.ofNat 8)
    | 'e' => some (Char.ofNat 27)
    | 'f' => some (Char.ofNat 12)
    | 'n' => some '\n'
    | 'r' => some '\r'
    | 't' => some '\t'
    | _ => none

def nuStep : NuMode → Char → Verdict NuMode Char
  | .start, c => if c = '"' then .move .inside [] else .fail
  | .inside, c =>
    if c = '"' then .move .done []
    else if c = '\\' then .move .escape []
    else .move .inside [c]
  | .escape, c =>
    match nuEscape? c with
    | some e => .move .inside [e]
    | none => .fail
  | .done, _ => .stop

/-- A double-quoted string of nu. -/
def nuString : Scanner NuMode Char Char := ⟨nuStep, (· == .done)⟩

theorem nuString_ends (rest : Text) : nuString.scan .done rest = some ([], rest) := by
  cases rest <;> rfl

end ShellLiteral
