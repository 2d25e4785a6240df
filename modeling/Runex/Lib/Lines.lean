import Mathlib.Data.List.DropRight
import Mathlib.Data.List.TakeWhile
import Runex.Lib.Text

/-!
# Lines and margins of a text

A text as its lines, for a reader that ends a line at some characters, and a text without the white
space around it.

## Main definitions

- `Text.linesBy`, `Text.lines` — the lines of a text
- `Text.trim` — without the white space around it

## Main results

- `Text.linesBy_append` — the first line of a text
- `Text.forall_tail_linesBy_iff` — when the other lines all start with one character
- `Text.trim_eq_self_iff` — what `trim` leaves alone
-/

namespace Text

-- ════════════════════════════════════════════════════════════════════════
-- Lines
-- ════════════════════════════════════════════════════════════════════════

/-- Put a character before the first line. -/
def consLine (c : Char) : List Text → List Text
  | [] => [[c]]
  | line :: lines => (c :: line) :: lines

/-- The lines of a text, without their ends; CR LF is one end. A last line needs none. -/
def linesBy (isBreak : Char → Bool) : Text → List Text
  | [] => []
  | c :: s =>
    if c = '\r' ∧ s.head? = some '\n' then linesBy isBreak s
    else if isBreak c then [] :: linesBy isBreak s
    else consLine c (linesBy isBreak s)

/-- `str::lines`. -/
def lines : Text → List Text := linesBy (· == '\n')

variable {isBreak : Char → Bool} {c p : Char} {s line rest : Text}

theorem linesBy_break (hc : isBreak c = true) (h : ¬ (c = '\r' ∧ s.head? = some '\n')) :
    linesBy isBreak (c :: s) = [] :: linesBy isBreak s := by
  rw [linesBy, if_neg h, if_pos hc]

theorem linesBy_cons (hc : isBreak c = false) (h : ¬ (c = '\r' ∧ s.head? = some '\n')) :
    linesBy isBreak (c :: s) = consLine c (linesBy isBreak s) := by
  rw [linesBy, if_neg h, if_neg (by simp [hc])]

@[simp] theorem tail_consLine (c : Char) (lines : List Text) :
    (consLine c lines).tail = lines.tail := by
  cases lines <;> rfl

theorem forall_consLine_iff {lines : List Text} :
    (∀ line ∈ consLine c lines, [p] <+: line) ↔ c = p ∧ ∀ line ∈ lines.tail, [p] <+: line := by
  cases lines with
  | nil => simp [consLine, eq_comm]
  | cons line lines => simp [consLine, List.cons_prefix_cons, eq_comm]

/-- No line contains a line break. -/
theorem not_mem_of_mem_linesBy (hc : isBreak c = true) (h : line ∈ linesBy isBreak s) :
    c ∉ line := by
  induction s generalizing line with
  | nil => simp [linesBy] at h
  | cons d s ih =>
    rw [linesBy] at h
    split at h
    · exact ih h
    · split at h
      · rcases List.mem_cons.mp h with rfl | h
        · simp
        · exact ih h
      · next hd =>
        have hne : c ≠ d := fun hcd => hd (hcd ▸ hc)
        cases hlines : linesBy isBreak s with
        | nil => simp_all [consLine]
        | cons first lines =>
          rw [hlines] at h ih
          rcases List.mem_cons.mp h with rfl | h
          · exact fun hmem => (List.mem_cons.mp hmem).elim hne (ih (by simp))
          · exact ih (by simp [h])

/-- A CR before the end of a line would be part of that end. -/
theorem not_crlf_of_getLast? (hlast : (c :: s).getLast? ≠ some '\r') (hs : '\n' ∉ s) (rest : Text) :
    ¬ (c = '\r' ∧ (s ++ '\n' :: rest).head? = some '\n') := by
  rintro ⟨rfl, hhead⟩
  cases s with
  | nil => exact hlast rfl
  | cons d s =>
    rw [List.cons_append, List.head?_cons, Option.some.injEq] at hhead
    exact hs (hhead ▸ List.mem_cons_self ..)

theorem getLast?_ne_of_cons {d : Char} (hlast : (c :: s).getLast? ≠ some d) : s.getLast? ≠ some d := by
  cases s with
  | nil => simp
  | cons e s => simpa [List.getLast?_cons] using hlast

/-- The first line of a text. -/
theorem linesBy_append (hlf : isBreak '\n' = true) (hline : ∀ c ∈ line, isBreak c = false)
    (hlast : line.getLast? ≠ some '\r') (rest : Text) :
    linesBy isBreak (line ++ '\n' :: rest) = line :: linesBy isBreak rest := by
  induction line with
  | nil => exact linesBy_break hlf (by simp)
  | cons c line ih =>
    have hmem : '\n' ∉ line := fun h => by simp [hline '\n' (by simp [h])] at hlf
    rw [List.cons_append, linesBy_cons (hline c (by simp)) (not_crlf_of_getLast? hlast hmem rest),
      ih (fun d hd => hline d (by simp [hd])) (getLast?_ne_of_cons hlast)]
    rfl

/-- What is put in a line does not change the lines after it. -/
theorem tail_linesBy_append {q : Text} (hq : ∀ c ∈ q, isBreak c = false ∧ c ≠ '\r') (s : Text) :
    (linesBy isBreak (q ++ s)).tail = (linesBy isBreak s).tail := by
  induction q with
  | nil => rfl
  | cons c q ih =>
    obtain ⟨hc, hcr⟩ := hq c (by simp)
    rw [List.cons_append, linesBy_cons hc (fun h => hcr h.1), tail_consLine,
      ih fun d hd => hq d (by simp [hd])]

/-- Every line starts with `p` when the text does and the other lines do. -/
theorem forall_linesBy_iff (hp : isBreak p = false)
    (h : ¬ (c = '\r' ∧ s.head? = some '\n')) :
    (∀ line ∈ linesBy isBreak (c :: s), [p] <+: line) ↔
      c = p ∧ ∀ line ∈ (linesBy isBreak (c :: s)).tail, [p] <+: line := by
  cases hc : isBreak c with
  | true =>
    have hne : c ≠ p := fun h => by simp [h, hp] at hc
    rw [linesBy_break hc h]
    simp [hne]
  | false => rw [linesBy_cons hc h, forall_consLine_iff, tail_consLine]

/-- The lines after the first start with `p` when each line break is followed by `p`. -/
theorem forall_tail_linesBy_iff (hlf : isBreak '\n' = true) (hp : isBreak p = false)
    (hs : '\n' ∉ s) (hlast : ∀ c ∈ s.getLast?, isBreak c = false ∧ c ≠ '\r') :
    (∀ line ∈ (linesBy isBreak (s ++ '\n' :: rest)).tail, [p] <+: line) ↔
      s.IsChain (fun c d => isBreak c = true → d = p) ∧
        ∀ line ∈ linesBy isBreak rest, [p] <+: line := by
  induction s with
  | nil => simp [linesBy_break hlf]
  | cons c s ih =>
    have hlast' : (c :: s).getLast? ≠ some '\r' := fun h => (hlast '\r' h).2 rfl
    have hmem : '\n' ∉ s := fun h => hs (by simp [h])
    have hstep := not_crlf_of_getLast? hlast' hmem rest
    cases s with
    | nil =>
      have hc := (hlast c rfl).1
      rw [List.cons_append, linesBy_cons hc hstep, tail_consLine]
      simp [linesBy_break hlf]
    | cons d s =>
      have ih := ih hmem (by simpa [List.getLast?_cons] using hlast)
      have hfirst := forall_linesBy_iff hp (c := d) (s := s ++ '\n' :: rest)
        (not_crlf_of_getLast? (getLast?_ne_of_cons hlast') (fun h => hmem (by simp [h])) rest)
      rw [List.isChain_cons_cons, and_assoc, ← ih]
      rw [List.cons_append] at hstep
      rw [List.cons_append, List.cons_append]
      cases hc : isBreak c with
      | true => rw [linesBy_break hc hstep, List.tail_cons, hfirst]; simp
      | false => rw [linesBy_cons hc hstep, tail_consLine]; simp

-- ════════════════════════════════════════════════════════════════════════
-- Margins
-- ════════════════════════════════════════════════════════════════════════

/-- `str::trim_start`. -/
def trimStart (s : Text) : Text := s.dropWhile isWhitespace

/-- `str::trim_end`. -/
def trimEnd (s : Text) : Text := s.rdropWhile isWhitespace

/-- `str::trim`. -/
def trim (s : Text) : Text := trimEnd (trimStart s)

theorem trimStart_eq_self_iff : trimStart s = s ↔ ∀ c ∈ s.head?, isWhitespace c = false := by
  cases s with
  | nil => simp [trimStart]
  | cons c s => simp [trimStart, List.dropWhile_eq_self_iff]

theorem trimEnd_eq_self_iff : trimEnd s = s ↔ ∀ c ∈ s.getLast?, isWhitespace c = false := by
  rw [trimEnd, List.rdropWhile_eq_self_iff]
  cases s with
  | nil => simp
  | cons c s => simp [List.getLast?_eq_some_getLast]

theorem trimStart_suffix (s : Text) : trimStart s <:+ s := List.dropWhile_suffix ..

theorem trimEnd_isPrefix (s : Text) : trimEnd s <+: s := List.rdropWhile_prefix ..

/-- `trim` leaves a text alone when white space neither starts nor ends it. -/
theorem trim_eq_self_iff : trim s = s ↔
    (∀ c ∈ s.head?, isWhitespace c = false) ∧ ∀ c ∈ s.getLast?, isWhitespace c = false := by
  rw [← trimStart_eq_self_iff, ← trimEnd_eq_self_iff]
  constructor
  · intro h
    have hlength : s.length ≤ (trimStart s).length := by
      calc s.length = (trim s).length := by rw [h]
        _ ≤ (trimStart s).length := (trimEnd_isPrefix _).length_le
    have hstart : trimStart s = s := (trimStart_suffix s).eq_of_length_le hlength
    rw [trim, hstart] at h
    exact ⟨hstart, h⟩
  · rintro ⟨hstart, hend⟩
    rw [trim, hstart, hend]

@[simp] theorem trim_trim (s : Text) : trim (trim s) = trim s := by
  refine trim_eq_self_iff.mpr ⟨fun c hc => ?_, trimEnd_eq_self_iff.mp (List.rdropWhile_idempotent ..)⟩
  -- The first character left is the first that `trim_start` left.
  obtain ⟨rest, hrest⟩ := trimEnd_isPrefix (trimStart s)
  have hfirst : c ∈ (trimStart s).head? := by
    rw [← hrest, List.head?_append]
    rw [trim] at hc
    rw [hc]
    rfl
  have h := List.head?_dropWhile_not isWhitespace s
  rw [← trimStart, hfirst] at h
  exact h

theorem mem_of_mem_trim (h : c ∈ trim s) : c ∈ s :=
  (trimStart_suffix s).subset ((trimEnd_isPrefix _).subset h)

end Text
