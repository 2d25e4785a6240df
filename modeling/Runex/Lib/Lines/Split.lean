import Runex.Lib.Lines
import Runex.Lib.Search

/-!
# What some line of a text says

Whether a text has a line of some kind, for a kind that does not depend on a CR at the end of the
line: then neither the way the lines are told apart nor the line ends matter, and the lines of two
texts put below each other are those of both.

## Main definitions

- `Text.anyLine` — some line of a text is of this kind
- `Text.normalizeNewlines` — each CR LF as LF

## Main results

- `Text.any_lines_normalizeNewlines` — the line ends do not matter
- `Text.anyLine_append_cons` — two texts below each other
-/

namespace Text

open Search

/-- Some line is of this kind. A CR that ends a line is left in it. -/
def anyLine (p : Text → Bool) (s : Text) : Bool := (s.splitOn '\n').any p

/-- `str::replace("\r\n", "\n")`. -/
def normalizeNewlines (s : Text) : Text := replaceAll ['\r', '\n'] ['\n'] s

/-- An empty line is not of this kind, and a CR at the end of a line does not matter. -/
structure IgnoresCr (p : Text → Bool) : Prop where
  nil : p [] = false
  concat : ∀ line, p (line ++ ['\r']) = p line

/-- Without the CR that ends it. -/
def stripCr (line : Text) : Text := if line.getLast? = some '\r' then line.dropLast else line

variable {p : Text → Bool} {line rest s t : Text} {c : Char}

/-- A text is one line, or a line above a text. -/
theorem line_induction {motive : Text → Prop} (last : ∀ line, '\n' ∉ line → motive line)
    (above : ∀ line rest, '\n' ∉ line → motive rest → motive (line ++ '\n' :: rest)) (s : Text) :
    motive s := by
  induction hlength : s.length using Nat.strong_induction_on generalizing s with
  | _ n ih =>
    by_cases hmem : '\n' ∈ s
    · obtain ⟨line, rest, rfl, hline⟩ := List.eq_append_cons_of_mem hmem
      refine above line rest hline (ih rest.length ?_ rest rfl)
      rw [← hlength, List.length_append, List.length_cons]
      omega
    · exact last s hmem

theorem anyLine_of_not_mem (h : '\n' ∉ line) : anyLine p line = p line := by
  rw [anyLine, List.splitOn_eq_singleton h, List.any_cons, List.any_nil, Bool.or_false]

/-- The lines of two texts below each other. -/
theorem anyLine_append_cons (s t : Text) :
    anyLine p (s ++ '\n' :: t) = (anyLine p s || anyLine p t) := by
  rw [anyLine, List.splitOn_append_cons_self, List.any_append]
  rfl

theorem IgnoresCr.stripCr (h : IgnoresCr p) (line : Text) : p (stripCr line) = p line := by
  rw [Text.stripCr]
  split
  · next hlast =>
    obtain ⟨front, rfl⟩ := List.getLast?_eq_some_iff.mp hlast
    rw [List.dropLast_concat, h.concat]
  · rfl

theorem stripCr_eq_self (h : '\r' ∉ line) : stripCr line = line :=
  if_neg fun hlast => h (List.mem_of_getLast? hlast)

theorem stripCr_cons (hline : line ≠ []) : stripCr (c :: line) = c :: stripCr line := by
  obtain ⟨d, line, rfl⟩ := List.exists_cons_of_ne_nil hline
  rw [stripCr, stripCr, List.getLast?_cons_cons, List.dropLast_cons_cons]
  split <;> rfl

theorem lines_cons (hc : c ≠ '\n') (h : ¬ (c = '\r' ∧ s.head? = some '\n')) :
    lines (c :: s) = consLine c (lines s) :=
  @linesBy_cons (· == '\n') c s (beq_eq_false_iff_ne.mpr hc) h

/-- The first line. -/
theorem lines_append_cons (h : '\n' ∉ line) (rest : Text) :
    lines (line ++ '\n' :: rest) = stripCr line :: lines rest := by
  induction line with
  | nil => exact linesBy_break rfl (by simp)
  | cons c line ih =>
    obtain ⟨hc, hline⟩ := not_or.mp (List.mem_cons.not.mp h)
    by_cases hnil : line = []
    · subst hnil
      by_cases hcr : c = '\r'
      · subst hcr
        rw [lines, List.cons_append, linesBy, if_pos ⟨rfl, rfl⟩]
        exact linesBy_break rfl (by simp)
      · have hkept : stripCr [c] = [c] := if_neg (by simp [hcr])
        rw [List.cons_append, lines_cons (Ne.symm hc) fun h => hcr h.1, ih hline, hkept]
        rfl
    · have hhead : ¬ (c = '\r' ∧ (line ++ '\n' :: rest).head? = some '\n') := by
        obtain ⟨d, line, rfl⟩ := List.exists_cons_of_ne_nil hnil
        rintro ⟨-, hd⟩
        rw [List.cons_append, List.head?_cons, Option.some.injEq] at hd
        exact hline (hd ▸ List.mem_cons_self)
      rw [List.cons_append, lines_cons (Ne.symm hc) hhead, ih hline, stripCr_cons hnil]
      rfl

/-- The last line. -/
theorem lines_of_not_mem (h : '\n' ∉ line) : lines line = if line = [] then [] else [line] := by
  induction line with
  | nil => rfl
  | cons c line ih =>
    obtain ⟨hc, hline⟩ := not_or.mp (List.mem_cons.not.mp h)
    have hhead : ¬ (c = '\r' ∧ line.head? = some '\n') := fun hd =>
      hline (List.mem_of_mem_head? hd.2)
    rw [lines_cons (Ne.symm hc) hhead, ih hline, if_neg (List.cons_ne_nil c line)]
    split
    · next hnil => rw [hnil]; rfl
    · rfl

/-- How the lines are told apart does not matter. -/
theorem any_lines (h : IgnoresCr p) (s : Text) : (lines s).any p = anyLine p s := by
  induction s using line_induction with
  | last line hline =>
    rw [lines_of_not_mem hline, anyLine_of_not_mem hline]
    split
    · next hnil => rw [hnil, h.nil]; rfl
    · rw [List.any_cons, List.any_nil, Bool.or_false]
  | above line rest hline ih =>
    rw [lines_append_cons hline, anyLine_append_cons, anyLine_of_not_mem hline, List.any_cons,
      h.stripCr, ih]

theorem normalizeNewlines_append_cons (h : '\n' ∉ line) (rest : Text) :
    normalizeNewlines (line ++ '\n' :: rest) = stripCr line ++ '\n' :: normalizeNewlines rest := by
  induction line with
  | nil => exact replaceAll_cons (by simp)
  | cons c line ih =>
    obtain ⟨hc, hline⟩ := not_or.mp (List.mem_cons.not.mp h)
    by_cases hnil : line = []
    · subst hnil
      by_cases hcr : c = '\r'
      · subst hcr
        exact replaceAll_pat_append (by simp) rest
      · have hpat : ¬ ['\r', '\n'] <+: c :: '\n' :: rest := by
          rw [List.cons_prefix_cons]
          exact fun hp => hcr hp.1.symm
        have hkept : stripCr [c] = [c] := if_neg (by simp [hcr])
        rw [normalizeNewlines, List.cons_append, List.nil_append, replaceAll_cons hpat, hkept]
        exact congrArg (c :: ·) (ih hline)
    · have hpat : ¬ ['\r', '\n'] <+: c :: (line ++ '\n' :: rest) := by
        obtain ⟨d, line, rfl⟩ := List.exists_cons_of_ne_nil hnil
        rw [List.cons_append, List.cons_prefix_cons, List.cons_prefix_cons]
        exact fun hp => hline (hp.2.1 ▸ List.mem_cons_self)
      rw [normalizeNewlines, List.cons_append, replaceAll_cons hpat, ← normalizeNewlines, ih hline,
        stripCr_cons hnil]
      rfl

theorem normalizeNewlines_of_not_mem (h : '\n' ∉ line) : normalizeNewlines line = line :=
  replaceAll_of_absent fun hin => h (hin.subset (by simp))

theorem not_mem_stripCr (h : '\n' ∉ line) : '\n' ∉ stripCr line := by
  rw [stripCr]
  split
  · exact fun hmem => h (List.mem_of_mem_dropLast hmem)
  · exact h

/-- The line ends do not matter. -/
theorem anyLine_normalizeNewlines (h : IgnoresCr p) (s : Text) :
    anyLine p (normalizeNewlines s) = anyLine p s := by
  induction s using line_induction with
  | last line hline => rw [normalizeNewlines_of_not_mem hline]
  | above line rest hline ih =>
    rw [normalizeNewlines_append_cons hline, anyLine_append_cons, anyLine_append_cons, ih,
      anyLine_of_not_mem hline, anyLine_of_not_mem (not_mem_stripCr hline), h.stripCr]

theorem any_lines_normalizeNewlines (h : IgnoresCr p) (s : Text) :
    (lines (normalizeNewlines s)).any p = anyLine p s :=
  (any_lines h _).trans (anyLine_normalizeNewlines h s)

-- ════════════════════════════════════════════════════════════════════════
-- Margins
-- ════════════════════════════════════════════════════════════════════════

theorem trim_cons_ne_nil (hc : isWhitespace c = false) (s : Text) : trim (c :: s) ≠ [] := by
  have hstart : trimStart (c :: s) = c :: s := List.dropWhile_cons_of_neg (by simp [hc])
  rw [trim, hstart, trimEnd]
  intro hnil
  have hblank := List.rdropWhile_eq_nil_iff.mp hnil c List.mem_cons_self
  rw [hc] at hblank
  cases hblank

/-- A blank at the end of a line does not show in the trimmed line. -/
theorem trim_concat (hc : isWhitespace c = true) (line : Text) :
    trim (line ++ [c]) = trim line := by
  have hend : ∀ s : Text, trimEnd (s ++ [c]) = trimEnd s := fun s =>
    List.rdropWhile_concat_pos _ _ _ hc
  rw [trim, trim, trimStart, trimStart, List.dropWhile_append]
  split
  · next hblank =>
    rw [List.isEmpty_iff.mp hblank]
    simp [hc]
  · exact hend _

end Text
