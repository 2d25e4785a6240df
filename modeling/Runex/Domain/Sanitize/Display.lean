import Runex.Domain.Shell
import Runex.Domain.Sanitize

/-!
# Text that is safe to print

## Main definitions

- `sanitizeMultilineForDisplay` — the sanitizer that keeps lines and tabs
- `isShown` — a text without characters that are unsafe to print
- `isShownMultiline` — the same, apart from what ends a line, and tabs

## Main results

- `newline_not_mem_of_isShown` — a text that is safe to print is one line
-/

namespace Runex

/-- What stands between the words of a text of several lines. -/
def isLayout (c : Char) : Bool := c == '\n' || c == '\r' || c == '\t'

/-- `sanitize_multiline_for_display`. -/
def sanitizeMultilineForDisplay (s : Text) : Text :=
  s.filter fun c => isLayout c || !isUnsafeForDisplay c

/-- No character is unsafe to print. -/
def isShown (s : Text) : Bool := s.all fun c => !isUnsafeForDisplay c

def isShownMultiline (s : Text) : Bool := s.all fun c => isLayout c || !isUnsafeForDisplay c

variable {s t : Text} {c : Char}

@[simp] theorem isShown_nil : isShown [] = true := rfl

@[simp] theorem isShown_append :
    isShown (s ++ t) = true ↔ isShown s = true ∧ isShown t = true := by
  rw [isShown, List.all_append, Bool.and_eq_true]
  rfl

@[simp] theorem isShown_cons :
    isShown (c :: s) = true ↔ isUnsafeForDisplay c = false ∧ isShown s = true := by
  rw [isShown, List.all_cons, Bool.and_eq_true, Bool.not_eq_true']
  rfl

@[simp] theorem isShown_sanitizeForDisplay (s : Text) : isShown (sanitizeForDisplay s) = true :=
  List.all_eq_true.mpr fun _ hmem => (List.mem_filter.mp hmem).2

@[simp] theorem isShownMultiline_append :
    isShownMultiline (s ++ t) = true ↔ isShownMultiline s = true ∧ isShownMultiline t = true := by
  rw [isShownMultiline, List.all_append, Bool.and_eq_true]
  rfl

@[simp] theorem isShownMultiline_sanitizeMultilineForDisplay (s : Text) :
    isShownMultiline (sanitizeMultilineForDisplay s) = true :=
  List.all_eq_true.mpr fun _ hmem => (List.mem_filter.mp hmem).2

theorem isShownMultiline_of_isShown (h : isShown s = true) : isShownMultiline s = true :=
  List.all_eq_true.mpr fun c hmem =>
    Bool.or_eq_true_iff.mpr (Or.inr (List.all_eq_true.mp h c hmem))

theorem newline_not_mem_of_isShown (h : isShown s = true) : '\n' ∉ s := by
  intro hmem
  exact absurd (List.all_eq_true.mp h _ hmem) (by decide)

/-- What is printable ASCII is safe to print. -/
theorem isUnsafeForDisplay_of_ascii (hlo : 0x20 ≤ c.toNat) (hhi : c.toNat < 0x7F) :
    isUnsafeForDisplay c = false := by
  have hrange : ∀ lo hi, 0x7F ≤ lo → inCharRange lo hi c = false := fun lo hi hlo =>
    Bool.and_eq_false_imp.mpr fun h => absurd (of_decide_eq_true h) (by omega)
  have hpoint : ∀ n, 0x7F ≤ n → (c.toNat == n) = false := fun n hn => by
    rw [beq_eq_false_iff_ne]
    omega
  have hcontrol : Text.isAsciiControl c = false := by
    rw [Text.isAsciiControl, hpoint _ (by omega), Bool.or_false, decide_eq_false_iff_not]
    omega
  simp [isUnsafeForDisplay, isUnicodeLineSeparator, isDeceptiveUnicode, isSoftHyphen,
    isCombiningGraphemeJoiner, isArabicLetterMark, isHangulFiller, isKhmerInvisibleVowel,
    isMongolianFreeVariationSelector, isZeroWidth, isBidiControl, isInvisibleOperator,
    isVariationSelector, isBom, isInterlinearAnnotation, isTag, hrange, hpoint, hcontrol]

/-- What the texts of the program are made of: printable ASCII, and the dash. -/
def isPlain (c : Char) : Bool := (0x20 ≤ c.toNat && c.toNat < 0x7F) || c.toNat == 0x2014

theorem isUnsafeForDisplay_of_isPlain (h : isPlain c = true) : isUnsafeForDisplay c = false := by
  simp only [isPlain, Bool.or_eq_true, Bool.and_eq_true, decide_eq_true_eq, beq_iff_eq] at h
  rcases h with ⟨hlo, hhi⟩ | hdash
  · exact isUnsafeForDisplay_of_ascii hlo hhi
  · obtain rfl : c = '—' := Char.toNat_inj.mp hdash
    rfl

theorem isShown_literal {l : Text} (h : l.all isPlain = true) :
    isShown (String.ofList l).toList = true := by
  rw [String.toList_ofList]
  refine List.all_eq_true.mpr fun c hmem => ?_
  rw [isUnsafeForDisplay_of_isPlain (List.all_eq_true.mp h c hmem)]
  rfl

theorem isShown_singleton (h : isPlain c = true) : isShown [c] = true :=
  isShown_cons.mpr ⟨isUnsafeForDisplay_of_isPlain h, rfl⟩

@[simp] theorem isShown_decimal (n : ℕ) : isShown (decimal n) = true := by
  refine List.all_eq_true.mpr fun c hmem => ?_
  have hdigit : c.isDigit = true := Nat.isDigit_of_mem_toDigits (by omega) (by omega) hmem
  rw [Char.isDigit, Bool.and_eq_true, decide_eq_true_eq, decide_eq_true_eq] at hdigit
  have hlo : 0x30 ≤ c.toNat := UInt32.le_iff_toNat_le.mp hdigit.1
  have hhi : c.toNat ≤ 0x39 := UInt32.le_iff_toNat_le.mp hdigit.2
  rw [isUnsafeForDisplay_of_ascii (by omega) (by omega)]
  rfl

end Runex
