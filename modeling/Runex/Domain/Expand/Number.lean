import Runex.Domain.Expand

/-!
# Counts in keys

A `{number}` key is a text before the placeholder and one after it. It matches a token that is the
same two texts around a numeral whose value is a count the program repeats.

## Main definitions

- `IsNumeral` — a non-empty string of ASCII digits
- `numeralValue` — the number it denotes

## Main results

- `splitOnceNumberPlaceholder_eq_some` — when a key splits
- `matchAbbrKey_eq_some` — what matches a key that splits
-/

namespace Runex

open Search
open Text (isAsciiDigit)

theorem numberPlaceholder_ne_nil : numberPlaceholder ≠ [] := by decide

/-- A non-empty string of ASCII digits. -/
def IsNumeral (digits : Text) : Prop := digits ≠ [] ∧ ∀ c ∈ digits, isAsciiDigit c = true

instance (digits : Text) : Decidable (IsNumeral digits) := inferInstanceAs (Decidable (_ ∧ _))

/-- The number a numeral denotes. -/
def numeralValue (digits : Text) : ℕ := Nat.ofDigitChars 10 digits 0

theorem splitOnceNumberPlaceholder_eq_some {key pre suf : Text} :
    splitOnceNumberPlaceholder key = some (pre, suf) ↔
      splitOnce numberPlaceholder key = some (pre, suf) ∧ '{' ∉ pre ∧ '{' ∉ suf := by
  unfold splitOnceNumberPlaceholder
  cases hsplit : splitOnce numberPlaceholder key with
  | none => simp
  | some parts =>
    obtain ⟨p, s⟩ := parts
    by_cases hbrace : '{' ∈ p ∨ '{' ∈ s
    · simp only [hbrace, if_true, reduceCtorEq, false_iff, not_and, Option.some.injEq,
        Prod.mk.injEq]
      rintro ⟨rfl, rfl⟩ hpre hsuf
      exact hbrace.elim hpre hsuf
    · simp only [hbrace, if_false, Option.some.injEq, Prod.mk.injEq, iff_self_and]
      rintro ⟨rfl, rfl⟩
      exact not_or.mp hbrace

/-- A key that splits has one `{number}` only. -/
theorem splitOnceNumberPlaceholder_of_parts {key pre suf pre' suf' : Text}
    (hkey : key = pre ++ (numberPlaceholder ++ suf))
    (h : splitOnceNumberPlaceholder key = some (pre', suf')) :
    splitOnceNumberPlaceholder key = some (pre, suf) := by
  obtain ⟨hsplit, hpre', hsuf'⟩ := splitOnceNumberPlaceholder_eq_some.mp h
  obtain ⟨name, hname⟩ : ∃ name, numberPlaceholder = '{' :: name := ⟨_, rfl⟩
  have hkey' := eq_append_of_splitOnce hsplit
  rw [hname, List.cons_append] at hkey hkey'
  have hclose : '{' ∉ name := by
    obtain rfl := (List.cons.inj hname).2
    decide
  -- The brace of the placeholder is the only one of the key.
  have hpre : '{' ∉ pre := by
    have hcount := congrArg (List.count '{') (hkey.symm.trans hkey')
    simp only [List.count_append, List.count_cons_self, List.count_eq_zero.mpr hpre',
      List.count_eq_zero.mpr hsuf'] at hcount
    exact List.count_eq_zero.mp (by omega)
  have hcut : splitOnce ['{'] key = some (pre, name ++ suf) :=
    splitOnce_singleton_eq_some.mpr ⟨hkey, hpre⟩
  have hcut' : splitOnce ['{'] key = some (pre', name ++ suf') :=
    splitOnce_singleton_eq_some.mpr ⟨hkey', hpre'⟩
  rw [hcut, Option.some.injEq, Prod.mk.injEq] at hcut'
  rw [h, hcut'.1, List.append_cancel_left hcut'.2]

/-- A key that splits matches the numerals of counts between its parts. -/
theorem matchAbbrKey_eq_some {key pre suf token : Text} {bindings : Bindings} (hbrace : '{' ∈ key)
    (hsplit : splitOnceNumberPlaceholder key = some (pre, suf)) :
    matchAbbrKey key token = some bindings ↔ ∃ digits, IsNumeral digits ∧
      token = pre ++ (digits ++ suf) ∧ 1 ≤ numeralValue digits ∧ numeralValue digits ≤ 128 ∧
      bindings = { number := some (numeralValue digits) } := by
  simp only [matchAbbrKey, hbrace, not_true_eq_false, if_false, hsplit, Option.bind_eq_bind,
    Option.bind_eq_some_iff, stripPrefix?_eq_some, stripSuffix?_eq_some]
  constructor
  · rintro ⟨rest, htoken, digits, rfl, h⟩
    split at h
    · cases h
    · next hdigits =>
      rw [not_or, not_not, List.all_eq_true] at hdigits
      obtain ⟨n, hn, h⟩ := Option.bind_eq_some_iff.mp h
      simp only [parseU32, Option.ite_none_right_eq_some, Option.some.injEq] at hn
      obtain ⟨-, rfl⟩ := hn
      split at h
      · cases h
      · next hrange =>
        rw [not_or] at hrange
        exact ⟨digits, hdigits, htoken, Nat.pos_of_ne_zero hrange.1, Nat.le_of_not_lt hrange.2,
          (Option.some.inj h).symm⟩
  · rintro ⟨digits, ⟨hne, hdigits⟩, htoken, hpos, hle, rfl⟩
    refine ⟨digits ++ suf, htoken, digits, rfl, ?_⟩
    have hsmall : numeralValue digits < 2 ^ 32 := by omega
    have hparse : parseU32 digits = some (numeralValue digits) := if_pos hsmall
    have hrange : ¬ (numeralValue digits = 0 ∨ numeralValue digits > maxNumericRepeat) := by
      rw [maxNumericRepeat]
      omega
    rw [if_neg (by simpa [hne] using hdigits), hparse, Option.bind_some, if_neg hrange]

end Runex
