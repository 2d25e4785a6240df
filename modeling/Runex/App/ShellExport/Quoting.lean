import Runex.App.BashStaticDispatcher
import Runex.Domain.Shell

/-!
# Placeholders in quoted texts

The quoting functions keep the characters of a placeholder and write none of them for another
character. So a quoted path or rule text contains a placeholder exactly when what the quoting kept
of it does.
-/

namespace Runex

open Placeholder
open Text (isAsciiControl)

theorem toNat_of_isTokenChar {c : Char} (h : isTokenChar c = true) :
    (65 ≤ c.toNat ∧ c.toNat ≤ 90) ∨ c.toNat = 95 ∨ c.toNat = 123 ∨ c.toNat = 125 := by
  simp only [isTokenChar, opens, isNameChar, Bool.or_eq_true, beq_iff_eq] at h
  rcases h with (rfl | h | rfl) | rfl
  · exact Or.inr (Or.inr (Or.inl rfl))
  · left
    obtain ⟨hlower, hupper⟩ := of_decide_eq_true h
    exact ⟨hlower, hupper⟩
  · exact Or.inr (Or.inl rfl)
  · exact Or.inr (Or.inr (Or.inr rfl))

theorem isUnsafeForDisplay_of_isTokenChar {c : Char} (h : isTokenChar c = true) :
    isUnsafeForDisplay c = false := by
  have hrange := toNat_of_isTokenChar h
  simp only [isUnsafeForDisplay, isAsciiControl, isUnicodeLineSeparator, isDeceptiveUnicode,
    isSoftHyphen, isCombiningGraphemeJoiner, isArabicLetterMark, isHangulFiller,
    isKhmerInvisibleVowel, isMongolianFreeVariationSelector, isZeroWidth, isBidiControl,
    isInvisibleOperator, isVariationSelector, isBom, isInterlinearAnnotation, isTag, inCharRange,
    Bool.or_eq_false_iff, Bool.and_eq_false_iff, decide_eq_false_iff_not, beq_eq_false_iff_ne]
  omega

theorem isTokenChar_ne {c d : Char} (h : isTokenChar c = true) (hd : isTokenChar d = false) :
    c ≠ d := by
  rintro rfl
  simp [h] at hd

theorem doubleQuoteEscape_of_isTokenChar {c : Char} (h : isTokenChar c = true) :
    doubleQuoteEscape c = none := by
  unfold doubleQuoteEscape
  split
  all_goals first | rfl | exact absurd h (by decide)

theorem eq_of_doubleQuoteEscape {c : Char} {escape : Text} (h : doubleQuoteEscape c = some escape) :
    ∃ d, escape = ['\\', d] ∧ isTokenChar d = false := by
  unfold doubleQuoteEscape at h
  split at h <;> first
    | exact ⟨_, (Option.some.inj h).symm, by decide⟩
    | exact absurd h (by simp)

theorem plain_of_doubleQuoteEscape {c : Char} {escape : Text}
    (h : doubleQuoteEscape c = some escape) : Plain escape := by
  obtain ⟨d, rfl, hd⟩ := eq_of_doubleQuoteEscape h
  intro e he
  simp only [List.mem_cons, List.not_mem_nil, or_false] at he
  rcases he with rfl | rfl
  · decide
  · exact hd

/-- A path in single quotes: the quote is escaped, what the shell cannot carry is dropped. -/
theorem quoting_singleQuoted {escape : Text} (hescape : Plain escape) :
    Quoting fun c => if c = '\'' then escape
      else if isAsciiControl c || isUnicodeLineSeparator c then [] else [c] := by
  intro c
  constructor
  · intro h
    have hquote : c ≠ '\'' := isTokenChar_ne h (by decide)
    have hplain := isUnsafeForDisplay_of_isTokenChar h
    simp only [isUnsafeForDisplay, Bool.or_eq_false_iff] at hplain
    simp [hplain, hquote]
  · intro h d hd
    simp only at hd
    split at hd
    · exact hescape d hd
    · split at hd <;> simp_all

theorem quoting_bashQuoteStringChar : Quoting bashQuoteStringChar :=
  quoting_singleQuoted (by decide)

theorem quoting_pwshQuoteStringChar : Quoting pwshQuoteStringChar :=
  quoting_singleQuoted (by decide)

theorem quoting_bashDoubleQuoteChar : Quoting bashDoubleQuoteChar := by
  intro c
  have hescape : ∀ d ∈ ['"', '\\', '$', '`'], isTokenChar d = false := by decide
  constructor
  · intro h
    have hnot : c ∉ ['"', '\\', '$', '`'] := fun hmem => by simpa [h] using hescape c hmem
    have hplain := isUnsafeForDisplay_of_isTokenChar h
    simp only [isUnsafeForDisplay, Bool.or_eq_false_iff] at hplain
    rw [bashDoubleQuoteChar, if_neg hnot, if_neg (by simp [hplain])]
  · intro h d hd
    unfold bashDoubleQuoteChar at hd
    split at hd
    · simp only [List.mem_cons, List.not_mem_nil, or_false] at hd
      rcases hd with rfl | rfl
      · decide
      · exact h
    · split at hd <;> simp_all

theorem isTokenChar_digitChar : ∀ n < 10, isTokenChar (Nat.digitChar n) = false := by decide

theorem quoting_luaQuoteChar : Quoting luaQuoteChar := by
  intro c
  constructor
  · intro h
    simp [luaQuoteChar, doubleQuoteEscape_of_isTokenChar h, isUnsafeForDisplay_of_isTokenChar h]
  · intro h d hd
    unfold luaQuoteChar at hd
    split at hd
    · next escape hescape => exact plain_of_doubleQuoteEscape hescape d hd
    · split at hd
      · simp only [List.mem_flatMap, List.mem_cons, decimalByte, List.not_mem_nil, or_false] at hd
        obtain ⟨byte, -, hd⟩ := hd
        have hbyte : byte.toNat < 256 := byte.toNat_lt
        rcases hd with rfl | rfl | rfl | rfl
        · decide
        · exact isTokenChar_digitChar _ (by omega)
        · exact isTokenChar_digitChar _ (by omega)
        · exact isTokenChar_digitChar _ (by omega)
      · simp_all

theorem luaQuoteChar_ne_nil (c : Char) : luaQuoteChar c ≠ [] := by
  unfold luaQuoteChar
  split
  · next escape hescape =>
    obtain ⟨d, rfl, -⟩ := eq_of_doubleQuoteEscape hescape
    simp
  · split
    · have hbytes := String.length_utf8EncodeChar c
      cases hutf8 : String.utf8EncodeChar c with
      | nil => simp [hutf8, Char.utf8Size_pos c |>.ne] at hbytes
      | cons byte bytes => simp
    · simp

theorem quoting_nuQuoteChar : Quoting nuQuoteChar := by
  intro c
  constructor
  · intro h
    simp [nuQuoteChar, doubleQuoteEscape_of_isTokenChar h, isNuDropChar,
      isUnsafeForDisplay_of_isTokenChar h, isTokenChar_ne h (by decide : isTokenChar '$' = false)]
  · intro h d hd
    unfold nuQuoteChar at hd
    split at hd
    · next escape hescape => exact plain_of_doubleQuoteEscape hescape d hd
    · split at hd
      · revert d; decide
      · split at hd <;> simp_all

/-- The passes of `nu_quote_string_embedded` on one character. -/
def nuEmbeddedChar (c : Char) : Text := nuEmbed (nuQuoteChar c)

/-- The second pass reads on after a backslash only when a `$` follows. -/
theorem nuEmbed_append (s : Text) {t : Text} (ht : t.head? ≠ some '$') :
    nuEmbed (s ++ t) = nuEmbed s ++ nuEmbed t := by
  induction s using nuEmbed.induct with
  | case1 => rfl
  | case2 s ih => simp [nuEmbed, ih]
  | case3 s hdollar ih =>
    have hlong : ∀ rest, s ++ t ≠ '$' :: rest := by
      intro rest heq
      cases s with
      | nil => exact ht (by rw [← List.nil_append t, heq]; rfl)
      | cons c s => exact hdollar s (by rw [(List.cons.inj heq).1])
    rw [List.cons_append, nuEmbed.eq_3 _ hlong, nuEmbed.eq_3 _ hdollar, ih]
    rfl
  | case4 s ih => simp [nuEmbed, ih]
  | case5 c s hescape hslash hquote ih =>
    have hstep : ∀ u, nuEmbed (c :: u) = c :: nuEmbed u :=
      fun u => nuEmbed.eq_5 c u (fun _ hc _ => hslash hc) hslash hquote
    rw [List.cons_append, hstep, hstep, ih]
    rfl

theorem head?_nuQuoteChar (c : Char) : (nuQuoteChar c).head? ≠ some '$' := by
  unfold nuQuoteChar
  split
  · next escape hescape =>
    obtain ⟨d, rfl, -⟩ := eq_of_doubleQuoteEscape hescape
    simp
  · split
    · decide
    · next hdollar => split <;> simp [hdollar]

theorem head?_nuQuoteString (value : Text) :
    (value.flatMap nuQuoteChar ++ ['"']).head? ≠ some '$' := by
  induction value with
  | nil => decide
  | cons c value ih =>
    rw [List.flatMap_cons, List.append_assoc, List.head?_append]
    have hc := head?_nuQuoteChar c
    cases hhead : (nuQuoteChar c).head? with
    | none => simpa using ih
    | some d => simpa [hhead] using hc

/-- The two passes act on the characters one by one. -/
theorem nuQuoteStringEmbedded_eq (value : Text) : nuQuoteStringEmbedded value =
    ['^', '\\', '"'] ++ (value.flatMap nuEmbeddedChar ++ ['\\', '"']) := by
  have hpieces : nuEmbed (value.flatMap nuQuoteChar ++ ['"']) =
      value.flatMap nuEmbeddedChar ++ ['\\', '"'] := by
    induction value with
    | nil => rfl
    | cons c value ih =>
      rw [List.flatMap_cons, List.append_assoc, nuEmbed_append _ (head?_nuQuoteString value), ih,
        List.flatMap_cons, List.append_assoc]
      rfl
  simp [nuQuoteStringEmbedded, nuQuoteString, nuEmbed, hpieces]

theorem plain_nuEmbed {s : Text} (h : Plain s) : Plain (nuEmbed s) := by
  unfold Plain at *
  induction s using nuEmbed.induct with
  | case1 => simp [nuEmbed]
  | case2 s ih => simp_all [nuEmbed]
  | case3 s hdollar ih => rw [nuEmbed.eq_3 _ hdollar]; simp_all
  | case4 s ih =>
    have hslash : isTokenChar '\\' = false := by decide
    simp_all [nuEmbed]
  | case5 c s hescape hslash hquote ih =>
    rw [nuEmbed.eq_5 c s hescape hslash hquote]
    simp_all

theorem nuEmbed_eq_nil {s : Text} : nuEmbed s = [] ↔ s = [] := by
  unfold nuEmbed
  split <;> simp

theorem quoting_nuEmbeddedChar : Quoting nuEmbeddedChar := by
  intro c
  constructor
  · intro h
    have hquoted := (quoting_nuQuoteChar c).1 h
    have hslash : c ≠ '\\' := isTokenChar_ne h (by decide)
    have hquote : c ≠ '"' := isTokenChar_ne h (by decide)
    rw [nuEmbeddedChar, hquoted, nuEmbed.eq_5 c [] (fun _ hc _ => hslash hc) hslash hquote, nuEmbed]
  · intro h
    exact plain_nuEmbed ((quoting_nuQuoteChar c).2 h)

/-- The second pass drops nothing. -/
theorem kept_nuEmbeddedChar (value : Text) : kept nuEmbeddedChar value = kept nuQuoteChar value := by
  refine List.filter_congr fun c _ => ?_
  rw [nuEmbeddedChar, Bool.eq_iff_iff]
  simp [nuEmbed_eq_nil]

section Free

variable {names : List Text} (hnames : ∀ n ∈ names, IsName n) (value : Text)

include hnames

theorem free_bashQuoteString :
    Free names (bashQuoteString value) ↔ Free names (kept bashQuoteStringChar value) :=
  free_quoted quoting_bashQuoteStringChar hnames ['\''] ['\''] (by decide) (by decide) value

theorem free_pwshQuoteString :
    Free names (pwshQuoteString value) ↔ Free names (kept pwshQuoteStringChar value) :=
  free_quoted quoting_pwshQuoteStringChar hnames ['\''] ['\''] (by decide) (by decide) value

theorem free_bashDoubleQuoteForAssoc :
    Free names (bashDoubleQuoteForAssoc value) ↔ Free names (kept bashDoubleQuoteChar value) :=
  free_quoted quoting_bashDoubleQuoteChar hnames ['"'] ['"'] (by decide) (by decide) value

/-- The Lua literal keeps every character. -/
theorem free_luaQuoteString : Free names (luaQuoteString value) ↔ Free names value := by
  have hkept : kept luaQuoteChar value = value := by
    exact List.filter_eq_self.mpr fun c _ => by simpa using luaQuoteChar_ne_nil c
  have hquoted := free_quoted quoting_luaQuoteChar hnames ['"'] ['"'] (by decide) (by decide) value
  rwa [hkept] at hquoted

theorem free_nuQuoteStringEmbedded :
    Free names (nuQuoteStringEmbedded value) ↔ Free names (kept nuQuoteChar value) := by
  rw [nuQuoteStringEmbedded_eq, ← kept_nuEmbeddedChar]
  exact free_quoted quoting_nuEmbeddedChar hnames _ _ (by decide) (by decide) value

end Free

end Runex
