import Runex.App.ShellExport.Quoting
import Runex.Domain.Integration.Literals

/-!
# The name of the binary in a string of nu

A nu binding holds the command to run as a string, so the name of the binary is a literal in a
literal. What is written for it is read by the outer string as a caret and a literal, and that is
read as the name.

## Main definitions

- `nuInnerChar` — what the outer string makes of the escapes of one character

## Main results

- `nuQuoteStringEmbedded_decodes` — both readings of the name
-/

namespace Runex

open ShellLiteral

/-- One character of the inner literal. A `$` stands for itself there. -/
def nuInnerChar (c : Char) : Text :=
  match doubleQuoteEscape c with
  | some escape => escape
  | none => if c = '$' then ['$'] else if isNuDropChar c then [] else [c]

/-- The inner literal. -/
def nuInnerLiteral (value : Text) : Text := '"' :: (value.flatMap nuInnerChar ++ ['"'])

theorem doubleQuoteEscape_eq_none {c : Char} (h : c ∉ ['\\', '"', '\n', '\r', '\t', '$']) :
    doubleQuoteEscape c = none := by
  unfold doubleQuoteEscape
  split <;> simp_all

/-- A character without an escape, in both literals. -/
theorem nuPlainChar {c : Char} (h : c ∉ ['\\', '"', '\n', '\r', '\t', '$']) :
    nuInnerChar c = (if isNuDropChar c = true then [] else [c]) ∧
      nuEmbeddedChar c = (if isNuDropChar c = true then [] else [c]) ∧
      nuString.step .inside c = .move .inside [c] := by
  have hnone := doubleQuoteEscape_eq_none h
  simp only [List.mem_cons, List.not_mem_nil, or_false, not_or] at h
  obtain ⟨hslash, hquote, -, -, -, hdollar⟩ := h
  have hpiece : nuQuoteChar c = if isNuDropChar c = true then [] else [c] := by
    simp [nuQuoteChar, hnone, hdollar]
  refine ⟨by simp [nuInnerChar, hnone, hdollar], ?_, by simp [nuString, nuStep, hquote, hslash]⟩
  rw [nuEmbeddedChar, hpiece]
  split
  · rfl
  · rw [nuEmbed.eq_5 c [] (fun _ hc _ => hslash hc) hslash hquote]
    rfl

/-- The outer string reads the character of the inner literal. -/
theorem drive_nuEmbeddedChar (c : Char) :
    nuString.drive .inside (nuEmbeddedChar c) = some (.inside, nuInnerChar c) := by
  by_cases hspecial : c ∈ ['\\', '"', '\n', '\r', '\t', '$']
  · revert c
    decide
  · obtain ⟨hinner, hembedded, hstep⟩ := nuPlainChar hspecial
    rw [hinner, hembedded]
    exact drive_kept hstep isNuDropChar

/-- The inner literal reads the character itself. -/
theorem drive_nuInnerChar (c : Char) :
    nuString.drive .inside (nuInnerChar c) =
      some (.inside, if isNuDropChar c = true then [] else [c]) := by
  by_cases hspecial : c ∈ ['\\', '"', '\n', '\r', '\t', '$']
  · revert c
    decide
  · obtain ⟨hinner, -, hstep⟩ := nuPlainChar hspecial
    rw [hinner]
    exact drive_kept hstep isNuDropChar

theorem drive_nuQuoteStringEmbedded (value : Text) :
    nuString.drive .inside (nuQuoteStringEmbedded value) =
      some (.inside, '^' :: nuInnerLiteral value) := by
  have hopen : nuString.drive .inside ['^', '\\', '"'] = some (.inside, ['^', '"']) := by decide
  have hclose : nuString.drive .inside ['\\', '"'] = some (.inside, ['"']) := by decide
  have hpieces : nuString.drive .inside (value.flatMap nuEmbeddedChar) =
      some (.inside, value.flatMap nuInnerChar) :=
    Scanner.drive_flatMap fun c _ => drive_nuEmbeddedChar c
  rw [nuQuoteStringEmbedded_eq]
  exact Scanner.drive_append hopen (Scanner.drive_append hpieces hclose)

theorem scan_nuInnerLiteral (value rest : Text) :
    nuString.scan .start (nuInnerLiteral value ++ rest) =
      some (without isNuDropChar value, rest) := by
  have h : nuString.scan .start (['"'] ++ (value.flatMap nuInnerChar ++ ['"']) ++ rest) =
      some (value.flatMap fun c => if isNuDropChar c = true then [] else [c], rest) :=
    Scanner.scan_delimited rfl (fun c _ => drive_nuInnerChar c) rfl (nuString_ends rest)
  rwa [flatMap_kept] at h

/-- The name does not close the outer string: no beginning of what is written for it is a whole
    string. -/
theorem not_closed_by_prefix {value part : Text} (h : part <+: nuQuoteStringEmbedded value) :
    ∃ mode read, nuString.drive .inside part = some (mode, read) ∧ mode ≠ .done := by
  obtain ⟨tail, htail⟩ := h
  have hall := drive_nuQuoteStringEmbedded value
  rw [← htail] at hall
  obtain ⟨mode, read, after, hpart, hrest, -⟩ := Scanner.exists_of_drive_append hall
  refine ⟨mode, read, hpart, ?_⟩
  rintro rfl
  cases tail with
  | nil => cases hrest
  | cons c tail =>
    obtain ⟨_, _, _, hstep, -⟩ := Scanner.move_of_drive_cons hrest
    cases hstep

/-- In an outer nu string what is written for a name stays inside, and is read as a caret and one
    literal; the value of the literal is the name without the characters that are dropped. -/
theorem nuQuoteStringEmbedded_decodes (value : Text) : ∃ literal : Text,
    (∀ part, part <+: nuQuoteStringEmbedded value →
      ∃ mode read, nuString.drive .inside part = some (mode, read) ∧ mode ≠ .done) ∧
    (∀ after, nuString.scan .inside (nuQuoteStringEmbedded value ++ after) =
      (nuString.scan .inside after).map fun (read, rest) => ('^' :: literal ++ read, rest)) ∧
    nuString.scan .start literal = some (value.filter fun c => !isNuDropChar c, []) := by
  refine ⟨nuInnerLiteral value, fun part h => not_closed_by_prefix h, fun after => ?_, ?_⟩
  · exact Scanner.scan_append (drive_nuQuoteStringEmbedded value) after
  · have h := scan_nuInnerLiteral value []
    rwa [List.append_nil] at h

/-- A backslash and a `$` in a name. -/
example : nuQuoteStringEmbedded "\\$".toList = "^\\\"\\\\\\\\\\$\\\"".toList ∧
    nuString.scan .inside ("^\\\"\\\\\\\\\\$\\\"\"".toList) =
      some ("^\"\\\\$\"".toList, []) := by
  decide

end Runex
