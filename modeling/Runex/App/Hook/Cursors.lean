import Mathlib.Order.Monotone.Basic
import Runex.App.Hook
import Runex.Lib.TakeWithin

/-!
# Carets in three units

A caret in characters or in UTF-16 code units is a budget: the byte offset it stands for is the
length of the longest prefix of the line within it. So the conversions are inverse to each other
on character boundaries, round down inside a surrogate pair, and stop at the end of the line.

## Main definitions

- `ConvertsCursors` — a unit, with its conversions to and from byte offsets
- `InsideSurrogatePair` — a UTF-16 caret between the halves of a character

## Main results

- `utf16CursorToByte_eq` — the UTF-16 loop finds the longest prefix within the caret
- `cursors_round_trip` — both units convert
-/

namespace Runex

open TakeWithin
open Text (byteLen utf16Len utf16Size utf16Size_pos IsBoundary)

/-- The caret is between the two halves of a character outside the Basic Multilingual Plane. -/
def InsideSurrogatePair (line : Text) (cursor : ℕ) : Prop :=
  ∃ left c right, line = left ++ c :: right ∧ utf16Size c = 2 ∧ cursor = utf16Len left + 1

/-- Carets of a line in a unit in which it has length `unitLen`, as byte offsets and back. -/
structure ConvertsCursors (line : Text) (unitLen : ℕ) (toByte ofByte : ℕ → ℕ) : Prop where
  round_trip : ∀ b, IsBoundary line b → toByte (ofByte b) = b
  boundary : ∀ cursor, IsBoundary line (toByte cursor)
  le_byteLen : ∀ cursor, toByte cursor ≤ byteLen line
  mono : Monotone toByte
  clamp : ∀ cursor, unitLen ≤ cursor → toByte cursor = byteLen line

/-- Conversion by the longest prefix within the caret, which counts characters of positive size. -/
theorem convertsCursors_of_takeWithin {line : Text} {size : Char → ℕ} {toByte ofByte : ℕ → ℕ}
    (hpos : ∀ c, 0 < size c)
    (htoByte : ∀ cursor, toByte cursor = byteLen (takeWithin size cursor line))
    (hofByte : ∀ left right, line = left ++ right → ofByte (byteLen left) = total size left) :
    ConvertsCursors line (total size line) toByte ofByte where
  round_trip := by
    rintro b ⟨left, right, hline, rfl⟩
    rw [hofByte left right hline, htoByte, hline]
    cases right with
    | nil => rw [List.append_nil, takeWithin_of_le (Nat.le_refl _)]
    | cons c right =>
      have htake := takeWithin_append left right c (hpos c)
      rw [Nat.add_zero] at htake
      rw [htake]
  boundary := by
    intro cursor
    obtain ⟨right, hline⟩ := takeWithin_prefix size cursor line
    exact ⟨_, right, hline.symm, (htoByte cursor).symm⟩
  le_byteLen := by
    intro cursor
    obtain ⟨right, hline⟩ := takeWithin_prefix size cursor line
    calc toByte cursor = byteLen (takeWithin size cursor line) := htoByte cursor
      _ ≤ byteLen (takeWithin size cursor line) + byteLen right := Nat.le_add_right _ _
      _ = byteLen line := by rw [← Text.byteLen_append, hline]
  mono := by
    intro small large hle
    obtain ⟨more, hmore⟩ := takeWithin_isPrefix size hle line
    rw [htoByte, htoByte, ← hmore, Text.byteLen_append]
    exact Nat.le_add_right _ _
  clamp := by
    intro cursor hle
    rw [htoByte, takeWithin_of_le hle]

theorem total_one (s : Text) : total (fun _ => 1) s = s.length := by
  simp [total]

theorem takeWithin_one (k : ℕ) (s : Text) : takeWithin (fun _ => 1) k s = s.take k := by
  induction s generalizing k with
  | nil => simp [takeWithin]
  | cons c s ih =>
    cases k with
    | zero => simp [takeWithin]
    | succ k => simp [takeWithin, ih]

/-- From a character on, with as much of the caret consumed as the text before it is long. -/
theorem utf16CursorToByteGo_eq (cursor : ℕ) (s : Text) {consumed : ℕ} (byteIdx : ℕ)
    (hle : consumed ≤ cursor) :
    utf16CursorToByteGo cursor s consumed byteIdx =
      byteIdx + byteLen (takeWithin utf16Size (cursor - consumed) s) := by
  induction s generalizing consumed byteIdx with
  | nil => rfl
  | cons c s ih =>
    have hpos := utf16Size_pos c
    simp only [utf16CursorToByteGo, takeWithin]
    by_cases hfits : utf16Size c ≤ cursor - consumed
    · have hrest : cursor - consumed - utf16Size c = cursor - (consumed + utf16Size c) := by omega
      rw [if_neg (by omega), if_neg (by omega), if_pos hfits, ih _ (by omega), hrest,
        Text.byteLen_cons, Nat.add_assoc]
    · have hover : consumed + utf16Size c > cursor := by omega
      rw [if_neg hfits, if_pos hover, ite_self]
      rfl

theorem utf16CursorToByte_eq (line : Text) (cursor : ℕ) :
    utf16CursorToByte line cursor = byteLen (takeWithin utf16Size cursor line) := by
  rw [utf16CursorToByte, utf16CursorToByteGo_eq cursor line 0 (Nat.zero_le _), Nat.sub_zero,
    Nat.zero_add]

theorem convertsCursors_char (line : Text) :
    ConvertsCursors line line.length (charCursorToByte line) (byteCursorToChar line) := by
  rw [← total_one line]
  refine convertsCursors_of_takeWithin (fun _ => Nat.one_pos) (fun cursor => ?_) ?_
  · rw [charCursorToByte_eq, takeWithin_one]
  · rintro left right rfl
    rw [byteCursorToChar_append, total_one]

theorem convertsCursors_utf16 (line : Text) :
    ConvertsCursors line (utf16Len line) (utf16CursorToByte line) (byteCursorToUtf16 line) := by
  refine convertsCursors_of_takeWithin utf16Size_pos (utf16CursorToByte_eq line) ?_
  rintro left right rfl
  exact byteCursorToUtf16_append left right

theorem byteCursorToChar_charCursorToByte {line : Text} {cursor : ℕ} (h : cursor ≤ line.length) :
    byteCursorToChar line (charCursorToByte line cursor) = cursor := by
  have hsplit := byteCursorToChar_append (line.take cursor) (line.drop cursor)
  rw [List.take_append_drop, List.length_take, Nat.min_eq_left h] at hsplit
  rw [charCursorToByte_eq, hsplit]

/-- Back in UTF-16 code units, the caret is where the longest prefix within it ends. -/
theorem byteCursorToUtf16_utf16CursorToByte (line : Text) (cursor : ℕ) :
    byteCursorToUtf16 line (utf16CursorToByte line cursor) =
      utf16Len (takeWithin utf16Size cursor line) := by
  obtain ⟨right, hline⟩ := takeWithin_prefix utf16Size cursor line
  have happend := byteCursorToUtf16_append (takeWithin utf16Size cursor line) right
  rwa [hline, ← utf16CursorToByte_eq] at happend

/-- Inside a pair the longest prefix ends before the pair. -/
theorem utf16Len_takeWithin_inside {line : Text} {cursor : ℕ} (h : InsideSurrogatePair line cursor) :
    utf16Len (takeWithin utf16Size cursor line) = cursor - 1 := by
  obtain ⟨left, c, right, rfl, hsize, rfl⟩ := h
  have htake := takeWithin_append left right c (show 1 < utf16Size c by omega)
  rw [show utf16Len left = total utf16Size left from rfl, htake]
  rfl

/-- Elsewhere it ends at the caret. -/
theorem utf16Len_takeWithin_outside {line : Text} {cursor : ℕ} (hle : cursor ≤ utf16Len line)
    (h : ¬ InsideSurrogatePair line cursor) :
    utf16Len (takeWithin utf16Size cursor line) = cursor := by
  obtain ⟨hall, hlen⟩ | ⟨c, right, hline, hlow, hhigh⟩ := split_takeWithin utf16Size cursor line
  · rw [hall]
    exact Nat.le_antisymm hlen hle
  · by_contra hne
    have hsize : utf16Size c ≤ 2 := by
      unfold utf16Size
      split <;> omega
    change total utf16Size (takeWithin utf16Size cursor line) ≠ cursor at hne
    refine h ⟨_, c, right, hline, by omega, ?_⟩
    change cursor = total utf16Size (takeWithin utf16Size cursor line) + 1
    omega

/-- **Cursor conversions round-trip.** In both units, every boundary byte offset comes back from
    its caret, and every caret gives a boundary of the line, later carets later ones, and carets at
    or past the end of the line its end. Back from bytes, a caret within the line is itself; in
    UTF-16 code units one inside a surrogate pair is the one before the pair. -/
theorem cursors_round_trip (line : Text) :
    ConvertsCursors line line.length (charCursorToByte line) (byteCursorToChar line) ∧
    ConvertsCursors line (utf16Len line) (utf16CursorToByte line) (byteCursorToUtf16 line) ∧
    (∀ cursor ≤ line.length, byteCursorToChar line (charCursorToByte line cursor) = cursor) ∧
    ∀ cursor ≤ utf16Len line,
      (¬ InsideSurrogatePair line cursor →
        byteCursorToUtf16 line (utf16CursorToByte line cursor) = cursor) ∧
      (InsideSurrogatePair line cursor →
        byteCursorToUtf16 line (utf16CursorToByte line cursor) = cursor - 1) := by
  refine ⟨convertsCursors_char line, convertsCursors_utf16 line,
    fun cursor hle => byteCursorToChar_charCursorToByte hle, fun cursor hle => ⟨?_, ?_⟩⟩
  · intro hout
    rw [byteCursorToUtf16_utf16CursorToByte, utf16Len_takeWithin_outside hle hout]
  · intro hin
    rw [byteCursorToUtf16_utf16CursorToByte, utf16Len_takeWithin_inside hin]

/-- Inside the emoji the caret rounds down, past the line it stops at the end. -/
example : byteCursorToUtf16 "é🎯x".toList (utf16CursorToByte "é🎯x".toList 2) = 1 ∧
    utf16CursorToByte "é🎯x".toList 9 = 7 := by decide

end Runex
