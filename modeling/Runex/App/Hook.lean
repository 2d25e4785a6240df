import Runex.Domain.Hook

/-!
# Cursor units

Shells count the caret in their own unit: UTF-16 code units for PowerShell, characters for the
others. The hook works on byte offsets; the conversions live here, on the way in and on the way
out.

## Main definitions

- `shellCursorToByte` — the caret of a shell as a byte offset
- `render` — the eval text of an action whose cursor is a byte offset
- `insertSpaceAction` — the space of the short-circuit paths
-/

namespace Runex

open Text (byteLen utf16Len utf16Size charIndices sliceTo? sliceFrom?)

/-- `line.char_indices().nth(char_cursor)`, or the end of the line. -/
def charCursorToByte (line : Text) (charCursor : ℕ) : ℕ :=
  match (charIndices line)[charCursor]? with
  | some (byteIdx, _) => byteIdx
  | none => byteLen line

/-- The search of `byte_cursor_to_char`: the first character that ends after the cursor. -/
def byteCursorToCharGo (byteCursor : ℕ) : Text → ℕ → ℕ → Option ℕ
  | [], _, _ => none
  | c :: s, charIdx, byteIdx =>
    if byteCursor < byteIdx + c.utf8Size then some charIdx
    else byteCursorToCharGo byteCursor s (charIdx + 1) (byteIdx + c.utf8Size)

def byteCursorToChar (line : Text) (byteCursor : ℕ) : ℕ :=
  if byteCursor ≥ byteLen line then line.length
  else (byteCursorToCharGo byteCursor line 0 0).getD line.length

/-- The loop of `utf16_cursor_to_byte`, at a character that starts at `byteIdx`. -/
def utf16CursorToByteGo (utf16Cursor : ℕ) : Text → ℕ → ℕ → ℕ
  | [], _, byteIdx => byteIdx
  | c :: s, consumedUtf16, byteIdx =>
    if consumedUtf16 = utf16Cursor then byteIdx
    -- The cursor is inside this character: round down to its start.
    else if consumedUtf16 + utf16Size c > utf16Cursor then byteIdx
    else utf16CursorToByteGo utf16Cursor s (consumedUtf16 + utf16Size c) (byteIdx + c.utf8Size)

def utf16CursorToByte (line : Text) (utf16Cursor : ℕ) : ℕ :=
  utf16CursorToByteGo utf16Cursor line 0 0

/-- The loop of `byte_cursor_to_utf16`. -/
def byteCursorToUtf16Go (byteCursor : ℕ) : Text → ℕ → ℕ → ℕ
  | [], _, utf16 => utf16
  | c :: s, byteIdx, utf16 =>
    if byteIdx ≥ byteCursor then utf16
    else byteCursorToUtf16Go byteCursor s (byteIdx + c.utf8Size) (utf16 + utf16Size c)

def byteCursorToUtf16 (line : Text) (byteCursor : ℕ) : ℕ :=
  if byteCursor ≥ byteLen line then utf16Len line else byteCursorToUtf16Go byteCursor line 0 0

/-- The caret of a shell, in its own unit, as a byte offset. -/
def shellCursorToByte (shell : Shell) (line : Text) (cursor : ℕ) : ℕ :=
  match shell with
  | .pwsh => utf16CursorToByte line cursor
  | .bash | .zsh | .clink | .nu => charCursorToByte line cursor

/-- A byte offset in the unit the shell's renderer wants; zsh splits at the byte itself. -/
def byteCursorToShell (shell : Shell) (line : Text) (byteCursor : ℕ) : ℕ :=
  match shell with
  | .zsh => byteCursor
  | .pwsh => byteCursorToUtf16 line byteCursor
  | .bash | .clink | .nu => byteCursorToChar line byteCursor

/-- The eval text of an action. -/
def render (toJson : Text → Text) (shell : Shell) (action : HookAction) : Option Text :=
  renderAction toJson shell
    (action.withCursor (byteCursorToShell shell action.line action.cursor))

/-- A literal space at the caret, for the paths that never look at the rules. -/
def insertSpaceAction (line : Text) (byteCursor : ℕ) : Option HookAction := do
  let cursor := min byteCursor (byteLen line)
  let left ← sliceTo? line cursor
  let right ← sliceFrom? line cursor
  some (.insertSpace (left ++ ' ' :: right) (cursor + 1))

/-- A character cursor is the byte length of that many characters. -/
theorem charCursorToByte_eq (line : Text) (k : ℕ) :
    charCursorToByte line k = byteLen (line.take k) := by
  rw [charCursorToByte, Text.charIndices_getElem?]
  rcases Nat.lt_or_ge k line.length with hk | hk
  · simp [List.getElem?_eq_getElem hk]
  · simp [List.getElem?_eq_none hk, List.take_of_length_le hk]

/-- The search skips the characters before the cursor, which sits at the start of `right`. -/
theorem byteCursorToCharGo_append (left right : Text) (hright : right ≠ []) (charIdx byteIdx : ℕ) :
    byteCursorToCharGo (byteIdx + byteLen left) (left ++ right) charIdx byteIdx =
      some (charIdx + left.length) := by
  induction left generalizing charIdx byteIdx with
  | nil =>
    obtain ⟨c, s, rfl⟩ := List.exists_cons_of_ne_nil hright
    have := c.utf8Size_pos
    simp [byteCursorToCharGo, this]
  | cons c left ih =>
    simp only [List.cons_append, byteCursorToCharGo, Text.byteLen_cons, List.length_cons]
    rw [if_neg (by omega), ← Nat.add_assoc, ih]
    congr 1
    omega

/-- At a boundary the character cursor is the number of characters before it. -/
theorem byteCursorToChar_append (left right : Text) :
    byteCursorToChar (left ++ right) (byteLen left) = left.length := by
  unfold byteCursorToChar
  by_cases hright : right = []
  · simp [hright]
  · have hpos : 0 < byteLen right := by
      rw [Nat.pos_iff_ne_zero, ne_eq, Text.byteLen_eq_zero]
      exact hright
    rw [if_neg (by simp only [Text.byteLen_append]; omega)]
    have hgo := byteCursorToCharGo_append left right hright 0 0
    simp only [Nat.zero_add] at hgo
    simp [hgo]

/-- The UTF-16 loop stops at the start of a character, or at the end. -/
theorem utf16CursorToByteGo_boundary (utf16Cursor : ℕ) (s : Text) (consumed byteIdx : ℕ) :
    ∃ left right, s = left ++ right ∧
      utf16CursorToByteGo utf16Cursor s consumed byteIdx = byteIdx + byteLen left := by
  induction s generalizing consumed byteIdx with
  | nil => exact ⟨[], [], rfl, rfl⟩
  | cons c s ih =>
    simp only [utf16CursorToByteGo]
    split
    · exact ⟨[], c :: s, rfl, rfl⟩
    · split
      · exact ⟨[], c :: s, rfl, rfl⟩
      · obtain ⟨left, right, rfl, hgo⟩ :=
          ih (consumed + utf16Size c) (byteIdx + c.utf8Size)
        exact ⟨c :: left, right, rfl, by rw [hgo, Text.byteLen_cons, Nat.add_assoc]⟩

theorem byteCursorToUtf16Go_append (left right : Text) (byteIdx utf16 : ℕ) :
    byteCursorToUtf16Go (byteIdx + byteLen left) (left ++ right) byteIdx utf16 =
      utf16 + utf16Len left := by
  induction left generalizing byteIdx utf16 with
  | nil => cases right <;> simp [byteCursorToUtf16Go]
  | cons c left ih =>
    have := c.utf8Size_pos
    simp only [List.cons_append, byteCursorToUtf16Go, Text.byteLen_cons, Text.utf16Len_cons]
    rw [if_neg (by omega), ← Nat.add_assoc, ih, Nat.add_assoc]

/-- At a boundary the UTF-16 cursor is the UTF-16 length of the text before it. -/
theorem byteCursorToUtf16_append (left right : Text) :
    byteCursorToUtf16 (left ++ right) (byteLen left) = utf16Len left := by
  unfold byteCursorToUtf16
  split
  · next hge =>
    simp only [Text.byteLen_append] at hge
    have hright : right = [] := Text.byteLen_eq_zero.mp (by omega)
    simp [hright]
  · have hgo := byteCursorToUtf16Go_append left right 0 0
    simpa using hgo

/-- Whatever number a shell sends, the byte cursor is at a character boundary. -/
theorem shellCursorToByte_boundary (shell : Shell) (line : Text) (cursor : ℕ) :
    Text.IsBoundary line (shellCursorToByte shell line cursor) := by
  have hchar : Text.IsBoundary line (charCursorToByte line cursor) :=
    ⟨line.take cursor, line.drop cursor, (List.take_append_drop cursor line).symm,
      (charCursorToByte_eq line cursor).symm⟩
  cases shell with
  | pwsh =>
    obtain ⟨left, right, hline, hgo⟩ := utf16CursorToByteGo_boundary cursor line 0 0
    exact ⟨left, right, hline, by simp [shellCursorToByte, utf16CursorToByte, hgo]⟩
  | bash | zsh | clink | nu => exact hchar

end Runex
