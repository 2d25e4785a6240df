import Runex.App.Hook
import Runex.Lib.ShellLiteral

/-!
# The eval text reads back as the buffer

What each shell gets out of the text a hook call prints, read with the literal grammar of that
shell: the assigned buffer and caret, or nothing when the text is anything but the fixed
assignment around literals.

## Main definitions

- `ShellEffect` — the buffer and caret a shell ends up with
- `evalText` — the effect of an eval text

## Main results

- `drive_bashQuoteBufferChar`, `drive_pwshDoubleQuoteChar`, `drive_luaQuoteChar` — what a quoting
  function writes for one character reads back as that character
- `render_reads_back` — every well-placed action reads back as its buffer and caret
-/

namespace Runex

open ShellLiteral Search
open Text (byteLen utf16Len isAsciiControl)

/-- What a shell does with its buffer: a line with a caret in the shell's unit, or the two halves
    around the caret. -/
inductive ShellEffect where
  | buffer (line : Text) (caret : ℕ)
  | halves (left right : Text)
  deriving DecidableEq, Repr

/-- `name=word`. -/
def readAssignment (name s : Text) : Option (Text × Text) := do
  let s ← stripPrefix? name s
  let s ← stripPrefix? ['='] s
  bashWord.scan .bare s

/-- The bytes of a text, read as UTF-8. -/
def decodeUtf8 (bytes : List UInt8) : Option Text :=
  (ByteArray.utf8Decode? bytes.toByteArray).map Array.toList

def evalBash (s : Text) : Option ShellEffect := do
  let (line, s) ← readAssignment "READLINE_LINE".toList s
  let s ← stripPrefix? "; ".toList s
  let (point, s) ← readAssignment "READLINE_POINT".toList s
  if s ≠ [] then none
  else do
    let caret ← readDecimal point
    some (.buffer line caret)

def evalZsh (s : Text) : Option ShellEffect := do
  let (left, s) ← readAssignment "LBUFFER".toList s
  let s ← stripPrefix? "; ".toList s
  let (right, s) ← readAssignment "RBUFFER".toList s
  if s ≠ [] then none else some (.halves left right)

def evalPwsh (s : Text) : Option ShellEffect := do
  let s ← stripPrefix? "$__RUNEX_LINE = ".toList s
  let (line, s) ← pwshString.scan .start s
  let s ← stripPrefix? "\n$__RUNEX_CURSOR = ".toList s
  let caret ← readDecimal s
  some (.buffer line caret)

def evalClink (s : Text) : Option ShellEffect := do
  let s ← stripPrefix? "return \x7b line = ".toList s
  let (bytes, s) ← luaString.scan .start s
  let line ← decodeUtf8 bytes
  let s ← stripPrefix? ", cursor = ".toList s
  let s ← stripSuffix? " \x7d".toList s
  let caret ← readDecimal s
  some (.buffer line caret)

def evalNu (s : Text) : Option ShellEffect := do
  let s ← stripPrefix? "\x7b\"line\": ".toList s
  let (line, s) ← jsonString.scan .start s
  let s ← stripPrefix? ", \"cursor\": ".toList s
  let s ← stripSuffix? "\x7d".toList s
  let caret ← readDecimal s
  some (.buffer line caret)

/-- The effect of an eval text; `none` when it is not the fixed assignment around literals. -/
def evalText (shell : Shell) (s : Text) : Option ShellEffect :=
  match shell with
  | .bash => evalBash s
  | .zsh => evalZsh s
  | .pwsh => evalPwsh s
  | .clink => evalClink s
  | .nu => evalNu s

/-- The caret between `left` and `right`, in the shell's own unit. -/
def intendedEffect (shell : Shell) (left right : Text) : ShellEffect :=
  match shell with
  | .zsh => .halves left right
  | .pwsh => .buffer (left ++ right) (utf16Len left)
  | .bash | .clink | .nu => .buffer (left ++ right) left.length

theorem bashQuoteBuffer_control :
    ∀ n < 128, n = 0 ∨ isAsciiControl (Char.ofNat n) = false ∨
      bashWord.drive .single (bashQuoteBufferChar (Char.ofNat n)) =
        some (.single, [Char.ofNat n]) := by
  decide

theorem toNat_lt_of_isAsciiControl {c : Char} (h : isAsciiControl c = true) : c.toNat < 128 := by
  simp only [isAsciiControl, Bool.or_eq_true, decide_eq_true_eq, beq_iff_eq] at h
  omega

/-- One character of a quoted buffer reads back, inside the single quotes. -/
theorem drive_bashQuoteBufferChar {c : Char} (hnul : c ≠ '\x00') :
    bashWord.drive .single (bashQuoteBufferChar c) = some (.single, [c]) := by
  by_cases hcontrol : isAsciiControl c = true
  · have hne : c.toNat ≠ 0 := fun h => hnul (Char.toNat_inj.mp h)
    have h := bashQuoteBuffer_control c.toNat (toNat_lt_of_isAsciiControl hcontrol)
    rw [Char.ofNat_toNat] at h
    simpa [hne, hcontrol] using h
  · by_cases hquote : c = '\''
    · subst hquote
      decide
    · have hplain : bashQuoteBufferChar c = [c] := by
        simp [bashQuoteBufferChar, hquote, hcontrol]
      have hstep : bashWord.step .single c = .move .single [c] := by
        simp [bashWord, bashStep, hquote]
      rw [hplain, Scanner.drive_cons hstep]
      rfl

/-- A quoted buffer is one word, whose value is the buffer. -/
theorem scan_bashQuoteBuffer {s rest : Text} (hnul : '\x00' ∉ s)
    (hrest : ∀ c ∈ rest.head?, endsBashWord c = true) :
    bashWord.scan .bare (bashQuoteBuffer s ++ rest) = some (s, rest) := by
  have h : bashWord.scan .bare (['\''] ++ (s.flatMap bashQuoteBufferChar ++ ['\'']) ++ rest) =
      some (s.flatMap fun c => [c], rest) := by
    refine Scanner.scan_delimited rfl (fun c hc => drive_bashQuoteBufferChar ?_) rfl
      (bashWord_ends hrest)
    rintro rfl
    exact hnul hc
  simpa [bashQuoteBuffer] using h

theorem readAssignment_quoted (name : Text) {s rest : Text} (hnul : '\x00' ∉ s)
    (hrest : ∀ c ∈ rest.head?, endsBashWord c = true) :
    readAssignment name (name ++ '=' :: (bashQuoteBuffer s ++ rest)) = some (s, rest) := by
  simp [readAssignment, stripPrefix?, scan_bashQuoteBuffer hnul hrest]

/-- A number is a plain word. -/
theorem readAssignment_decimal (name : Text) (n : ℕ) :
    readAssignment name (name ++ '=' :: decimal n) = some (decimal n, []) := by
  have hdrive : bashWord.drive .bare ((decimal n).flatMap fun c => [c]) =
      some (.bare, (decimal n).flatMap fun c => [c]) := by
    refine Scanner.drive_flatMap fun c hc => ?_
    have hdigit : c.isDigit = true := Nat.isDigit_of_mem_toDigits (by omega) (by omega) hc
    have hplain : isBashPlain c = true := by simp [isBashPlain, Char.isAlphanum, hdigit]
    have hstep : bashWord.step .bare c = .move .bare [c] := by
      have hne : ∀ d : Char, d.isDigit = false → c ≠ d := by
        rintro d hd rfl
        simp [hd] at hdigit
      simp [bashWord, bashStep, hplain, hne '\'' rfl, hne '"' rfl, hne '\\' rfl, hne '$' rfl]
    rw [Scanner.drive_cons hstep]
    rfl
  have hscan := Scanner.scan_of_drive hdrive (bashWord_ends (by simp : ∀ c ∈ ([] : Text).head?, _))
  simp only [List.flatMap_singleton', List.append_nil] at hscan
  simp [readAssignment, stripPrefix?, hscan]

/-- One character of a double-quoted buffer reads back, inside the quotes. -/
theorem drive_pwshDoubleQuoteChar (c : Char) :
    pwshString.drive .inside (pwshDoubleQuoteChar c) = some (.inside, [c]) := by
  by_cases hlf : c = '\n'
  · subst hlf
    decide
  by_cases hcr : c = '\r'
  · subst hcr
    decide
  by_cases hescaped : isPwshEscaped c = true
  · have hpiece : pwshDoubleQuoteChar c = ['`', c] := by
      simp [pwshDoubleQuoteChar, hlf, hcr, hescaped]
    have hescape : pwshEscape? c = some c := by
      simp only [isPwshEscaped, Bool.or_eq_true, beq_iff_eq] at hescaped
      unfold pwshEscape?
      split <;> simp_all
    rw [hpiece]
    simp [Scanner.drive, pwshString, pwshStep, hescape]
  · have hpiece : pwshDoubleQuoteChar c = [c] := by
      simp [pwshDoubleQuoteChar, hlf, hcr, hescaped]
    simp only [isPwshEscaped, Bool.or_eq_true, beq_iff_eq, not_or] at hescaped
    obtain ⟨⟨⟨⟨⟨hbacktick, hdollar⟩, hquote⟩, hleft⟩, hright⟩, hlow⟩ := hescaped
    have hstep : pwshString.step .inside c = .move .inside [c] := by
      simp [pwshString, pwshStep, isPwshQuote, hbacktick, hdollar, hquote, hleft, hright, hlow]
    rw [hpiece, Scanner.drive_cons hstep]
    rfl

theorem scan_pwshDoubleQuoteString {s rest : Text}
    (hrest : ∀ c ∈ rest.head?, isPwshQuote c = false) :
    pwshString.scan .start (pwshDoubleQuoteString s ++ rest) = some (s, rest) := by
  have h : pwshString.scan .start (['"'] ++ (s.flatMap pwshDoubleQuoteChar ++ ['"']) ++ rest) =
      some (s.flatMap fun c => [c], rest) :=
    Scanner.scan_delimited rfl (fun c _ => drive_pwshDoubleQuoteChar c) rfl
      (pwshString_ends hrest)
  simpa [pwshDoubleQuoteString] using h

theorem drive_decimalByte :
    ∀ n < 256, luaString.drive .inside ('\\' :: decimalByte n) =
      some (.inside, [UInt8.ofNat n]) := by
  decide +kernel

/-- One character of a Lua literal reads back as its bytes. -/
theorem drive_luaQuoteChar (c : Char) :
    luaString.drive .inside (luaQuoteChar c) = some (.inside, String.utf8EncodeChar c) := by
  by_cases hescape : c ∈ ['\\', '"', '\n', '\r', '\t']
  · simp only [List.mem_cons, List.not_mem_nil, or_false] at hescape
    rcases hescape with rfl | rfl | rfl | rfl | rfl <;> decide
  · simp only [List.mem_cons, List.not_mem_nil, or_false, not_or] at hescape
    obtain ⟨hbackslash, hquote, hlf, hcr, htab⟩ := hescape
    have hnone : doubleQuoteEscape c = none := by
      unfold doubleQuoteEscape
      split <;> simp_all
    by_cases hplain : isUnsafeForDisplay c = true
    · have hpiece : luaQuoteChar c =
          (String.utf8EncodeChar c).flatMap fun byte => '\\' :: decimalByte byte.toNat := by
        simp [luaQuoteChar, hnone, hplain]
      have hbytes : luaString.drive .inside
          ((String.utf8EncodeChar c).flatMap fun byte => '\\' :: decimalByte byte.toNat) =
          some (.inside, (String.utf8EncodeChar c).flatMap fun byte => [byte]) := by
        refine Scanner.drive_flatMap fun byte _ => ?_
        have h := drive_decimalByte byte.toNat byte.toNat_lt
        rwa [UInt8.ofNat_toNat] at h
      rw [hpiece, hbytes, List.flatMap_singleton']
    · have hpiece : luaQuoteChar c = [c] := by simp [luaQuoteChar, hnone, hplain]
      have hstep : luaString.step .inside c = .move .inside (String.utf8EncodeChar c) := by
        simp [luaString, luaStep, luaInside, hquote, hbackslash, hlf, hcr]
      rw [hpiece, Scanner.drive_cons hstep]
      simp

theorem scan_luaQuoteString (s rest : Text) :
    luaString.scan .start (luaQuoteString s ++ rest) =
      some (s.flatMap String.utf8EncodeChar, rest) := by
  have h : luaString.scan .start (['"'] ++ (s.flatMap luaQuoteChar ++ ['"']) ++ rest) =
      some (s.flatMap String.utf8EncodeChar, rest) :=
    Scanner.scan_delimited rfl (fun c _ => drive_luaQuoteChar c) rfl (luaString_ends rest)
  simpa [luaQuoteString] using h

theorem decodeUtf8_encode (s : Text) : decodeUtf8 (s.flatMap String.utf8EncodeChar) = some s := by
  have h : (List.utf8Encode s).utf8Decode? = some s.toArray := List.utf8Decode?_utf8Encode
  unfold List.utf8Encode at h
  simp [decodeUtf8, h]

theorem decodeUtf8_eq_some {bytes : List UInt8} {s : Text} :
    decodeUtf8 bytes = some s ↔ bytes = s.flatMap String.utf8EncodeChar := by
  constructor
  · intro h
    obtain ⟨chars, hchars, rfl⟩ := Option.map_eq_some_iff.mp h
    have hget := ByteArray.utf8Encode_get_utf8Decode? (b := bytes.toByteArray) (h := by simp [hchars])
    simp only [hchars, Option.get_some, List.utf8Encode, List.toByteArray_inj] at hget
    exact hget.symm
  · rintro rfl
    exact decodeUtf8_encode s

@[simp] theorem readDecimal_decimal (n : ℕ) : readDecimal (decimal n) = some n :=
  readDecimal_toDigits n

theorem evalText_bash {line : Text} (cursor : ℕ) (hnul : '\x00' ∉ line) :
    evalText .bash ("READLINE_LINE=".toList ++ (bashQuoteBuffer line ++
      ("; READLINE_POINT=".toList ++ decimal cursor))) = some (.buffer line cursor) := by
  have hend : ∀ c ∈ ("; ".toList ++ ("READLINE_POINT".toList ++ '=' :: decimal cursor)).head?,
      endsBashWord c = true := by
    rintro c ⟨rfl⟩
    decide
  change evalBash ("READLINE_LINE".toList ++ '=' :: (bashQuoteBuffer line ++
    ("; ".toList ++ ("READLINE_POINT".toList ++ '=' :: decimal cursor)))) = _
  simp only [evalBash, readAssignment_quoted _ hnul hend, readAssignment_decimal,
    stripPrefix?_append, Option.bind_eq_bind, Option.bind_some, ne_eq, not_true_eq_false, if_false,
    readDecimal_decimal]

theorem evalText_zsh {left right : Text} (hleft : '\x00' ∉ left) (hright : '\x00' ∉ right) :
    evalText .zsh ("LBUFFER=".toList ++ (bashQuoteBuffer left ++
      ("; RBUFFER=".toList ++ bashQuoteBuffer right))) = some (.halves left right) := by
  have hend : ∀ c ∈ ("; ".toList ++ ("RBUFFER".toList ++ '=' ::
      (bashQuoteBuffer right ++ []))).head?, endsBashWord c = true := by
    rintro c ⟨rfl⟩
    decide
  rw [← List.append_nil (bashQuoteBuffer right)]
  change evalZsh ("LBUFFER".toList ++ '=' :: (bashQuoteBuffer left ++
    ("; ".toList ++ ("RBUFFER".toList ++ '=' :: (bashQuoteBuffer right ++ []))))) = _
  simp only [evalZsh, readAssignment_quoted _ hleft hend, stripPrefix?_append,
    Option.bind_eq_bind, Option.bind_some]
  rw [readAssignment_quoted _ hright (by simp)]
  rfl

theorem evalText_pwsh (line : Text) (cursor : ℕ) :
    evalText .pwsh ("$__RUNEX_LINE = ".toList ++ (pwshDoubleQuoteString line ++
      ("\n$__RUNEX_CURSOR = ".toList ++ decimal cursor))) = some (.buffer line cursor) := by
  have hend : ∀ c ∈ ("\n$__RUNEX_CURSOR = ".toList ++ decimal cursor).head?,
      isPwshQuote c = false := by
    rintro c ⟨rfl⟩
    decide
  simp only [evalText, evalPwsh, stripPrefix?_append, scan_pwshDoubleQuoteString hend,
    Option.bind_eq_bind, Option.bind_some, readDecimal_decimal]

theorem evalText_clink (line : Text) (cursor : ℕ) :
    evalText .clink ("return \x7b line = ".toList ++ (luaQuoteString line ++
      (", cursor = ".toList ++ (decimal cursor ++ " \x7d".toList)))) =
      some (.buffer line cursor) := by
  simp only [evalText, evalClink, stripPrefix?_append, stripSuffix?_append, scan_luaQuoteString,
    decodeUtf8_encode, Option.bind_eq_bind, Option.bind_some, readDecimal_decimal]

/-- What is assumed of `serde_json::to_string`: it writes a JSON string that reads back. -/
def WritesJson (toJson : Text → Text) : Prop :=
  ∀ s rest, jsonString.scan .start (toJson s ++ rest) = some (s, rest)

theorem evalText_nu {toJson : Text → Text} (hjson : WritesJson toJson) (line : Text) (cursor : ℕ) :
    evalText .nu ("\x7b\"line\": ".toList ++ (toJson line ++
      (", \"cursor\": ".toList ++ (decimal cursor ++ "\x7d".toList)))) =
      some (.buffer line cursor) := by
  simp only [evalText, evalNu, stripPrefix?_append, stripSuffix?_append, hjson line,
    Option.bind_eq_bind, Option.bind_some, readDecimal_decimal]

/-- **The eval text decodes to exactly the intended buffer and caret.** For every shell and every
    action whose caret is at a character boundary, the text that is printed is the fixed
    assignment around literals of the shell, the literals read back as the line character for
    character, and the number, or for zsh the cut, is the caret in the shell's own unit. Bash and
    Zsh variables hold no NUL. -/
theorem render_reads_back (toJson : Text → Text) (hjson : WritesJson toJson) (shell : Shell)
    (action : HookAction) (left right : Text) (hline : action.line = left ++ right)
    (hcursor : action.cursor = byteLen left)
    (hnul : shell = .bash ∨ shell = .zsh → '\x00' ∉ action.line) :
    ∃ output, render toJson shell action = some output ∧
      evalText shell output = some (intendedEffect shell left right) := by
  have hchar : byteCursorToChar action.line action.cursor = left.length := by
    rw [hline, hcursor, byteCursorToChar_append]
  have hutf16 : byteCursorToUtf16 action.line action.cursor = utf16Len left := by
    rw [hline, hcursor, byteCursorToUtf16_append]
  have hsplit : Text.splitAt? action.line action.cursor = some (left, right) :=
    Text.splitAt?_eq_some.mpr ⟨hline, hcursor.symm⟩
  simp only [render, renderAction, HookAction.line_withCursor, HookAction.cursor_withCursor]
  cases shell with
  | bash =>
    refine ⟨_, rfl, ?_⟩
    rw [evalText_bash _ (hnul (Or.inl rfl)), byteCursorToShell, hchar, hline]
    rfl
  | zsh =>
    have hmem := hnul (Or.inr rfl)
    rw [hline, List.mem_append, not_or] at hmem
    simp only [byteCursorToShell, hsplit, Option.bind_eq_bind, Option.bind_some]
    exact ⟨_, rfl, evalText_zsh hmem.1 hmem.2⟩
  | pwsh =>
    refine ⟨_, rfl, ?_⟩
    rw [evalText_pwsh, byteCursorToShell, hutf16, hline]
    rfl
  | clink =>
    refine ⟨_, rfl, ?_⟩
    rw [evalText_clink, byteCursorToShell, hchar, hline]
    rfl
  | nu =>
    refine ⟨_, rfl, ?_⟩
    rw [evalText_nu hjson, byteCursorToShell, hchar, hline]
    rfl

/-- A buffer with a quote, a line break and a two-byte character, with the caret inside it. -/
theorem render_reads_back_quoted :
    ∃ output, render jsonQuote .bash (.replace "it's\né".toList 4) = some output ∧
      evalText .bash output = some (.buffer "it's\né".toList 4) :=
  render_reads_back jsonQuote scan_jsonQuote .bash (.replace "it's\né".toList 4) "it's".toList
    "\né".toList rfl rfl (by decide)

end Runex
