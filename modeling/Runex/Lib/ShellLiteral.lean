import Runex.Lib.Text
import Runex.Lib.Scanner

/-!
# String literals of five languages

Readers of string literals, one scanner for each grammar: a word of Bash or Zsh, a PowerShell
double-quoted string, a Lua 5.2 string and a JSON string. They are stricter than the languages:
an expansion, an unknown escape or an unquoted special character is refused, so a text that is
read has its value and runs nothing.

## Main definitions

- `ShellLiteral.bashWord` — single quotes, double quotes, `\c` and `$'...'`
- `ShellLiteral.pwshString` — backtick escapes, and the four characters that end the literal
- `ShellLiteral.luaString` — the bytes a Lua string denotes, with `\ddd`
- `ShellLiteral.jsonString`, `ShellLiteral.jsonQuote` — JSON strings, read and written
-/

namespace ShellLiteral

def decDigit? (c : Char) : Option ℕ :=
  if '0' ≤ c ∧ c ≤ '9' then some (c.toNat - '0'.toNat) else none

def octDigit? (c : Char) : Option ℕ :=
  if '0' ≤ c ∧ c ≤ '7' then some (c.toNat - '0'.toNat) else none

def hexDigit? (c : Char) : Option ℕ :=
  if '0' ≤ c ∧ c ≤ '9' then some (c.toNat - '0'.toNat)
  else if 'a' ≤ c ∧ c ≤ 'f' then some (c.toNat - 'a'.toNat + 10)
  else if 'A' ≤ c ∧ c ≤ 'F' then some (c.toNat - 'A'.toNat + 10)
  else none

/-- A decimal numeral that is the whole text. -/
def readDecimal (s : Text) : Option ℕ :=
  if s ≠ [] ∧ s.all Char.isDigit then some (Nat.ofDigitChars 10 s 0) else none

theorem readDecimal_toDigits (n : ℕ) : readDecimal (Nat.toDigits 10 n) = some n := by
  have hdigits : (Nat.toDigits 10 n).all Char.isDigit = true :=
    List.all_eq_true.mpr fun c hc => Nat.isDigit_of_mem_toDigits (by omega) (by omega) hc
  rw [readDecimal, if_pos ⟨Nat.toDigits_ne_nil, hdigits⟩, Nat.ofDigitChars_ten_toDigits]

inductive BashMode where
  | bare
  | escape
  | single
  | dollar
  | ansi
  | ansiEscape
  | hex
  | hexDigit (value : ℕ)
  | octal (value : ℕ)
  | octalTwo (value : ℕ)
  | double
  | doubleEscape
  deriving DecidableEq, Repr

/-- Characters that stand for themselves outside quotes, wherever they are in a word. -/
def isBashPlain (c : Char) : Bool := c.isAlphanum || c == '_'

/-- Characters that end a word. -/
def endsBashWord (c : Char) : Bool := c ∈ [' ', '\t', '\n', ';', ')']

/-- The ASCII character of a numeric escape; a NUL would cut the value short. -/
def bashByte (mode : BashMode) (value : ℕ) (after : Text) : Verdict BashMode Char :=
  if 0 < value ∧ value < 128 then .move mode (Char.ofNat value :: after) else .fail

/-- The escapes of `$'...'` that stand for one character. -/
def ansiEscape? (c : Char) : Option Char :=
  match c with
  | '\\' => some '\\'
  | '\'' => some '\''
  | '"' => some '"'
  | 'n' => some '\n'
  | 'r' => some '\r'
  | 't' => some '\t'
  | _ => none

def bashStep : BashMode → Char → Verdict BashMode Char
  | .bare, c =>
    if c = '\'' then .move .single []
    else if c = '"' then .move .double []
    else if c = '\\' then .move .escape []
    else if c = '$' then .move .dollar []
    else if isBashPlain c then .move .bare [c]
    else if endsBashWord c then .stop
    else .fail
  | .escape, c => if c = '\n' then .fail else .move .bare [c]
  | .single, c => if c = '\'' then .move .bare [] else .move .single [c]
  -- `$` outside quotes is an expansion unless it opens `$'...'`.
  | .dollar, c => if c = '\'' then .move .ansi [] else .fail
  | .ansi, c =>
    if c = '\'' then .move .bare []
    else if c = '\\' then .move .ansiEscape []
    else .move .ansi [c]
  | .ansiEscape, c =>
    if c = 'x' then .move .hex []
    else
      match octDigit? c, ansiEscape? c with
      | some d, _ => .move (.octal d) []
      | none, some e => .move .ansi [e]
      | none, none => .fail
  | .hex, c => match hexDigit? c with
    | some d => .move (.hexDigit d) []
    | none => .fail
  | .hexDigit v, c => match hexDigit? c with
    | some d => bashByte .ansi (16 * v + d) []
    | none =>
      if c = '\'' then bashByte .bare v []
      else if c = '\\' then bashByte .ansiEscape v []
      else bashByte .ansi v [c]
  | .octal v, c => match octDigit? c with
    | some d => .move (.octalTwo (8 * v + d)) []
    | none =>
      if c = '\'' then bashByte .bare v []
      else if c = '\\' then bashByte .ansiEscape v []
      else bashByte .ansi v [c]
  | .octalTwo v, c => match octDigit? c with
    | some d => bashByte .ansi (8 * v + d) []
    | none =>
      if c = '\'' then bashByte .bare v []
      else if c = '\\' then bashByte .ansiEscape v []
      else bashByte .ansi v [c]
  | .double, c =>
    if c = '"' then .move .bare []
    else if c = '\\' then .move .doubleEscape []
    else if c = '$' ∨ c = '`' then .fail
    else .move .double [c]
  | .doubleEscape, c =>
    if c ∈ ['$', '`', '"', '\\'] then .move .double [c]
    else if c = '\n' then .move .double []
    else .move .double ['\\', c]

/-- A word of Bash or Zsh. -/
def bashWord : Scanner BashMode Char Char := ⟨bashStep, (· == .bare)⟩

/-- A word ends at the end of the text and before a separator. -/
theorem bashWord_ends {rest : Text} (h : ∀ c ∈ rest.head?, endsBashWord c = true) :
    bashWord.scan .bare rest = some ([], rest) := by
  cases rest with
  | nil => rfl
  | cons c s =>
    apply Scanner.scan_cons_stop
    have hc := h c rfl
    simp only [endsBashWord, List.mem_cons, List.not_mem_nil, or_false, decide_eq_true_eq] at hc
    rcases hc with rfl | rfl | rfl | rfl | rfl <;> decide

inductive PwshMode where
  | start
  | inside
  | escape
  | closing
  deriving DecidableEq, Repr

/-- The characters the tokenizer accepts as a double quote. -/
def isPwshQuote (c : Char) : Bool :=
  c == '"' || c.toNat == 0x201C || c.toNat == 0x201D || c.toNat == 0x201E

/-- The character a backtick escape stands for. -/
def pwshEscape? (c : Char) : Option Char :=
  match c with
  | '0' => some (Char.ofNat 0)
  | 'a' => some (Char.ofNat 7)
  | 'b' => some (Char.ofNat 8)
  | 't' => some '\t'
  | 'n' => some '\n'
  | 'v' => some (Char.ofNat 11)
  | 'f' => some (Char.ofNat 12)
  | 'r' => some '\r'
  -- `e` and `u` differ between versions; before a line break the backtick is something else.
  | 'e' | 'u' | '\n' | '\r' => none
  | c => some c

def pwshStep : PwshMode → Char → Verdict PwshMode Char
  | .start, c => if isPwshQuote c then .move .inside [] else .fail
  | .inside, c =>
    if c = '`' then .move .escape []
    else if isPwshQuote c then .move .closing []
    else if c = '$' then .fail
    else .move .inside [c]
  | .escape, c => match pwshEscape? c with
    | some e => .move .inside [e]
    | none => .fail
  -- A doubled quote is a quote; a single one was the end.
  | .closing, c => if isPwshQuote c then .move .inside [c] else .stop

/-- A PowerShell double-quoted string. -/
def pwshString : Scanner PwshMode Char Char := ⟨pwshStep, (· == .closing)⟩

theorem pwshString_ends {rest : Text} (h : ∀ c ∈ rest.head?, isPwshQuote c = false) :
    pwshString.scan .closing rest = some ([], rest) := by
  cases rest with
  | nil => rfl
  | cons c s =>
    apply Scanner.scan_cons_stop
    simp [pwshString, pwshStep, h c rfl]

inductive LuaMode where
  | start
  | inside
  | escape
  | decimal (value : ℕ)
  | decimalTwo (value : ℕ)
  | done
  deriving DecidableEq, Repr

/-- The byte an escape letter stands for. -/
def luaEscape? (c : Char) : Option UInt8 :=
  match c with
  | 'a' => some 7
  | 'b' => some 8
  | 't' => some 9
  | 'n' => some 10
  | 'v' => some 11
  | 'f' => some 12
  | 'r' => some 13
  | '\\' => some 92
  | '"' => some 34
  | '\'' => some 39
  | _ => none

def luaByte (mode : LuaMode) (value : ℕ) (after : List UInt8) : Verdict LuaMode UInt8 :=
  if value < 256 then .move mode (UInt8.ofNat value :: after) else .fail

/-- A character inside the quotes, after the bytes of a pending decimal escape. -/
def luaInside (flush : LuaMode → List UInt8 → Verdict LuaMode UInt8) (c : Char) :
    Verdict LuaMode UInt8 :=
  if c = '"' then flush .done []
  else if c = '\\' then flush .escape []
  else if c = '\n' ∨ c = '\r' then .fail
  else flush .inside (String.utf8EncodeChar c)

def luaStep : LuaMode → Char → Verdict LuaMode UInt8
  | .start, c => if c = '"' then .move .inside [] else .fail
  | .inside, c => luaInside .move c
  | .escape, c =>
    match decDigit? c, luaEscape? c with
    | some d, _ => .move (.decimal d) []
    | none, some byte => .move .inside [byte]
    | none, none => .fail
  | .decimal v, c => match decDigit? c with
    | some d => .move (.decimalTwo (10 * v + d)) []
    | none => luaInside (luaByte · v) c
  | .decimalTwo v, c => match decDigit? c with
    | some d => luaByte .inside (10 * v + d) []
    | none => luaInside (luaByte · v) c
  | .done, _ => .stop

/-- A Lua string, as the bytes it denotes. -/
def luaString : Scanner LuaMode Char UInt8 := ⟨luaStep, (· == .done)⟩

theorem luaString_ends (rest : Text) : luaString.scan .done rest = some ([], rest) := by
  cases rest <;> rfl

inductive JsonMode where
  | start
  | inside
  | escape
  /-- Inside `\uXXXX`: the value and number of the digits read, after a high surrogate or not. -/
  | unicode (high : Option ℕ) (value digits : ℕ)
  | lowBackslash (high : ℕ)
  | lowLetter (high : ℕ)
  | done
  deriving DecidableEq, Repr

def jsonEscape? (c : Char) : Option Char :=
  match c with
  | '"' => some '"'
  | '\\' => some '\\'
  | '/' => some '/'
  | 'b' => some (Char.ofNat 8)
  | 'f' => some (Char.ofNat 12)
  | 'n' => some '\n'
  | 'r' => some '\r'
  | 't' => some '\t'
  | _ => none

def isHighSurrogate (n : ℕ) : Bool := 0xD800 ≤ n && n < 0xDC00

def isLowSurrogate (n : ℕ) : Bool := 0xDC00 ≤ n && n < 0xE000

/-- A complete `\uXXXX`: a character, the first half of one, or the second half. -/
def jsonUnit (high : Option ℕ) (unit : ℕ) : Verdict JsonMode Char :=
  match high with
  | none =>
    if isHighSurrogate unit then .move (.lowBackslash unit) []
    else if isLowSurrogate unit then .fail
    else .move .inside [Char.ofNat unit]
  | some h =>
    if isLowSurrogate unit then
      .move .inside [Char.ofNat (0x10000 + (h - 0xD800) * 0x400 + (unit - 0xDC00))]
    else .fail

def jsonStep : JsonMode → Char → Verdict JsonMode Char
  | .start, c => if c = '"' then .move .inside [] else .fail
  | .inside, c =>
    if c = '"' then .move .done []
    else if c = '\\' then .move .escape []
    else if c.toNat < 0x20 then .fail
    else .move .inside [c]
  | .escape, c =>
    if c = 'u' then .move (.unicode none 0 0) []
    else
      match jsonEscape? c with
      | some e => .move .inside [e]
      | none => .fail
  | .unicode high v digits, c => match hexDigit? c with
    | some d =>
      if digits = 3 then jsonUnit high (16 * v + d)
      else .move (.unicode high (16 * v + d) (digits + 1)) []
    | none => .fail
  | .lowBackslash h, c => if c = '\\' then .move (.lowLetter h) [] else .fail
  | .lowLetter h, c => if c = 'u' then .move (.unicode (some h) 0 0) [] else .fail
  | .done, _ => .stop

/-- A JSON string. -/
def jsonString : Scanner JsonMode Char Char := ⟨jsonStep, (· == .done)⟩

theorem jsonString_ends (rest : Text) : jsonString.scan .done rest = some ([], rest) := by
  cases rest <;> rfl

/-- A character in a JSON string: only what must be escaped is. -/
def jsonQuoteChar (c : Char) : Text :=
  match c with
  | '"' => "\\\"".toList
  | '\\' => "\\\\".toList
  | '\n' => "\\n".toList
  | '\r' => "\\r".toList
  | '\t' => "\\t".toList
  | c =>
    if c.toNat < 0x20 then
      "\\u00".toList ++ [Nat.digitChar (c.toNat / 16), Nat.digitChar (c.toNat % 16)]
    else [c]

/-- Write a JSON string. -/
def jsonQuote (s : Text) : Text := '"' :: (s.flatMap jsonQuoteChar ++ ['"'])

theorem jsonQuote_control :
    ∀ n < 0x20, jsonString.drive .inside (jsonQuoteChar (Char.ofNat n)) =
      some (.inside, [Char.ofNat n]) := by
  decide

theorem drive_jsonQuoteChar (c : Char) :
    jsonString.drive .inside (jsonQuoteChar c) = some (.inside, [c]) := by
  by_cases hcontrol : c.toNat < 0x20
  · have h := jsonQuote_control c.toNat hcontrol
    rwa [Char.ofNat_toNat] at h
  · by_cases hquote : c = '"'
    · subst hquote; decide
    · by_cases hbackslash : c = '\\'
      · subst hbackslash; decide
      · have hplain : jsonQuoteChar c = [c] := by
          unfold jsonQuoteChar
          split <;> simp_all
        have hstep : jsonString.step .inside c = .move .inside [c] := by
          simp [jsonString, jsonStep, hquote, hbackslash, hcontrol]
        rw [hplain, Scanner.drive_cons hstep]
        rfl

/-- Reading what `jsonQuote` writes. -/
theorem scan_jsonQuote (s rest : Text) :
    jsonString.scan .start (jsonQuote s ++ rest) = some (s, rest) := by
  have h : jsonString.scan .start (['"'] ++ (s.flatMap jsonQuoteChar ++ ['"']) ++ rest) =
      some (s.flatMap fun c => [c], rest) :=
    Scanner.scan_delimited rfl (fun c _ => drive_jsonQuoteChar c) rfl (jsonString_ends rest)
  simpa [jsonQuote] using h

end ShellLiteral
