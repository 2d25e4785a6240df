import Runex.Domain.Model
import Runex.Domain.Sanitize

/-!
# Quoting for the shells

The functions that write a string as a literal of one shell. Each is a map over characters
between two delimiters; buffer literals keep every character, path literals drop what the shell
cannot carry.
-/

namespace Runex

open Text (isAsciiControl)

/-- `Shell::from_str`: the five names, in any ASCII case. -/
def Shell.fromStr (s : Text) : Option Shell :=
  match String.ofList (s.map Char.toLower) with
  | "bash" => some .bash
  | "zsh" => some .zsh
  | "pwsh" => some .pwsh
  | "clink" => some .clink
  | "nu" => some .nu
  | _ => none

/-- `format!("{:02x}", n)` for a byte. -/
def hexByte (n : ℕ) : Text := [Nat.digitChar (n / 16), Nat.digitChar (n % 16)]

/-- `format!("{:03}", n)` for a byte. -/
def decimalByte (n : ℕ) : Text :=
  [Nat.digitChar (n / 100), Nat.digitChar (n / 10 % 10), Nat.digitChar (n % 10)]

/-- `format!("{}", n)`. -/
def decimal (n : ℕ) : Text := Nat.toDigits 10 n

/-- One character of `bash_quote_string`: control characters and line separators are dropped. -/
def bashQuoteStringChar (c : Char) : Text :=
  if c = '\'' then "'\\''".toList
  else if isAsciiControl c || isUnicodeLineSeparator c then []
  else [c]

/-- A Bash single-quoted string, for paths. -/
def bashQuoteString (value : Text) : Text := '\'' :: (value.flatMap bashQuoteStringChar ++ ['\''])

/-- One character of `bash_quote_buffer`: nothing is dropped, control characters leave the
    quotes as `$'\xHH'`. -/
def bashQuoteBufferChar (c : Char) : Text :=
  if c = '\'' then "'\\''".toList
  else if isAsciiControl c then "'$'\\x".toList ++ (hexByte c.toNat ++ "''".toList)
  else [c]

/-- A buffer as Bash or Zsh single-quoted text that keeps every character. -/
def bashQuoteBuffer (value : Text) : Text := '\'' :: (value.flatMap bashQuoteBufferChar ++ ['\''])

/-- One character of `pwsh_quote_string`. -/
def pwshQuoteStringChar (c : Char) : Text :=
  if c = '\'' then "''".toList
  else if isAsciiControl c || isUnicodeLineSeparator c then []
  else [c]

/-- A PowerShell single-quoted string, for paths. -/
def pwshQuoteString (token : Text) : Text := '\'' :: (token.flatMap pwshQuoteStringChar ++ ['\''])

/-- The characters `pwsh_double_quote_string` puts a backtick before. -/
def isPwshEscaped (c : Char) : Bool :=
  c == '`' || c == '$' || c == '"' || c.toNat == 0x201C || c.toNat == 0x201D || c.toNat == 0x201E

/-- One character of `pwsh_double_quote_string`. -/
def pwshDoubleQuoteChar (c : Char) : Text :=
  if c = '\n' then "`n".toList
  else if c = '\r' then "`r".toList
  else if isPwshEscaped c then ['`', c]
  else [c]

/-- A buffer as a PowerShell double-quoted string that keeps every character. -/
def pwshDoubleQuoteString (value : Text) : Text :=
  '"' :: (value.flatMap pwshDoubleQuoteChar ++ ['"'])

/-- One character of `nu_quote_string`. -/
def nuQuoteChar (c : Char) : Text :=
  match doubleQuoteEscape c with
  | some escape => escape
  | none => if c = '$' then "\\$".toList else if isNuDropChar c then [] else [c]

/-- A nu external command name `^"..."`. -/
def nuQuoteString (value : Text) : Text :=
  '^' :: '"' :: (value.flatMap nuQuoteChar ++ ['"'])

/-- The second escaping pass of `nu_quote_string_embedded`: `\$` stays one unit. -/
def nuEmbed : Text → Text
  | [] => []
  | '\\' :: '$' :: s => '\\' :: '$' :: nuEmbed s
  | '\\' :: s => '\\' :: '\\' :: nuEmbed s
  | '"' :: s => '\\' :: '"' :: nuEmbed s
  | c :: s => c :: nuEmbed s

/-- `nu_quote_string`, escaped once more for an outer nu double-quoted string. -/
def nuQuoteStringEmbedded (value : Text) : Text := nuEmbed (nuQuoteString value)

/-- One character of `lua_quote_string`: an unsafe character becomes its UTF-8 bytes as
    three-digit decimal escapes. -/
def luaQuoteChar (c : Char) : Text :=
  match doubleQuoteEscape c with
  | some escape => escape
  | none =>
    if isUnsafeForDisplay c then
      (String.utf8EncodeChar c).flatMap fun byte => '\\' :: decimalByte byte.toNat
    else [c]

/-- A buffer as a Lua double-quoted string that keeps every character. -/
def luaQuoteString (value : Text) : Text := '"' :: (value.flatMap luaQuoteChar ++ ['"'])

end Runex
