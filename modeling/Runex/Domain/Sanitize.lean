import Runex.Lib.Text

/-!
# Character classes of the sanitizer

The character predicates that config validation and every quoting function share: invisible and
directional characters, line separators, and what is unsafe to print to a terminal.
-/

namespace Runex

/-- `matches!(c, lo..=hi)`. -/
def inCharRange (lo hi : ℕ) (c : Char) : Bool := lo ≤ c.toNat && c.toNat ≤ hi

def isSoftHyphen (c : Char) : Bool := c.toNat == 0x00AD

def isCombiningGraphemeJoiner (c : Char) : Bool := c.toNat == 0x034F

def isArabicLetterMark (c : Char) : Bool := c.toNat == 0x061C

def isHangulFiller (c : Char) : Bool :=
  inCharRange 0x115F 0x1160 c || c.toNat == 0x3164 || c.toNat == 0xFFA0

def isKhmerInvisibleVowel (c : Char) : Bool := inCharRange 0x17B4 0x17B5 c

def isMongolianFreeVariationSelector (c : Char) : Bool :=
  inCharRange 0x180B 0x180D c || c.toNat == 0x180F

def isZeroWidth (c : Char) : Bool := inCharRange 0x200B 0x200F c

def isBidiControl (c : Char) : Bool := inCharRange 0x202A 0x202E c

def isInvisibleOperator (c : Char) : Bool := inCharRange 0x2060 0x206F c

def isVariationSelector (c : Char) : Bool := inCharRange 0xFE00 0xFE0F c

def isBom (c : Char) : Bool := c.toNat == 0xFEFF

def isInterlinearAnnotation (c : Char) : Bool := inCharRange 0xFFF9 0xFFFB c

def isTag (c : Char) : Bool := inCharRange 0xE0000 0xE007F c

/-- NEL (U+0085), Line Separator (U+2028) and Paragraph Separator (U+2029). -/
def isUnicodeLineSeparator (c : Char) : Bool := c.toNat == 0x0085 || inCharRange 0x2028 0x2029 c

/-- Characters that are invisible or visually ambiguous in terminal output. -/
def isDeceptiveUnicode (c : Char) : Bool :=
  isSoftHyphen c || isCombiningGraphemeJoiner c || isArabicLetterMark c || isHangulFiller c ||
  isKhmerInvisibleVowel c || isMongolianFreeVariationSelector c || isZeroWidth c ||
  isBidiControl c || isInvisibleOperator c || isVariationSelector c || isBom c ||
  isInterlinearAnnotation c || isTag c

/-- Characters removed before printing to a terminal. -/
def isUnsafeForDisplay (c : Char) : Bool :=
  Text.isAsciiControl c || isUnicodeLineSeparator c || isDeceptiveUnicode c

/-- `sanitize_for_display`. -/
def sanitizeForDisplay (s : Text) : Text := s.filter fun c => !isUnsafeForDisplay c

/-- The escape of a character in a double-quoted literal, shared by nu and Lua. -/
def doubleQuoteEscape (c : Char) : Option Text :=
  match c with
  | '\\' => some "\\\\".toList
  | '"' => some "\\\"".toList
  | '\n' => some "\\n".toList
  | '\r' => some "\\r".toList
  | '\t' => some "\\t".toList
  | _ => none

/-- Characters dropped when building a nu double-quoted string. -/
def isNuDropChar (c : Char) : Bool :=
  !(c == '\n' || c == '\r' || c == '\t') && isUnsafeForDisplay c

end Runex
