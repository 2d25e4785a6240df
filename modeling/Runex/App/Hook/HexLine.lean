import Runex.App.Hook.EvalText

/-!
# The buffer as hex

The Lua template sends the buffer as two hex digits for each byte of UTF-8. The decoder reads each
pair with the integer parser of the standard library, which takes a sign: a pair `+7` is the byte
7, where the format has no such pair.

## Main definitions

- `decodeHexLine` — read the argument of `--line-hex`
- `HexEncodes` — the documented format
- `plusAsZero` — an argument with the sign of each pair read as the digit zero

## Main results

- `decodeHexLine_eq_ok` — what the decoder accepts, and as what
- `decodeHexLine_hexLine` — the decoder inverts the transport encoding
- `decodeHexLine_format_iff` — where it accepts exactly the format
-/

namespace Runex

open ShellLiteral (hexDigit?)
open Text (byteLen)

-- ════════════════════════════════════════════════════════════════════════
-- The decoder
-- ════════════════════════════════════════════════════════════════════════

/-- Why an argument of `--line-hex` is refused. -/
inductive HexLineError where
  | oddLength (length : ℕ)
  /-- A pair of bytes that is not UTF-8 by itself. -/
  | splitCharacter
  | notHexDigit (pair : Text)
  | notUtf8
  deriving DecidableEq, Repr

/-- One more digit, `none` where the byte overflows. -/
def pushHexDigit (value : ℕ) (c : Char) : Option ℕ := do
  let digit ← hexDigit? c
  if 16 * value + digit < 256 then some (16 * value + digit) else none

/-- The text after an optional sign. -/
def dropSign : Text → Text
  | '+' :: digits => digits
  | text => text

/-- `u8::from_str_radix(text, 16)`: an optional sign, then digits that do not overflow. -/
def fromStrRadix16 (text : Text) : Option UInt8 :=
  if dropSign text = [] then none
  else ((dropSign text).foldlM pushHexDigit 0).map UInt8.ofNat

/-- `chunks(2)`. -/
def byteChunks : List UInt8 → List (List UInt8)
  | [] => []
  | [a] => [[a]]
  | a :: b :: bytes => [a, b] :: byteChunks bytes

/-- The byte of one pair. -/
def hexPair (pair : List UInt8) : Except HexLineError UInt8 :=
  match decodeUtf8 pair with
  | none => .error .splitCharacter
  | some text =>
    match fromStrRadix16 text with
    | none => .error (.notHexDigit text)
    | some byte => .ok byte

/-- Decode the argument of `--line-hex`. -/
def decodeHexLine (hex : Text) : Except HexLineError Text :=
  if byteLen hex % 2 ≠ 0 then .error (.oddLength (byteLen hex))
  else do
    let bytes ← (byteChunks (hex.flatMap String.utf8EncodeChar)).mapM hexPair
    match decodeUtf8 bytes with
    | some line => .ok line
    | none => .error .notUtf8

/-- The buffer, given as text or as hex. -/
def resolveLine (line lineHex : Option Text) : Except HexLineError Text :=
  match line with
  | some line => .ok line
  | none => decodeHexLine (lineHex.getD [])

-- ════════════════════════════════════════════════════════════════════════
-- The format
-- ════════════════════════════════════════════════════════════════════════

def isHexDigit (c : Char) : Bool := (hexDigit? c).isSome

def hexValue (c : Char) : ℕ := (hexDigit? c).getD 0

/-- The bytes that pairs of digits denote. -/
def pairBytes : Text → List UInt8
  | a :: b :: s => UInt8.ofNat (16 * hexValue a + hexValue b) :: pairBytes s
  | _ => []

/-- `hex` is an even number of hex digits, whose pairs are the bytes of `line`. -/
structure HexEncodes (hex line : Text) : Prop where
  even : hex.length % 2 = 0
  digits : ∀ c ∈ hex, isHexDigit c = true
  bytes : pairBytes hex = line.flatMap String.utf8EncodeChar

/-- The sign of each pair, read as the digit zero. -/
def plusAsZero : Text → Text
  | a :: b :: s => (if a = '+' then '0' else a) :: b :: plusAsZero s
  | s => s

/-- What the template sends: two lower-case digits for each byte. -/
def hexLine (line : Text) : Text :=
  (line.flatMap String.utf8EncodeChar).flatMap fun byte => hexByte byte.toNat

/-- The same in capitals. -/
def hexLineUpper (line : Text) : Text := (hexLine line).map Char.toUpper

-- ════════════════════════════════════════════════════════════════════════
-- Pairs
-- ════════════════════════════════════════════════════════════════════════

theorem toNat_of_hexDigit? {c : Char} {d : ℕ} (h : hexDigit? c = some d) :
    d < 16 ∧ c.toNat < 128 := by
  simp only [hexDigit?, Char.le_def, UInt32.le_iff_toNat_le] at h
  have htoNat : c.val.toNat = c.toNat := rfl
  split at h
  · next hrange =>
    obtain ⟨hlow, hhigh⟩ := hrange
    simp only [Option.some.injEq] at h
    simp at hlow hhigh h
    omega
  · split at h
    · next hrange =>
      obtain ⟨hlow, hhigh⟩ := hrange
      simp at hlow hhigh h
      omega
    · split at h
      · next hrange =>
        obtain ⟨hlow, hhigh⟩ := hrange
        simp at hlow hhigh h
        omega
      · cases h

/-- A digit, with its value. -/
theorem hexDigit?_of_isHexDigit {c : Char} (h : isHexDigit c = true) :
    hexDigit? c = some (hexValue c) := by
  obtain ⟨d, hd⟩ := Option.isSome_iff_exists.mp h
  rw [hexValue, hd, Option.getD_some]

theorem toNat_of_isHexDigit {c : Char} (h : isHexDigit c = true) :
    hexValue c < 16 ∧ c.toNat < 128 :=
  toNat_of_hexDigit? (hexDigit?_of_isHexDigit h)

theorem utf8Size_of_toNat_lt {c : Char} (h : c.toNat < 128) : c.utf8Size = 1 :=
  Char.utf8Size_eq_one_iff.mpr (UInt32.le_iff_toNat_le.mpr (Nat.le_of_lt_succ h))

/-- A text of one-byte characters has as many bytes as characters. -/
theorem byteLen_of_ascii {s : Text} (h : ∀ c ∈ s, c.toNat < 128) : byteLen s = s.length := by
  induction s with
  | nil => rfl
  | cons c s ih =>
    rw [List.forall_mem_cons] at h
    rw [Text.byteLen_cons, utf8Size_of_toNat_lt h.1, ih h.2, List.length_cons, Nat.add_comm]

theorem length_flatMap_utf8 (s : Text) :
    (s.flatMap String.utf8EncodeChar).length = byteLen s := by
  simp [List.length_flatMap, byteLen]

theorem pushHexDigit_of_isHexDigit {c : Char} (h : isHexDigit c = true) {value : ℕ}
    (hvalue : value < 16) : pushHexDigit value c = some (16 * value + hexValue c) := by
  have hdigit := (toNat_of_isHexDigit h).1
  simp only [pushHexDigit, hexDigit?_of_isHexDigit h, Option.bind_eq_bind, Option.bind_some]
  rw [if_pos (by omega)]

theorem isHexDigit_of_pushHexDigit {c : Char} {value next : ℕ} (h : pushHexDigit value c = some next) :
    isHexDigit c = true := by
  obtain ⟨digit, hdigit, -⟩ := Option.bind_eq_some_iff.mp h
  exact Option.isSome_of_mem hdigit

/-- What is read digit by digit is digits. -/
theorem isHexDigit_of_foldlM {digits : Text} {start value : ℕ}
    (h : digits.foldlM pushHexDigit start = some value) : ∀ c ∈ digits, isHexDigit c = true := by
  induction digits generalizing start with
  | nil => simp
  | cons c digits ih =>
    rw [List.foldlM_cons] at h
    obtain ⟨next, hnext, hrest⟩ := Option.bind_eq_some_iff.mp h
    exact List.forall_mem_cons.mpr ⟨isHexDigit_of_pushHexDigit hnext, ih hrest⟩

theorem isHexDigit_of_fromStrRadix16 {text : Text} {byte : UInt8}
    (h : fromStrRadix16 text = some byte) : ∀ c ∈ dropSign text, isHexDigit c = true := by
  unfold fromStrRadix16 at h
  split at h
  · cases h
  · obtain ⟨value, hvalue, -⟩ := Option.map_eq_some_iff.mp h
    exact isHexDigit_of_foldlM hvalue

/-- The parser accepts one-byte characters only. -/
theorem ascii_of_fromStrRadix16 {text : Text} {byte : UInt8} (h : fromStrRadix16 text = some byte) :
    ∀ c ∈ text, c.toNat < 128 := by
  have hdigits := isHexDigit_of_fromStrRadix16 h
  unfold dropSign at hdigits
  split at hdigits
  · intro c hc
    obtain rfl | hc := List.mem_cons.mp hc
    · decide
    · exact (toNat_of_isHexDigit (hdigits c hc)).2
  · exact fun c hc => (toNat_of_isHexDigit (hdigits c hc)).2

theorem dropSign_of_ne {a : Char} (h : a ≠ '+') (s : Text) : dropSign (a :: s) = a :: s := by
  unfold dropSign
  split
  · next heq => exact absurd (List.cons.inj heq).1 h
  · rfl

/-- A pair of digits, where a sign in front is as good as a zero. -/
def IsPair (a b : Char) : Prop :=
  isHexDigit (if a = '+' then '0' else a) = true ∧ isHexDigit b = true

theorem fromStrRadix16_of_isPair {a b : Char} (h : IsPair a b) :
    fromStrRadix16 [a, b] =
      some (UInt8.ofNat (16 * hexValue (if a = '+' then '0' else a) + hexValue b)) := by
  obtain ⟨ha, hb⟩ := h
  by_cases hplus : a = '+'
  · subst hplus
    have hzero : hexValue '0' = 0 := by decide
    simp [fromStrRadix16, dropSign, pushHexDigit_of_isHexDigit hb, hzero]
  · rw [if_neg hplus] at ha ⊢
    simp [fromStrRadix16, dropSign_of_ne hplus, pushHexDigit_of_isHexDigit ha,
      pushHexDigit_of_isHexDigit hb (toNat_of_isHexDigit ha).1]

theorem isPair_of_fromStrRadix16 {a b : Char} {byte : UInt8}
    (h : fromStrRadix16 [a, b] = some byte) : IsPair a b := by
  have hdigits := isHexDigit_of_fromStrRadix16 h
  by_cases hplus : a = '+'
  · subst hplus
    exact ⟨by decide, hdigits b (List.mem_singleton.mpr rfl)⟩
  · rw [dropSign_of_ne hplus] at hdigits
    rw [IsPair, if_neg hplus]
    exact ⟨hdigits a (by simp), hdigits b (by simp)⟩

/-- Two bytes that read as a byte are two characters. -/
theorem hexPair_eq_ok {x y byte : UInt8} (h : hexPair [x, y] = .ok byte) :
    ∃ a b, [x, y] = [a, b].flatMap String.utf8EncodeChar ∧ IsPair a b ∧
      byte = UInt8.ofNat (16 * hexValue (if a = '+' then '0' else a) + hexValue b) := by
  unfold hexPair at h
  split at h
  · cases h
  · next text htext =>
    split at h
    · cases h
    · next read hread =>
      obtain rfl := Except.ok.inj h
      have hbytes := decodeUtf8_eq_some.mp htext
      have hlen : text.length = 2 := by
        rw [← byteLen_of_ascii (ascii_of_fromStrRadix16 hread), ← length_flatMap_utf8, ← hbytes]
        rfl
      obtain ⟨a, b, rfl⟩ := List.length_eq_two.mp hlen
      have hpair := isPair_of_fromStrRadix16 hread
      rw [fromStrRadix16_of_isPair hpair] at hread
      exact ⟨a, b, hbytes, hpair, (Option.some.inj hread).symm⟩

theorem utf8_of_ascii {c : Char} (h : c.toNat < 128) :
    String.utf8EncodeChar c = [c.val.toUInt8] :=
  String.utf8EncodeChar_eq_singleton (utf8Size_of_toNat_lt h)

theorem IsPair.ascii {a b : Char} (h : IsPair a b) : a.toNat < 128 ∧ b.toNat < 128 := by
  refine ⟨?_, (toNat_of_isHexDigit h.2).2⟩
  by_cases hplus : a = '+'
  · subst hplus
    decide
  · have ha := h.1
    rw [if_neg hplus] at ha
    exact (toNat_of_isHexDigit ha).2

theorem hexPair_of_isPair {a b : Char} (h : IsPair a b) :
    hexPair ([a, b].flatMap String.utf8EncodeChar) =
      .ok (UInt8.ofNat (16 * hexValue (if a = '+' then '0' else a) + hexValue b)) := by
  simp only [hexPair, decodeUtf8_encode, fromStrRadix16_of_isPair h]

-- ════════════════════════════════════════════════════════════════════════
-- The whole argument
-- ════════════════════════════════════════════════════════════════════════

/-- Bytes that read pair by pair are a text of pairs. -/
theorem exists_of_mapM_hexPair {bytes values : List UInt8}
    (h : (byteChunks bytes).mapM hexPair = .ok values) (heven : bytes.length % 2 = 0) :
    ∃ hex : Text, bytes = hex.flatMap String.utf8EncodeChar ∧ hex.length % 2 = 0 ∧
      (∀ c ∈ plusAsZero hex, isHexDigit c = true) ∧ pairBytes (plusAsZero hex) = values := by
  induction bytes using byteChunks.induct generalizing values with
  | case1 =>
    obtain rfl : [] = values := Except.ok.inj h
    exact ⟨[], rfl, rfl, by simp [plusAsZero], rfl⟩
  | case2 a => simp at heven
  | case3 x y bytes ih =>
    rw [byteChunks, List.mapM_cons] at h
    cases hpair : hexPair [x, y] with
    | error e =>
      rw [hpair] at h
      cases h
    | ok byte =>
      cases hrest : (byteChunks bytes).mapM hexPair with
      | error e =>
        rw [hpair, hrest] at h
        cases h
      | ok rest =>
        rw [hpair, hrest] at h
        obtain rfl : byte :: rest = values := Except.ok.inj h
        obtain ⟨a, b, hbytes, hisPair, rfl⟩ := hexPair_eq_ok hpair
        simp only [List.length_cons] at heven
        obtain ⟨hex, rfl, hlen, hdigits, rfl⟩ := ih hrest (by omega)
        refine ⟨a :: b :: hex, ?_, by simp only [List.length_cons]; omega, ?_, rfl⟩
        · calc x :: y :: hex.flatMap String.utf8EncodeChar
              = [x, y] ++ hex.flatMap String.utf8EncodeChar := rfl
            _ = (a :: b :: hex).flatMap String.utf8EncodeChar := by rw [hbytes]; simp
        · exact List.forall_mem_cons.mpr ⟨hisPair.1, List.forall_mem_cons.mpr ⟨hisPair.2, hdigits⟩⟩

/-- A text of pairs consists of one-byte characters, and reads pair by pair. -/
theorem mapM_hexPair_of_digits {hex : Text} (heven : hex.length % 2 = 0)
    (h : ∀ c ∈ plusAsZero hex, isHexDigit c = true) :
    byteLen hex = hex.length ∧
      (byteChunks (hex.flatMap String.utf8EncodeChar)).mapM hexPair =
        .ok (pairBytes (plusAsZero hex)) := by
  induction hex using plusAsZero.induct with
  | case1 a b hex ih =>
    rw [plusAsZero, List.forall_mem_cons, List.forall_mem_cons] at h
    have hpair : IsPair a b := ⟨h.1, h.2.1⟩
    obtain ⟨ha, hb⟩ := hpair.ascii
    simp only [List.length_cons] at heven
    obtain ⟨hlen, hrest⟩ := ih (by omega) h.2.2
    constructor
    · simp only [Text.byteLen_cons, utf8Size_of_toNat_lt ha, utf8Size_of_toNat_lt hb, hlen,
        List.length_cons]
      omega
    · have hbytes : (a :: b :: hex).flatMap String.utf8EncodeChar =
          a.val.toUInt8 :: b.val.toUInt8 :: hex.flatMap String.utf8EncodeChar := by
        simp [utf8_of_ascii ha, utf8_of_ascii hb]
      have hfirst := hexPair_of_isPair hpair
      simp only [List.flatMap_cons, List.flatMap_nil, utf8_of_ascii ha, utf8_of_ascii hb,
        List.cons_append, List.nil_append] at hfirst
      rw [hbytes, byteChunks, List.mapM_cons, hfirst, hrest]
      rfl
  | case2 hex hshort =>
    cases hex with
    | nil => exact ⟨rfl, rfl⟩
    | cons a hex =>
      cases hex with
      | nil => simp at heven
      | cons b hex => exact absurd rfl (hshort a b hex)

theorem length_plusAsZero (hex : Text) : (plusAsZero hex).length = hex.length := by
  induction hex using plusAsZero.induct with
  | case1 a b hex ih => simp [plusAsZero, ih]
  | case2 hex hshort => rw [plusAsZero.eq_2 _ hshort]

/-- Where every pair is read, the bytes decide. -/
theorem decodeHexLine_of_values {hex line : Text} {values : List UInt8}
    (heven : byteLen hex % 2 = 0)
    (hvalues : (byteChunks (hex.flatMap String.utf8EncodeChar)).mapM hexPair = .ok values) :
    decodeHexLine hex = .ok line ↔ decodeUtf8 values = some line := by
  rw [decodeHexLine, if_neg (not_not_intro heven), hvalues]
  change (match decodeUtf8 values with
    | some line => Except.ok line
    | none => .error HexLineError.notUtf8) = .ok line ↔ _
  cases decodeUtf8 values with
  | none => exact iff_of_false nofun nofun
  | some read => rw [Except.ok.injEq, Option.some.injEq]

theorem exists_of_decodeHexLine {hex line : Text} (h : decodeHexLine hex = .ok line) :
    byteLen hex % 2 = 0 ∧ ∃ values,
      (byteChunks (hex.flatMap String.utf8EncodeChar)).mapM hexPair = .ok values := by
  rw [decodeHexLine] at h
  split at h
  · cases h
  · next heven =>
    refine ⟨not_not.mp heven, ?_⟩
    cases hvalues : (byteChunks (hex.flatMap String.utf8EncodeChar)).mapM hexPair with
    | error e =>
      rw [hvalues] at h
      cases h
    | ok values => exact ⟨values, rfl⟩

/-- The decoder accepts the format with signs for zeros. -/
theorem decodeHexLine_eq_ok (hex line : Text) :
    decodeHexLine hex = .ok line ↔ HexEncodes (plusAsZero hex) line := by
  constructor
  · intro h
    obtain ⟨heven, values, hvalues⟩ := exists_of_decodeHexLine h
    rw [decodeHexLine_of_values heven hvalues] at h
    rw [← length_flatMap_utf8] at heven
    obtain ⟨hex', hsame, hlen, hdigits, rfl⟩ := exists_of_mapM_hexPair hvalues heven
    have hhex : hex' = hex := by
      have hdecode := decodeUtf8_eq_some.mpr hsame
      rw [decodeUtf8_encode] at hdecode
      exact (Option.some.inj hdecode).symm
    subst hhex
    exact ⟨by rwa [length_plusAsZero], hdigits, decodeUtf8_eq_some.mp h⟩
  · intro h
    have heven := h.even
    rw [length_plusAsZero] at heven
    obtain ⟨hlen, hvalues⟩ := mapM_hexPair_of_digits heven h.digits
    rw [← hlen] at heven
    exact (decodeHexLine_of_values heven hvalues).mpr (decodeUtf8_eq_some.mpr h.bytes)

theorem plusAsZero_of_digits {hex : Text} (h : ∀ c ∈ hex, isHexDigit c = true) :
    plusAsZero hex = hex := by
  induction hex using plusAsZero.induct with
  | case1 a b hex ih =>
    simp only [List.forall_mem_cons] at h
    have hplus : a ≠ '+' := by
      rintro rfl
      exact absurd h.1 (by decide)
    rw [plusAsZero, if_neg hplus, ih h.2.2]
  | case2 hex hshort => rw [plusAsZero.eq_2 _ hshort]

-- ════════════════════════════════════════════════════════════════════════
-- The transport encoding
-- ════════════════════════════════════════════════════════════════════════

/-- Two digits a byte, written with any digits that read as their values. -/
theorem hexEncodes_of_digits {digit : ℕ → Char}
    (hdigit : ∀ d < 16, isHexDigit (digit d) = true ∧ hexValue (digit d) = d) (line : Text) :
    HexEncodes ((line.flatMap String.utf8EncodeChar).flatMap fun byte =>
      [digit (byte.toNat / 16), digit (byte.toNat % 16)]) line := by
  generalize hbytes : line.flatMap String.utf8EncodeChar = bytes
  have hall : ∀ bytes : List UInt8,
      (bytes.flatMap fun byte =>
        [digit (byte.toNat / 16), digit (byte.toNat % 16)]).length % 2 = 0 ∧
      (∀ c ∈ bytes.flatMap fun byte => [digit (byte.toNat / 16), digit (byte.toNat % 16)],
        isHexDigit c = true) ∧
      pairBytes (bytes.flatMap fun byte => [digit (byte.toNat / 16), digit (byte.toNat % 16)]) =
        bytes := by
    intro bytes
    induction bytes with
    | nil => exact ⟨rfl, by simp, rfl⟩
    | cons byte bytes ih =>
      have hlt := byte.toNat_lt
      obtain ⟨hhigh, hhighValue⟩ := hdigit (byte.toNat / 16) (by omega)
      obtain ⟨hlow, hlowValue⟩ := hdigit (byte.toNat % 16) (by omega)
      obtain ⟨heven, hdigits, hpairs⟩ := ih
      rw [List.flatMap_cons, List.cons_append, List.cons_append, List.nil_append]
      refine ⟨by simp only [List.length_cons]; omega,
        List.forall_mem_cons.mpr ⟨hhigh, List.forall_mem_cons.mpr ⟨hlow, hdigits⟩⟩, ?_⟩
      rw [pairBytes, hpairs, hhighValue, hlowValue, Nat.div_add_mod, UInt8.ofNat_toNat]
  obtain ⟨heven, hdigits, hpairs⟩ := hall bytes
  exact ⟨heven, hdigits, hpairs.trans hbytes.symm⟩

theorem isHexDigit_digitChar : ∀ d < 16,
    isHexDigit (Nat.digitChar d) = true ∧ hexValue (Nat.digitChar d) = d := by decide

theorem isHexDigit_digitChar_toUpper : ∀ d < 16,
    isHexDigit (Nat.digitChar d).toUpper = true ∧ hexValue (Nat.digitChar d).toUpper = d := by
  decide

/-- What accepts the format decodes it. -/
theorem HexEncodes.decode {hex line : Text} (h : HexEncodes hex line) :
    decodeHexLine hex = .ok line := by
  rw [decodeHexLine_eq_ok, plusAsZero_of_digits h.digits]
  exact h

/-- The decoder inverts the transport encoding, in small letters and in capitals. -/
theorem decodeHexLine_hexLine (line : Text) :
    decodeHexLine (hexLine line) = .ok line ∧ decodeHexLine (hexLineUpper line) = .ok line := by
  constructor
  · exact (hexEncodes_of_digits isHexDigit_digitChar line).decode
  · have hupper := hexEncodes_of_digits isHexDigit_digitChar_toUpper line
    have hmap : hexLineUpper line = (line.flatMap String.utf8EncodeChar).flatMap fun byte =>
        [(Nat.digitChar (byte.toNat / 16)).toUpper, (Nat.digitChar (byte.toNat % 16)).toUpper] := by
      rw [hexLineUpper, hexLine, List.map_flatMap]
      rfl
    rw [hmap]
    exact hupper.decode

/-- **What the decoder accepts.** An argument is accepted exactly as the format says if none of its
    pairs starts with a sign, or if it is refused even with every such sign read as the digit zero.
    The decoder inverts the transport encoding. -/
theorem decodeHexLine_format_iff (hex sent : Text) :
    ((∀ line, decodeHexLine hex = .ok line ↔ HexEncodes hex line) ↔
      plusAsZero hex = hex ∨ ∀ line, ¬ HexEncodes (plusAsZero hex) line) ∧
    decodeHexLine (hexLine sent) = .ok sent ∧ decodeHexLine (hexLineUpper sent) = .ok sent := by
  refine ⟨?_, decodeHexLine_hexLine sent⟩
  constructor
  · intro hformat
    by_cases hplus : plusAsZero hex = hex
    · exact Or.inl hplus
    · refine Or.inr fun line hencodes => hplus ?_
      have hdecode := (decodeHexLine_eq_ok hex line).mpr hencodes
      exact plusAsZero_of_digits ((hformat line).mp hdecode).digits
  · rintro (hplus | hrefused) line
    · rw [decodeHexLine_eq_ok, hplus]
    · rw [decodeHexLine_eq_ok]
      refine iff_of_false (hrefused line) fun hencodes => hrefused line ?_
      rwa [plusAsZero_of_digits hencodes.digits]

/-- A sign and one digit are accepted as a line break. -/
theorem decodeHexLine_sign :
    ¬ ∀ hex line, decodeHexLine hex = .ok line ↔ HexEncodes hex line := by
  intro h
  have hdigits := ((h "+a".toList "\n".toList).mp (by decide)).digits
  exact absurd (hdigits '+' (by decide)) (by decide)

end Runex
