import Mathlib.Algebra.Ring.Nat
import Mathlib.Data.List.Infix
import Mathlib.Data.Nat.Notation

/-!
# Text as Unicode scalar values

A string of the modelled program is the sequence of Unicode scalar values its UTF-8 bytes
encode. Lengths and offsets are counted in three units: bytes of UTF-8, scalar values, and
UTF-16 code units. A slice at a byte offset that is not a character boundary panics in the
program; here it is `none`.

## Main definitions

- `Text.byteLen`, `Text.utf16Len` — length in UTF-8 bytes and in UTF-16 code units
- `Text.splitAt?` — split at a byte offset, `none` inside a character
- `Text.charIndices` — every character with the byte offset it starts at
- `Text.isBlank` — only Unicode white space
-/

/-- A UTF-8 string, as the sequence of Unicode scalar values it encodes. -/
abbrev Text := List Char

namespace Text

-- Statements about the characters of a text are decided along the text, not over all characters.

section Deciding

variable (p : Char → Prop) [DecidablePred p]

instance decidableForall (s : Text) : Decidable (∀ c ∈ s, p c) := List.decidableBAll p s

instance decidableExists (s : Text) : Decidable (∃ c ∈ s, p c) := List.decidableBEx p s

instance decidableForallHead (head : Option Char) : Decidable (∀ c ∈ head, p c) :=
  Option.decidableForallMem head

end Deciding

/-- Length in bytes of UTF-8. -/
def byteLen (s : Text) : ℕ := (s.map Char.utf8Size).sum

@[simp] theorem byteLen_nil : byteLen [] = 0 := rfl

@[simp] theorem byteLen_cons (c : Char) (s : Text) :
    byteLen (c :: s) = c.utf8Size + byteLen s := by
  simp [byteLen]

@[simp] theorem byteLen_append (s t : Text) : byteLen (s ++ t) = byteLen s + byteLen t := by
  simp [byteLen]

theorem length_le_byteLen (s : Text) : s.length ≤ byteLen s := by
  induction s with
  | nil => simp
  | cons c s ih =>
    have hc := c.utf8Size_pos
    simp only [List.length_cons, byteLen_cons]
    omega

theorem byteLen_eq_zero {s : Text} : byteLen s = 0 ↔ s = [] := by
  constructor
  · intro h
    have hlen := length_le_byteLen s
    exact List.eq_nil_of_length_eq_zero (by omega)
  · rintro rfl
    rfl

theorem byteLen_flatten (pieces : List Text) :
    byteLen pieces.flatten = (pieces.map byteLen).sum := by
  induction pieces with
  | nil => rfl
  | cons piece pieces ih => simp [ih]

theorem byteLen_replicate_flatten (n : ℕ) (unit : Text) :
    byteLen (List.replicate n unit).flatten = n * byteLen unit := by
  simp [byteLen_flatten]

theorem byteLen_replicate (n : ℕ) (c : Char) :
    byteLen (List.replicate n c) = n * c.utf8Size := by
  simp [byteLen]

/-- UTF-16 code units of one character: two outside the Basic Multilingual Plane. -/
def utf16Size (c : Char) : ℕ := if c.toNat < 0x10000 then 1 else 2

theorem utf16Size_pos (c : Char) : 0 < utf16Size c := by
  unfold utf16Size
  split <;> omega

/-- Length in UTF-16 code units. -/
def utf16Len (s : Text) : ℕ := (s.map utf16Size).sum

@[simp] theorem utf16Len_nil : utf16Len [] = 0 := rfl

@[simp] theorem utf16Len_cons (c : Char) (s : Text) :
    utf16Len (c :: s) = utf16Size c + utf16Len s := by
  simp [utf16Len]

@[simp] theorem utf16Len_append (s t : Text) : utf16Len (s ++ t) = utf16Len s + utf16Len t := by
  simp [utf16Len]

/-- `str::split_at`: the text before and after byte `n`; `none` where `n` is past the end or
    inside a character, which is where the program panics. -/
def splitAt? : Text → ℕ → Option (Text × Text)
  | s, 0 => some ([], s)
  | [], _ + 1 => none
  | c :: s, n + 1 =>
    if c.utf8Size ≤ n + 1 then
      (splitAt? s (n + 1 - c.utf8Size)).map fun (left, right) => (c :: left, right)
    else none

theorem splitAt?_append (left right : Text) :
    splitAt? (left ++ right) (byteLen left) = some (left, right) := by
  induction left with
  | nil => cases right <;> rfl
  | cons c left ih =>
    obtain ⟨k, hk⟩ : ∃ k, c.utf8Size + byteLen left = k + 1 :=
      ⟨c.utf8Size + byteLen left - 1, by have := c.utf8Size_pos; omega⟩
    simp only [List.cons_append, byteLen_cons, hk, splitAt?]
    rw [if_pos (by omega), ← hk, Nat.add_sub_cancel_left, ih]
    rfl

theorem splitAt?_eq_some {s left right : Text} {n : ℕ} :
    splitAt? s n = some (left, right) ↔ s = left ++ right ∧ byteLen left = n := by
  constructor
  · intro h
    induction s generalizing n left with
    | nil =>
      cases n with
      | zero => simp_all [splitAt?]
      | succ n => simp [splitAt?] at h
    | cons c s ih =>
      cases n with
      | zero => simp_all [splitAt?]
      | succ n =>
        simp only [splitAt?] at h
        split at h
        · next hle =>
          simp only [Option.map_eq_some_iff, Prod.mk.injEq, Prod.exists] at h
          obtain ⟨left', right', hsplit, rfl, rfl⟩ := h
          obtain ⟨rfl, hlen⟩ := ih hsplit
          exact ⟨rfl, by simp only [byteLen_cons]; omega⟩
        · exact absurd h (by simp)
  · rintro ⟨rfl, rfl⟩
    exact splitAt?_append left right

/-- `&s[..n]`. -/
def sliceTo? (s : Text) (n : ℕ) : Option Text := (splitAt? s n).map Prod.fst

/-- `&s[n..]`. -/
def sliceFrom? (s : Text) (n : ℕ) : Option Text := (splitAt? s n).map Prod.snd

@[simp] theorem sliceTo?_append (left right : Text) :
    sliceTo? (left ++ right) (byteLen left) = some left := by
  simp [sliceTo?, splitAt?_append]

@[simp] theorem sliceFrom?_append (left right : Text) :
    sliceFrom? (left ++ right) (byteLen left) = some right := by
  simp [sliceFrom?, splitAt?_append]

/-- Byte `n` of `s` is where a character starts, or the end. -/
def IsBoundary (s : Text) (n : ℕ) : Prop := ∃ left right, s = left ++ right ∧ byteLen left = n

theorem isBoundary_append (left right : Text) : IsBoundary (left ++ right) (byteLen left) :=
  ⟨left, right, rfl, rfl⟩

theorem IsBoundary.le {s : Text} {n : ℕ} (h : IsBoundary s n) : n ≤ byteLen s := by
  obtain ⟨left, right, rfl, rfl⟩ := h
  simp

theorem sliceTo?_eq_some {s left : Text} {n : ℕ} :
    sliceTo? s n = some left ↔ left <+: s ∧ byteLen left = n := by
  simp only [sliceTo?, Option.map_eq_some_iff, Prod.exists, splitAt?_eq_some]
  constructor
  · rintro ⟨_, right, ⟨rfl, hlen⟩, rfl⟩
    exact ⟨List.prefix_append _ right, hlen⟩
  · rintro ⟨⟨right, rfl⟩, hlen⟩
    exact ⟨left, right, ⟨rfl, hlen⟩, rfl⟩

theorem sliceTo?_eq_none {s : Text} {n : ℕ} : sliceTo? s n = none ↔ ¬ IsBoundary s n := by
  rw [Option.eq_none_iff_forall_ne_some]
  constructor
  · rintro h ⟨left, right, rfl, hlen⟩
    exact h left (sliceTo?_eq_some.mpr ⟨List.prefix_append left right, hlen⟩)
  · rintro h left hleft
    obtain ⟨⟨right, rfl⟩, hlen⟩ := sliceTo?_eq_some.mp hleft
    exact h ⟨left, right, rfl, hlen⟩

/-- Of two beginnings of a text the one with fewer bytes is a beginning of the other. -/
theorem prefix_of_byteLen_le {a b s : Text} (ha : a <+: s) (hb : b <+: s)
    (h : byteLen a ≤ byteLen b) : a <+: b := by
  rcases List.prefix_or_prefix_of_prefix ha hb with hab | ⟨t, rfl⟩
  · exact hab
  · rw [byteLen_append] at h
    obtain rfl : t = [] := byteLen_eq_zero.mp (by omega)
    rw [List.append_nil]

/-- `str::char_indices` of a text that starts at byte `offset`. -/
def charIndicesFrom (offset : ℕ) : Text → List (ℕ × Char)
  | [] => []
  | c :: s => (offset, c) :: charIndicesFrom (offset + c.utf8Size) s

/-- `str::char_indices`: every character with the byte it starts at. -/
def charIndices (s : Text) : List (ℕ × Char) := charIndicesFrom 0 s

theorem charIndicesFrom_getElem? (s : Text) (offset k : ℕ) :
    (charIndicesFrom offset s)[k]? = s[k]?.map fun c => (offset + byteLen (s.take k), c) := by
  induction s generalizing offset k with
  | nil => simp [charIndicesFrom]
  | cons c s ih =>
    cases k with
    | zero => simp [charIndicesFrom]
    | succ k => simp [charIndicesFrom, ih, Nat.add_assoc]

theorem charIndices_getElem? (s : Text) (k : ℕ) :
    (charIndices s)[k]? = s[k]?.map fun c => (byteLen (s.take k), c) := by
  simp [charIndices, charIndicesFrom_getElem?]

/-- Texts joined by line breaks: `lines.join("\n")`. -/
def join (lines : List Text) : Text := ['\n'].intercalate lines

/-- `char::is_whitespace`: the Unicode `White_Space` property. -/
def isWhitespace (c : Char) : Bool :=
  (0x09 ≤ c.toNat && c.toNat ≤ 0x0D) || c.toNat == 0x20 || c.toNat == 0x85 || c.toNat == 0xA0 ||
  c.toNat == 0x1680 || (0x2000 ≤ c.toNat && c.toNat ≤ 0x200A) || c.toNat == 0x2028 ||
  c.toNat == 0x2029 || c.toNat == 0x202F || c.toNat == 0x205F || c.toNat == 0x3000

/-- `s.trim().is_empty()`: nothing but white space. -/
def isBlank (s : Text) : Bool := s.all isWhitespace

/-- `char::is_ascii_control`. -/
def isAsciiControl (c : Char) : Bool := c.toNat < 0x20 || c.toNat == 0x7F

/-- `u8::is_ascii_digit` on a character. -/
def isAsciiDigit (c : Char) : Bool := '0' ≤ c && c ≤ '9'

end Text
