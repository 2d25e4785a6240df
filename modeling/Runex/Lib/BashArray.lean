import Runex.Lib.Search
import Runex.Lib.ShellLiteral

/-!
# Bash arrays and `read`

The words of an array literal, and the fields `read -r` splits a line into at a separator that is
not white space.

## Main definitions

- `BashArray.readArray` — the words between the parentheses, and the text after them
- `BashArray.readFields` — the fields for a number of names

## Main results

- `BashArray.readArray_words` — an array of words that are given one by one
- `BashArray.readFields_intercalate` — `read` undoes joining with the separator
-/

namespace BashArray

open Search Scanner ShellLiteral

/-- What may stand between two words. -/
def isGap (c : Char) : Bool := c ∈ [' ', '\t', '\n']

/-- The words up to the closing parenthesis, for at most `fuel - 1` words. -/
def arrayWords : ℕ → Text → Option (List Text × Text)
  | 0, _ => none
  | fuel + 1, s =>
    match s.dropWhile isGap with
    | [] => none
    | c :: t =>
      if c = ')' then some ([], t)
      else do
        let (word, rest) ← bashWord.scan .bare (c :: t)
        let (words, rest) ← arrayWords fuel rest
        some (word :: words, rest)

/-- The words of an array after its opening parenthesis. A word takes a character at least. -/
def readArray (s : Text) : Option (List Text × Text) := arrayWords (s.length + 1) s

/-- A text that Bash reads as one word with this value. -/
structure IsWord (text value : Text) : Prop where
  starts : ∀ c ∈ text.head?, isGap c = false ∧ c ≠ ')'
  ne_nil : text ≠ []
  drives : bashWord.drive .bare text = some (.bare, value)

theorem dropWhile_isGap {gap rest : Text} (hgap : ∀ c ∈ gap, isGap c = true)
    (hrest : ∀ c ∈ rest.head?, isGap c = false) : (gap ++ rest).dropWhile isGap = rest := by
  rw [List.dropWhile_append_of_pos hgap]
  cases rest with
  | nil => rfl
  | cons c s => exact List.dropWhile_cons_of_neg (by simp [hrest c rfl])

theorem arrayWords_close {gap : Text} (hgap : ∀ c ∈ gap, isGap c = true) (fuel : ℕ) (rest : Text) :
    arrayWords (fuel + 1) (gap ++ ')' :: rest) = some ([], rest) := by
  rw [arrayWords, dropWhile_isGap hgap (by simp [isGap])]
  rfl

/-- The first word of an array, when something follows that ends it. -/
theorem arrayWords_word {gap text value : Text} (hgap : ∀ c ∈ gap, isGap c = true)
    (hword : IsWord text value) {rest : Text} (hrest : ∀ c ∈ rest.head?, endsBashWord c = true)
    (fuel : ℕ) :
    arrayWords (fuel + 1) (gap ++ (text ++ rest)) =
      (arrayWords fuel rest).map fun (words, after) => (value :: words, after) := by
  have hscan := scan_of_drive hword.drives (bashWord_ends hrest)
  cases text with
  | nil => exact absurd rfl hword.ne_nil
  | cons c s =>
    obtain ⟨hstart, hclose⟩ := hword.starts c rfl
    rw [arrayWords, dropWhile_isGap hgap (by simpa using hstart)]
    rw [List.cons_append] at hscan
    simp only [List.cons_append, if_neg hclose, hscan, Option.bind_eq_bind, Option.bind_some]
    cases arrayWords fuel rest <;> rfl

theorem endsBashWord_of_isGap {c : Char} (h : isGap c = true) : endsBashWord c = true := by
  simp only [isGap, endsBashWord, List.mem_cons, List.not_mem_nil, or_false, decide_eq_true_eq] at *
  tauto

/-- A gap or the closing parenthesis ends the word before it. -/
theorem endsBashWord_head? {gap : Text} (hgap : ∀ c ∈ gap, isGap c = true) {rest : Text}
    (hrest : ∀ c ∈ rest.head?, endsBashWord c = true) :
    ∀ c ∈ (gap ++ rest).head?, endsBashWord c = true := by
  cases gap with
  | nil => exact hrest
  | cons d gap =>
    intro c hc
    simp only [List.cons_append, List.head?_cons, Option.mem_some_iff] at hc
    exact hc ▸ endsBashWord_of_isGap (hgap d (by simp))

/-- An array of words, each after a gap. -/
theorem arrayWords_words {α : Type} {gap : Text} (hgap : ∀ c ∈ gap, isGap c = true) (hne : gap ≠ [])
    {text value : α → Text} {items : List α} (h : ∀ a ∈ items, IsWord (text a) (value a))
    {closing : Text} (hclosing : ∀ c ∈ closing, isGap c = true) (rest : Text) (fuel : ℕ) :
    arrayWords (fuel + items.length + 1)
        (items.flatMap (fun a => gap ++ text a) ++ (closing ++ ')' :: rest)) =
      some (items.map value, rest) := by
  induction items with
  | nil => exact arrayWords_close hclosing fuel rest
  | cons a items ih =>
    have hend : ∀ c ∈ (items.flatMap (fun a => gap ++ text a) ++
        (closing ++ ')' :: rest)).head?, endsBashWord c = true := by
      cases items with
      | nil => exact endsBashWord_head? hclosing (by simp [endsBashWord])
      | cons b items =>
        obtain ⟨c, gap, rfl⟩ := List.exists_cons_of_ne_nil hne
        intro d hd
        simp only [List.flatMap_cons, List.cons_append, List.head?_cons, Option.mem_some_iff] at hd
        exact hd ▸ endsBashWord_of_isGap (hgap c (by simp))
    rw [List.flatMap_cons, List.append_assoc, List.append_assoc, List.length_cons, ← Nat.add_assoc,
      arrayWords_word hgap (h a (by simp)) hend, ih fun b hb => h b (by simp [hb])]
    rfl

theorem readArray_words {α : Type} {gap : Text} (hgap : ∀ c ∈ gap, isGap c = true) (hne : gap ≠ [])
    {text value : α → Text} {items : List α} (h : ∀ a ∈ items, IsWord (text a) (value a))
    {closing : Text} (hclosing : ∀ c ∈ closing, isGap c = true) (rest : Text) :
    readArray (items.flatMap (fun a => gap ++ text a) ++ (closing ++ ')' :: rest)) =
      some (items.map value, rest) := by
  have hlength : items.length ≤ (items.flatMap fun a => gap ++ text a).length :=
    length_le_length_flatMap fun a _ => by simp [hne]
  obtain ⟨fuel, hfuel⟩ : ∃ fuel, (items.flatMap (fun a => gap ++ text a) ++
      (closing ++ ')' :: rest)).length = fuel + items.length := by
    rw [List.length_append]
    exact ⟨_, (Nat.sub_add_cancel (by omega)).symm⟩
  rw [readArray, hfuel]
  exact arrayWords_words hgap hne h hclosing rest fuel

/-- What the last name gets: the remainder, less a separator that only ends it. -/
def lastField (sep : Char) (s : Text) : Text :=
  match splitOnce [sep] s with
  | some (field, []) => field
  | _ => s

/-- `IFS=sep read -r` with `n` names. A name without a field is empty. -/
def readFields (sep : Char) : ℕ → Text → List Text
  | 0, _ => []
  | 1, s => [lastField sep s]
  | n + 2, s =>
    match splitOnce [sep] s with
    | some (field, rest) => field :: readFields sep (n + 1) rest
    | none => s :: List.replicate (n + 1) []

theorem readFields_intercalate {sep : Char} {fields : List Text} (hne : fields ≠ [])
    (h : ∀ field ∈ fields, sep ∉ field) :
    readFields sep fields.length ([sep].intercalate fields) = fields := by
  induction fields with
  | nil => exact absurd rfl hne
  | cons field fields ih =>
    have hfield := h field (by simp)
    cases fields with
    | nil =>
      have hnone : splitOnce [sep] field = none := splitOnce_singleton_eq_none.mpr hfield
      simp [readFields, lastField, hnone]
    | cons next fields =>
      have hsome : splitOnce [sep] (field ++ sep :: [sep].intercalate (next :: fields)) =
          some (field, [sep].intercalate (next :: fields)) :=
        splitOnce_singleton_eq_some.mpr ⟨rfl, hfield⟩
      rw [List.intercalate_cons_cons, List.append_assoc, List.singleton_append, List.length_cons,
        List.length_cons, readFields, hsome]
      simp only
      rw [← List.length_cons (a := next), ih (by simp) fun f hf => h f (by simp_all)]

end BashArray
