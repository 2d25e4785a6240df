import Runex.Lib.EditDistance
import Runex.Lib.FileStore

/-!
# Did you mean

The suggestions for a misspelt name: the distance is computed with two rows of a table, which
change places after every row, and the nearest candidate within two edits is proposed.

## Main definitions

- `levenshtein` — the distance of two strings, by bytes
- `suggestSimilar` — the nearest candidate

## Main results

- `getElem_fillRow`, `fst_rows` — what the rows hold
- `suggestSimilar_spec` — the distance is the recursive one, and the suggestion the nearest
-/

namespace Runex

open EditDistance
open FileStore (utf8)

/-- The inner loop: entry `k + 1` of `curr` for the first `j` values of `k`. The entries after them
    are those of an older row. -/
def fillRow (x : UInt8) (b : List UInt8) (prev curr : Vector ℕ (b.length + 1)) :
    (j : ℕ) → j ≤ b.length → Vector ℕ (b.length + 1)
  | 0, _ => curr
  | k + 1, hk =>
    let curr := fillRow x b prev curr k (Nat.le_of_succ_le hk)
    let cost := if x = b[k] then 0 else 1
    curr.set (k + 1) (min (min (prev[k + 1] + 1) (curr[k] + 1)) (prev[k] + cost))

/-- The outer loop: `prev` and `curr` after `i` rows. -/
def rows (a b : List UInt8) :
    (i : ℕ) → i ≤ a.length → Vector ℕ (b.length + 1) × Vector ℕ (b.length + 1)
  | 0, _ => (Vector.ofFn fun j => j.val, Vector.replicate _ 0)
  | i + 1, hi =>
    let (prev, curr) := rows a b i (Nat.le_of_succ_le hi)
    let curr := curr.set 0 (i + 1)
    let curr := fillRow a[i] b prev curr b.length (Nat.le_refl _)
    -- `std::mem::swap`.
    (curr, prev)

/-- The distance of two strings. -/
def levenshtein (a b : Text) : ℕ :=
  let a := utf8 a
  let b := utf8 b
  (rows a b a.length (Nat.le_refl _)).1[b.length]

/-- The nearest candidate, the first of them if there are several. -/
def suggestSimilar (name : Text) (candidates : List Text) : Option Text :=
  let near := candidates.filterMap fun c =>
    let d := levenshtein name c
    if d ≤ 2 ∧ d > 0 then some (c, d) else none
  (near.minOn? Prod.snd).map Prod.fst

-- ════════════════════════════════════════════════════════════════════════
-- The rows
-- ════════════════════════════════════════════════════════════════════════

section Rows

variable {a b before : List UInt8} {x : UInt8} {prev curr : Vector ℕ (b.length + 1)}

/-- A row holds the distances of one text to all beginnings of the other. -/
def RowOf (before b : List UInt8) (row : Vector ℕ (b.length + 1)) : Prop :=
  ∀ j (hj : j ≤ b.length), row[j] = distance before (b.take j)

/-- The entries that are filled are those of the next row, whatever the others are. -/
theorem getElem_fillRow (hprev : RowOf before b prev) (hcurr : curr[0] = before.length + 1) :
    ∀ (k : ℕ) (hk : k ≤ b.length) (j : ℕ) (hj : j ≤ k),
      (fillRow x b prev curr k hk)[j] = distance (before ++ [x]) (b.take j) := by
  intro k
  induction k with
  | zero =>
    intro hk j hj
    obtain rfl : j = 0 := by omega
    rw [List.take_zero, distance_nil_right, List.length_append]
    exact hcurr
  | succ k ih =>
    intro hk j hj
    have ih := ih (Nat.le_of_succ_le hk)
    by_cases hlast : j = k + 1
    · subst hlast
      have hleft := ih k (Nat.le_refl k)
      have habove := hprev (k + 1) hk
      have hdiagonal := hprev k (Nat.le_of_succ_le hk)
      have htake : b.take (k + 1) = b.take k ++ [b[k]] := List.take_succ_eq_append_getElem hk
      rw [fillRow, Vector.getElem_set_self, hleft, habove, hdiagonal, htake, distance_concat]
      rfl
    · have hbefore := ih j (by omega)
      rw [fillRow, Vector.getElem_set_ne (h := Ne.symm hlast)]
      exact hbefore

theorem fst_rows (a b : List UInt8) (i : ℕ) (hi : i ≤ a.length) :
    RowOf (a.take i) b (rows a b i hi).1 := by
  induction i with
  | zero =>
    intro j hj
    rw [List.take_zero, distance_nil_left, List.length_take_of_le hj, rows]
    simp
  | succ i ih =>
    have ih := ih (Nat.le_of_succ_le hi)
    intro j hj
    have htake : a.take (i + 1) = a.take i ++ [a[i]] := List.take_succ_eq_append_getElem hi
    have hzero :
        ((rows a b i (Nat.le_of_succ_le hi)).2.set 0 (i + 1))[0] = (a.take i).length + 1 := by
      rw [Vector.getElem_set_self, List.length_take_of_le (Nat.le_of_succ_le hi)]
    rw [htake]
    exact getElem_fillRow ih hzero b.length (Nat.le_refl _) j hj

theorem levenshtein_eq (a b : Text) : levenshtein a b = distance (utf8 a) (utf8 b) := by
  have h :=
    fst_rows (utf8 a) (utf8 b) (utf8 a).length (Nat.le_refl _) (utf8 b).length (Nat.le_refl _)
  rw [List.take_length, List.take_length] at h
  exact h

end Rows

-- ════════════════════════════════════════════════════════════════════════
-- The nearest candidate
-- ════════════════════════════════════════════════════════════════════════

section Least

variable {α : Type} {f : α → ℕ} {l : List α} {m : α}

theorem exists_split_of_minOn? (h : l.minOn? f = some m) :
    ∃ before after, l = before ++ m :: after ∧ (∀ a ∈ l, f m ≤ f a) ∧ ∀ a ∈ before, f m < f a := by
  induction l generalizing m with
  | nil => cases h
  | cons x l ih =>
    rw [List.minOn?_cons, Option.some.injEq] at h
    cases hl : l.minOn? f with
    | none =>
      rw [hl] at h
      obtain rfl : x = m := h
      obtain rfl : l = [] := by
        by_contra hne
        rw [← Option.not_isSome_iff_eq_none, List.isSome_minOn?_iff] at hl
        exact hl hne
      exact ⟨[], [], rfl, by simp, by simp⟩
    | some c =>
      rw [hl] at h
      obtain ⟨before, after, rfl, hleast, hfirst⟩ := ih hl
      by_cases hle : f x ≤ f c
      · obtain rfl : x = m := (minOn_eq_left hle).symm.trans h
        refine ⟨[], _, rfl, ?_, by simp⟩
        rw [List.forall_mem_cons]
        exact ⟨Nat.le_refl _, fun a ha => Nat.le_trans hle (hleast a ha)⟩
      · obtain rfl : c = m := (minOn_eq_right hle).symm.trans h
        refine ⟨x :: before, after, rfl, ?_, ?_⟩
        · rw [List.forall_mem_cons]
          exact ⟨by omega, hleast⟩
        · rw [List.forall_mem_cons]
          exact ⟨by omega, hfirst⟩

theorem minOn?_append_cons {before after : List α} (hleast : ∀ a ∈ before ++ m :: after, f m ≤ f a)
    (hfirst : ∀ a ∈ before, f m < f a) : (before ++ m :: after).minOn? f = some m := by
  induction before with
  | nil =>
    rw [List.nil_append, List.minOn?_cons]
    cases hafter : after.minOn? f with
    | none => rfl
    | some c =>
      have hle : f m ≤ f c := hleast c (List.mem_cons_of_mem m (List.minOn?_mem hafter))
      exact congrArg some (minOn_eq_left hle)
  | cons x before ih =>
    rw [List.forall_mem_cons] at hfirst
    have hrest := ih (fun a ha => hleast a (List.mem_cons_of_mem x ha)) hfirst.2
    have hnot : ¬ f x ≤ f m := by omega
    rw [List.cons_append, List.minOn?_cons, hrest]
    exact congrArg some (minOn_eq_right hnot)

/-- The least item of a list is the first of those with that value. -/
theorem minOn?_eq_some_iff : l.minOn? f = some m ↔
    ∃ before after, l = before ++ m :: after ∧ (∀ a ∈ l, f m ≤ f a) ∧ ∀ a ∈ before, f m < f a := by
  constructor
  · exact exists_split_of_minOn?
  · rintro ⟨before, after, rfl, hleast, hfirst⟩
    exact minOn?_append_cons hleast hfirst

end Least

section Suggestion

variable {name c : Text} {candidates : List Text}

/-- The candidates within two edits, and how far they are. -/
def nearCandidates (name : Text) (candidates : List Text) : List (Text × ℕ) :=
  candidates.filterMap fun c =>
    if levenshtein name c ≤ 2 ∧ levenshtein name c > 0 then some (c, levenshtein name c) else none

theorem mem_nearCandidates {d : ℕ} : (c, d) ∈ nearCandidates name candidates ↔
    c ∈ candidates ∧ d = levenshtein name c ∧ 1 ≤ d ∧ d ≤ 2 := by
  simp only [nearCandidates, List.mem_filterMap, Option.ite_none_right_eq_some, Option.some.injEq,
    Prod.mk.injEq]
  constructor
  · rintro ⟨c', hmem, ⟨hle, hpos⟩, rfl, rfl⟩
    exact ⟨hmem, rfl, hpos, hle⟩
  · rintro ⟨hmem, rfl, hpos, hle⟩
    exact ⟨c, hmem, ⟨hle, hpos⟩, rfl, rfl⟩

theorem suggestSimilar_eq_none_iff : suggestSimilar name candidates = none ↔
    ∀ c ∈ candidates, levenshtein name c ≠ 1 ∧ levenshtein name c ≠ 2 := by
  have hnone : suggestSimilar name candidates = none ↔ nearCandidates name candidates = [] := by
    rw [suggestSimilar, Option.map_eq_none_iff, ← Option.not_isSome_iff_eq_none,
      List.isSome_minOn?_iff, not_not]
    rfl
  rw [hnone, List.eq_nil_iff_forall_not_mem]
  constructor
  · intro h c hc
    have hnot := h (c, levenshtein name c)
    rw [mem_nearCandidates] at hnot
    constructor
    · intro hone
      exact hnot ⟨hc, rfl, by omega, by omega⟩
    · intro htwo
      exact hnot ⟨hc, rfl, by omega, by omega⟩
  · rintro h ⟨c, d⟩ hmem
    obtain ⟨hc, rfl, hpos, hle⟩ := mem_nearCandidates.mp hmem
    have := h c hc
    omega

/-- What the near candidates split into comes from a split of the candidates. -/
theorem exists_split_of_nearCandidates {d : ℕ} {near far : List (Text × ℕ)}
    (h : nearCandidates name candidates = near ++ (c, d) :: far) :
    ∃ before after, candidates = before ++ c :: after ∧ nearCandidates name before = near := by
  obtain ⟨front, rest, rfl, hfront, hrest⟩ := List.filterMap_eq_append_iff.mp h
  obtain ⟨skipped, c', after, rfl, hskipped, hc', -⟩ := List.filterMap_eq_cons_iff.mp hrest
  obtain rfl : c' = c := by
    simp only [Option.ite_none_right_eq_some, Option.some.injEq, Prod.mk.injEq] at hc'
    exact hc'.2.1
  refine ⟨front ++ skipped, after, by simp, ?_⟩
  rw [nearCandidates, List.filterMap_append, hfront, List.filterMap_eq_nil_iff.mpr hskipped,
    List.append_nil]

/-- The suggestion is the first of the nearest candidates. -/
theorem suggestSimilar_eq_some_iff : suggestSimilar name candidates = some c ↔
    ∃ before after, candidates = before ++ c :: after ∧
      1 ≤ levenshtein name c ∧ levenshtein name c ≤ 2 ∧
      (∀ other ∈ candidates, 1 ≤ levenshtein name other →
        levenshtein name c ≤ levenshtein name other) ∧
      ∀ other ∈ before, levenshtein name other ≠ levenshtein name c := by
  have hsome : suggestSimilar name candidates = some c ↔
      ∃ d, (nearCandidates name candidates).minOn? Prod.snd = some (c, d) := by
    rw [suggestSimilar, Option.map_eq_some_iff]
    simp [nearCandidates]
  simp only [hsome, minOn?_eq_some_iff]
  constructor
  · rintro ⟨d, before, after, hsplit, hleast, hfirst⟩
    have hmem : (c, d) ∈ nearCandidates name candidates := by
      rw [hsplit]
      exact List.mem_append_right before List.mem_cons_self
    obtain ⟨-, rfl, hpos, hle⟩ := mem_nearCandidates.mp hmem
    obtain ⟨front, back, rfl, rfl⟩ := exists_split_of_nearCandidates hsplit
    refine ⟨front, back, rfl, hpos, hle, fun other hother hone => ?_, fun other hother heq => ?_⟩
    · by_cases htwo : levenshtein name other ≤ 2
      · exact hleast (other, _) (mem_nearCandidates.mpr ⟨hother, rfl, hone, htwo⟩)
      · omega
    · have hnear : (other, levenshtein name other) ∈ nearCandidates name front :=
        mem_nearCandidates.mpr ⟨hother, rfl, by omega, by omega⟩
      have hlt := hfirst _ hnear
      simp only at hlt
      omega
  · rintro ⟨before, after, rfl, hpos, hle, hleast, hfirst⟩
    refine ⟨levenshtein name c, nearCandidates name before, nearCandidates name after, ?_, ?_, ?_⟩
    · rw [nearCandidates, List.filterMap_append, List.filterMap_cons, if_pos ⟨hle, hpos⟩]
      rfl
    · rintro ⟨other, d⟩ hmem
      obtain ⟨hother, rfl, hone, -⟩ := mem_nearCandidates.mp hmem
      exact hleast other hother hone
    · rintro ⟨other, d⟩ hmem
      obtain ⟨hother, rfl, hone, -⟩ := mem_nearCandidates.mp hmem
      have hne := hfirst other hother
      have hle := hleast other (List.mem_append_left _ hother) hone
      simp only
      omega

end Suggestion

/-- The distance is the least number of edits of bytes, and the suggestion the first of the
    candidates that are nearest, not counting the name itself, if it is within two edits. -/
theorem suggestSimilar_spec :
    (∀ a b : Text, levenshtein a b = distance (utf8 a) (utf8 b)) ∧
    ∀ (name : Text) (candidates : List Text),
      (∀ c, suggestSimilar name candidates = some c ↔
        ∃ before after, candidates = before ++ c :: after ∧
          1 ≤ levenshtein name c ∧ levenshtein name c ≤ 2 ∧
          (∀ other ∈ candidates, 1 ≤ levenshtein name other →
            levenshtein name c ≤ levenshtein name other) ∧
          ∀ other ∈ before, levenshtein name other ≠ levenshtein name c) ∧
      (suggestSimilar name candidates = none ↔
        ∀ c ∈ candidates, levenshtein name c ≠ 1 ∧ levenshtein name c ≠ 2) :=
  ⟨levenshtein_eq, fun _ _ => ⟨fun _ => suggestSimilar_eq_some_iff, suggestSimilar_eq_none_iff⟩⟩

example : levenshtein "expnd".toList "expand".toList = 1 ∧ levenshtein [] "key".toList = 3 ∧
    suggestSimilar "expnd".toList ["key".toList, "expand".toList] = some "expand".toList := by
  decide

end Runex
