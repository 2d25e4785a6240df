import Mathlib.Data.List.Infix
import Mathlib.Data.Nat.Notation

/-!
# Searching and replacing in lists

The substring operations of a string library, on lists over any type with decidable equality:
strip a prefix or a suffix, split at the first occurrence of a pattern, replace or count the
non-overlapping occurrences from left to right.

## Main definitions

- `Search.stripPrefix?`, `Search.stripSuffix?`
- `Search.splitOnce` — the parts around the first occurrence of a pattern
- `Search.splitLast` — the parts around the last occurrence of an element
- `Search.replaceAll`, `Search.countMatches` — leftmost non-overlapping occurrences
- `Search.replaceFirst` — the first occurrence
-/

namespace Search

variable {α : Type*} [DecidableEq α]

-- ════════════════════════════════════════════════════════════════════════
-- Prefixes and suffixes
-- ════════════════════════════════════════════════════════════════════════

/-- `s.strip_prefix(pat)`. -/
def stripPrefix? : List α → List α → Option (List α)
  | [], s => some s
  | _ :: _, [] => none
  | p :: pat, c :: s => if p = c then stripPrefix? pat s else none

theorem stripPrefix?_eq_some {pat s rest : List α} :
    stripPrefix? pat s = some rest ↔ s = pat ++ rest := by
  induction pat generalizing s with
  | nil => simp [stripPrefix?]
  | cons p pat ih =>
    cases s with
    | nil => simp [stripPrefix?]
    | cons c s =>
      simp only [stripPrefix?, List.cons_append, List.cons.injEq]
      split
      · next hpc => simp [ih, hpc]
      · next hpc => simp [Ne.symm hpc]

@[simp] theorem stripPrefix?_append (pat rest : List α) :
    stripPrefix? pat (pat ++ rest) = some rest :=
  stripPrefix?_eq_some.mpr rfl

theorem stripPrefix?_eq_none {pat s : List α} : stripPrefix? pat s = none ↔ ¬ pat <+: s := by
  rw [Option.eq_none_iff_forall_ne_some]
  simp only [ne_eq, stripPrefix?_eq_some]
  constructor
  · rintro h ⟨rest, rfl⟩
    exact h rest rfl
  · rintro h rest rfl
    exact h (List.prefix_append pat rest)

/-- `s.strip_suffix(pat)`. -/
def stripSuffix? (pat s : List α) : Option (List α) :=
  (stripPrefix? pat.reverse s.reverse).map List.reverse

theorem stripSuffix?_eq_some {pat s rest : List α} :
    stripSuffix? pat s = some rest ↔ s = rest ++ pat := by
  simp only [stripSuffix?, Option.map_eq_some_iff, stripPrefix?_eq_some]
  constructor
  · rintro ⟨rev, hrev, rfl⟩
    have := congrArg List.reverse hrev
    simpa using this
  · rintro rfl
    exact ⟨rest.reverse, by simp, by simp⟩

@[simp] theorem stripSuffix?_append (s pat : List α) : stripSuffix? pat (s ++ pat) = some s :=
  stripSuffix?_eq_some.mpr rfl

theorem stripSuffix?_eq_none {pat s : List α} : stripSuffix? pat s = none ↔ ¬ pat <:+ s := by
  rw [Option.eq_none_iff_forall_ne_some]
  simp only [ne_eq, stripSuffix?_eq_some]
  constructor
  · rintro h ⟨rest, rfl⟩
    exact h rest rfl
  · rintro h rest rfl
    exact h (List.suffix_append rest pat)

-- ════════════════════════════════════════════════════════════════════════
-- Joined and split pieces
-- ════════════════════════════════════════════════════════════════════════

omit [DecidableEq α] in
theorem mem_of_mem_intercalate {sep : List α} {pieces : List (List α)} {c : α}
    (h : c ∈ sep.intercalate pieces) : c ∈ sep ∨ ∃ s ∈ pieces, c ∈ s := by
  induction pieces with
  | nil => simp at h
  | cons s pieces ih =>
    cases pieces with
    | nil => exact Or.inr ⟨s, by simp, by simpa using h⟩
    | cons t pieces =>
      rw [List.intercalate_cons_cons, List.append_assoc, List.mem_append, List.mem_append] at h
      rcases h with h | h | h
      · exact Or.inr ⟨s, by simp, h⟩
      · exact Or.inl h
      · exact (ih h).imp_right fun ⟨u, hu, hc⟩ => ⟨u, List.mem_cons_of_mem s hu, hc⟩

/-- Pieces that are not empty are no more than their elements. -/
theorem length_le_length_flatMap {β γ : Type*} {items : List β} {f : β → List γ}
    (h : ∀ a ∈ items, f a ≠ []) : items.length ≤ (items.flatMap f).length := by
  induction items with
  | nil => simp
  | cons a items ih =>
    have hrest := ih fun b hb => h b (by simp [hb])
    have ha := List.length_pos_iff.mpr (h a (by simp))
    rw [List.flatMap_cons, List.length_append, List.length_cons]
    omega

theorem not_mem_of_mem_splitOn {sep : α} {s : List α} : ∀ piece ∈ s.splitOn sep, sep ∉ piece := by
  induction s with
  | nil => simp
  | cons c s ih =>
    obtain ⟨first, rest, hsplit⟩ := List.exists_cons_of_ne_nil (List.splitOn_ne_nil sep s)
    rw [hsplit, List.forall_mem_cons] at ih
    rw [List.splitOn_cons_eq_if_modifyHead, hsplit]
    split
    · simpa using ih
    · next hc =>
      have hsep : sep ≠ c := fun h => hc (beq_iff_eq.mpr h.symm)
      simpa [hsep] using ih

-- ════════════════════════════════════════════════════════════════════════
-- First and last occurrence
-- ════════════════════════════════════════════════════════════════════════

/-- `s.split_once(pat)`: the parts before and after the first occurrence of `pat`. -/
def splitOnce (pat : List α) (s : List α) : Option (List α × List α) :=
  match stripPrefix? pat s with
  | some rest => some ([], rest)
  | none =>
    match s with
    | [] => none
    | c :: s => (splitOnce pat s).map fun (before, after) => (c :: before, after)

theorem splitOnce_append (pat rest : List α) : splitOnce pat (pat ++ rest) = some ([], rest) := by
  rw [splitOnce.eq_def, stripPrefix?_append]

theorem splitOnce_cons {pat : List α} {c : α} {s : List α} (h : ¬ pat <+: c :: s) :
    splitOnce pat (c :: s) =
      (splitOnce pat s).map fun (before, after) => (c :: before, after) := by
  rw [splitOnce, stripPrefix?_eq_none.mpr h]

theorem eq_append_of_splitOnce {pat s before after : List α}
    (h : splitOnce pat s = some (before, after)) : s = before ++ (pat ++ after) := by
  induction s generalizing before with
  | nil =>
    unfold splitOnce at h
    split at h
    · next rest hrest =>
      simp only [Option.some.injEq, Prod.mk.injEq] at h
      obtain ⟨rfl, rfl⟩ := h
      simpa using stripPrefix?_eq_some.mp hrest
    · simp at h
  | cons c s ih =>
    unfold splitOnce at h
    split at h
    · next rest hrest =>
      simp only [Option.some.injEq, Prod.mk.injEq] at h
      obtain ⟨rfl, rfl⟩ := h
      simpa using stripPrefix?_eq_some.mp hrest
    · simp only [Option.map_eq_some_iff, Prod.mk.injEq, Prod.exists] at h
      obtain ⟨before', after', hsplit, rfl, rfl⟩ := h
      simp [ih hsplit]

theorem splitOnce_eq_none {pat s : List α} : splitOnce pat s = none ↔ ¬ pat <:+: s := by
  induction s with
  | nil =>
    rw [splitOnce]
    split
    · next rest hrest =>
      have hpat := stripPrefix?_eq_some.mp hrest
      simp_all
    · next hrest =>
      rw [stripPrefix?_eq_none] at hrest
      simpa using fun hnil => hrest (by simp [hnil])
  | cons c s ih =>
    by_cases hp : pat <+: c :: s
    · obtain ⟨rest, hrest⟩ := hp
      rw [← hrest, splitOnce_append]
      simp only [reduceCtorEq, false_iff, not_not]
      exact (List.prefix_append pat rest).isInfix
    · rw [splitOnce_cons hp, Option.map_eq_none_iff, ih, List.infix_cons_iff, not_or]
      exact ⟨fun hs => ⟨hp, hs⟩, And.right⟩

omit [DecidableEq α] in
/-- An occurrence does not reach over an element that the pattern has not. -/
theorem infix_append_cons {pat l r : List α} {c : α} (hc : c ∉ pat) (h : pat <:+: l ++ c :: r) :
    pat <:+: l ∨ pat <:+: r := by
  have hstart : ∀ l : List α, pat <+: l ++ c :: r → pat <+: l := by
    intro l hp
    rcases List.prefix_or_prefix_of_prefix hp (List.prefix_append l (c :: r)) with hl | ⟨t, rfl⟩
    · exact hl
    · cases t with
      | nil => simp
      | cons d t =>
        obtain rfl : d = c := (List.cons_prefix_cons.mp ((List.prefix_append_right_inj l).mp hp)).1
        exact absurd (by simp) hc
  induction l with
  | nil =>
    rcases List.infix_cons_iff.mp h with hp | hi
    · exact Or.inl (hstart [] hp).isInfix
    · exact Or.inr hi
  | cons d l ih =>
    rcases List.infix_cons_iff.mp h with hp | hi
    · exact Or.inl (hstart (d :: l) hp).isInfix
    · exact (ih hi).imp_left List.infix_cons

/-- The first occurrence starts no later than any other. -/
theorem splitOnce_first {pat s before after before' after' : List α}
    (h : splitOnce pat s = some (before, after)) (hs : s = before' ++ (pat ++ after')) :
    before.length ≤ before'.length := by
  induction s generalizing before before' with
  | nil =>
    have hnil := eq_append_of_splitOnce h
    simp_all
  | cons c s ih =>
    by_cases hp : pat <+: c :: s
    · obtain ⟨rest, hrest⟩ := hp
      rw [← hrest, splitOnce_append] at h
      simp only [Option.some.injEq, Prod.mk.injEq] at h
      simp [← h.1]
    · rw [splitOnce_cons hp] at h
      simp only [Option.map_eq_some_iff, Prod.mk.injEq, Prod.exists] at h
      obtain ⟨first, rest, hsplit, rfl, rfl⟩ := h
      cases before' with
      | nil => exact absurd ⟨after', by simpa using hs.symm⟩ hp
      | cons d before' =>
        simp only [List.cons_append, List.cons.injEq] at hs
        have := ih hsplit hs.2
        simpa using this

/-- An occurrence in a prefix stays the first one when the text goes on. -/
theorem splitOnce_append_of_some {pat s before after : List α}
    (h : splitOnce pat s = some (before, after)) (t : List α) :
    splitOnce pat (s ++ t) = some (before, after ++ t) := by
  induction s generalizing before with
  | nil =>
    have hnil := eq_append_of_splitOnce h
    simp only [List.nil_eq, List.append_eq_nil_iff] at hnil
    obtain ⟨rfl, rfl, rfl⟩ := hnil
    exact splitOnce_append [] t
  | cons c s ih =>
    by_cases hp : pat <+: c :: s
    · obtain ⟨rest, hrest⟩ := hp
      rw [← hrest, splitOnce_append] at h
      simp only [Option.some.injEq, Prod.mk.injEq] at h
      obtain ⟨rfl, rfl⟩ := h
      rw [← hrest, List.append_assoc, splitOnce_append]
    · rw [splitOnce_cons hp] at h
      simp only [Option.map_eq_some_iff, Prod.mk.injEq, Prod.exists] at h
      obtain ⟨first, rest, hsplit, rfl, rfl⟩ := h
      have hlen : pat.length ≤ (c :: s).length := by
        rw [eq_append_of_splitOnce hsplit]
        simp only [List.length_cons, List.length_append]
        omega
      have hp' : ¬ pat <+: c :: (s ++ t) := fun hlong =>
        hp (List.prefix_of_prefix_length_le hlong (List.prefix_append (c :: s) t) hlen)
      rw [List.cons_append, splitOnce_cons hp', ih hsplit]
      rfl

/-- No occurrence starts in a text without the first element of the pattern. -/
theorem splitOnce_append_of_not_mem {p : α} {pat s : List α} (h : p ∉ s) (t : List α) :
    splitOnce (p :: pat) (s ++ t) =
      (splitOnce (p :: pat) t).map fun parts => (s ++ parts.1, parts.2) := by
  induction s with
  | nil => simp
  | cons c s ih =>
    simp only [List.mem_cons, not_or] at h
    have hstart : ¬ p :: pat <+: c :: (s ++ t) := by
      rintro ⟨rest, hrest⟩
      rw [List.cons_append, List.cons.injEq] at hrest
      exact h.1 hrest.1
    rw [List.cons_append, splitOnce_cons hstart, ih h.2]
    simp [Function.comp_def]

/-- Splitting at a single element: the first part does not contain it. -/
theorem splitOnce_singleton_eq_some {c : α} {s before after : List α} :
    splitOnce [c] s = some (before, after) ↔ s = before ++ c :: after ∧ c ∉ before := by
  constructor
  · intro h
    have hs := eq_append_of_splitOnce h
    refine ⟨hs, fun hmem => ?_⟩
    obtain ⟨l, r, rfl⟩ := List.append_of_mem hmem
    have hearlier : l ++ c :: r ++ ([c] ++ after) = l ++ ([c] ++ (r ++ c :: after)) := by simp
    have hle := splitOnce_first h (hs.trans hearlier)
    simp only [List.length_append, List.length_cons] at hle
    omega
  · rintro ⟨rfl, hc⟩
    induction before with
    | nil => exact splitOnce_append [c] after
    | cons d before ih =>
      simp only [List.mem_cons, not_or] at hc
      rw [List.cons_append, splitOnce_cons, ih hc.2]
      · rfl
      · simp [hc.1]

/-- No occurrence starts before the first one. -/
theorem length_le_of_splitOnce {pat s before after l r : List α}
    (h : splitOnce pat s = some (before, after)) (hs : s = l ++ r) (hr : pat <+: r) :
    before.length ≤ l.length := by
  induction l generalizing s before with
  | nil =>
    obtain ⟨rest, rfl⟩ := hr
    obtain rfl : s = pat ++ rest := hs
    rw [splitOnce_append] at h
    simp only [Option.some.injEq, Prod.mk.injEq] at h
    simp [← h.1]
  | cons c l ih =>
    subst hs
    by_cases hp : pat <+: c :: (l ++ r)
    · obtain ⟨rest, hrest⟩ := hp
      rw [List.cons_append, ← hrest, splitOnce_append] at h
      simp only [Option.some.injEq, Prod.mk.injEq] at h
      simp [← h.1]
    · rw [List.cons_append, splitOnce_cons hp] at h
      simp only [Option.map_eq_some_iff, Prod.mk.injEq, Prod.exists] at h
      obtain ⟨before', after', hsplit, rfl, rfl⟩ := h
      have hle := ih hsplit rfl
      simpa using hle

theorem splitOnce_singleton_eq_none {c : α} {s : List α} : splitOnce [c] s = none ↔ c ∉ s := by
  rw [splitOnce_eq_none, not_iff_not, List.singleton_infix_iff]

/-- The parts before and after the last occurrence of `c`. -/
def splitLast (c : α) (s : List α) : Option (List α × List α) :=
  (splitOnce [c] s.reverse).map fun (after, before) => (before.reverse, after.reverse)

theorem splitLast_eq_some {c : α} {s before after : List α} :
    splitLast c s = some (before, after) ↔ s = before ++ c :: after ∧ c ∉ after := by
  simp only [splitLast, Option.map_eq_some_iff, Prod.mk.injEq, Prod.exists,
    splitOnce_singleton_eq_some]
  constructor
  · rintro ⟨a, b, ⟨hs, ha⟩, rfl, rfl⟩
    have := congrArg List.reverse hs
    simp_all
  · rintro ⟨rfl, hc⟩
    exact ⟨after.reverse, before.reverse, by simp [hc], by simp, by simp⟩

theorem splitLast_eq_none {c : α} {s : List α} : splitLast c s = none ↔ c ∉ s := by
  simp [splitLast, splitOnce_singleton_eq_none]

-- ════════════════════════════════════════════════════════════════════════
-- Replacing and counting
-- ════════════════════════════════════════════════════════════════════════

/-- The scan behind `replaceAll`; `skip` elements of an occurrence are still to be dropped. -/
def replaceGo (pat value : List α) : ℕ → List α → List α
  | _, [] => []
  | skip + 1, _ :: s => replaceGo pat value skip s
  | 0, c :: s =>
    if pat <+: c :: s then value ++ replaceGo pat value (pat.length - 1) s
    else c :: replaceGo pat value 0 s

/-- `s.replace(pat, value)` for a non-empty `pat`: every non-overlapping occurrence from left to
    right, and the inserted text is not scanned again. -/
def replaceAll (pat value s : List α) : List α := replaceGo pat value 0 s

/-- `s.replacen(pat, value, 1)`: the first occurrence. -/
def replaceFirst (pat value s : List α) : List α :=
  match splitOnce pat s with
  | some (before, after) => before ++ (value ++ after)
  | none => s

/-- The scan behind `countMatches`. -/
def countGo (pat : List α) : ℕ → List α → ℕ
  | _, [] => 0
  | skip + 1, _ :: s => countGo pat skip s
  | 0, c :: s => if pat <+: c :: s then countGo pat (pat.length - 1) s + 1 else countGo pat 0 s

/-- `s.matches(pat).count()` for a non-empty `pat`. -/
def countMatches (pat s : List α) : ℕ := countGo pat 0 s

theorem replaceGo_eq_drop (pat value : List α) (skip : ℕ) (s : List α) :
    replaceGo pat value skip s = replaceAll pat value (s.drop skip) := by
  induction s generalizing skip with
  | nil => cases skip <;> rfl
  | cons c s ih =>
    cases skip with
    | zero => rfl
    | succ skip => simpa [replaceGo] using ih skip

theorem countGo_eq_drop (pat : List α) (skip : ℕ) (s : List α) :
    countGo pat skip s = countMatches pat (s.drop skip) := by
  induction s generalizing skip with
  | nil => cases skip <;> rfl
  | cons c s ih =>
    cases skip with
    | zero => rfl
    | succ skip => simpa [countGo] using ih skip

variable {pat value : List α}

@[simp] theorem replaceAll_nil : replaceAll pat value [] = [] := rfl

@[simp] theorem countMatches_nil : countMatches pat ([] : List α) = 0 := rfl

theorem replaceAll_pat_append (hpat : pat ≠ []) (s : List α) :
    replaceAll pat value (pat ++ s) = value ++ replaceAll pat value s := by
  obtain ⟨p, ps, rfl⟩ := List.exists_cons_of_ne_nil hpat
  rw [replaceAll, List.cons_append, replaceGo, ← List.cons_append, if_pos (List.prefix_append _ _),
    replaceGo_eq_drop]
  simp

theorem replaceAll_cons {c : α} {s : List α} (h : ¬ pat <+: c :: s) :
    replaceAll pat value (c :: s) = c :: replaceAll pat value s := by
  rw [replaceAll, replaceGo, if_neg h, replaceAll]

theorem countMatches_pat_append (hpat : pat ≠ []) (s : List α) :
    countMatches pat (pat ++ s) = countMatches pat s + 1 := by
  obtain ⟨p, ps, rfl⟩ := List.exists_cons_of_ne_nil hpat
  rw [countMatches, List.cons_append, countGo, ← List.cons_append, if_pos (List.prefix_append _ _),
    countGo_eq_drop]
  simp

theorem countMatches_cons {c : α} {s : List α} (h : ¬ pat <+: c :: s) :
    countMatches pat (c :: s) = countMatches pat s := by
  rw [countMatches, countGo, if_neg h, countMatches]

/-- Induction along the scan: a text is empty, starts with an occurrence, or starts with an
    element at which no occurrence begins. -/
theorem scan_induction {motive : List α → Prop} (hpat : pat ≠ []) (nil : motive [])
    (hit : ∀ s, motive s → motive (pat ++ s))
    (miss : ∀ c s, ¬ pat <+: c :: s → motive s → motive (c :: s)) (s : List α) : motive s := by
  induction hlen : s.length using Nat.strong_induction_on generalizing s with
  | _ n ih =>
    cases s with
    | nil => exact nil
    | cons c s =>
      by_cases hp : pat <+: c :: s
      · obtain ⟨rest, hrest⟩ := hp
        have hpos : 0 < pat.length := List.length_pos_of_ne_nil hpat
        have hlens : (pat ++ rest).length = n := by rw [hrest, hlen]
        rw [← hrest]
        exact hit rest (ih rest.length (by rw [List.length_append] at hlens; omega) rest rfl)
      · exact miss c s hp (ih s.length (by simp at hlen; omega) s rfl)

theorem replaceAll_of_absent {s : List α} (h : ¬ pat <:+: s) : replaceAll pat value s = s := by
  induction s with
  | nil => rfl
  | cons c s ih =>
    rw [List.infix_cons_iff, not_or] at h
    rw [replaceAll_cons h.1, ih h.2]

/-- What is inserted for a longer pattern does not make a text longer. -/
theorem length_replaceAll_le (hpat : pat ≠ []) (hvalue : value.length ≤ pat.length) (s : List α) :
    (replaceAll pat value s).length ≤ s.length := by
  induction s using scan_induction hpat with
  | nil => exact Nat.le_refl _
  | hit s ih =>
    rw [replaceAll_pat_append hpat, List.length_append, List.length_append]
    omega
  | miss c s hmiss ih =>
    rw [replaceAll_cons hmiss, List.length_cons, List.length_cons]
    omega

theorem countMatches_eq_zero_of_absent {s : List α} (h : ¬ pat <:+: s) :
    countMatches pat s = 0 := by
  induction s with
  | nil => rfl
  | cons c s ih =>
    rw [List.infix_cons_iff, not_or] at h
    rw [countMatches_cons h.1, ih h.2]

/-- Replacing works off the first occurrence. -/
theorem replaceAll_of_splitOnce (hpat : pat ≠ []) {s before after : List α}
    (h : splitOnce pat s = some (before, after)) :
    replaceAll pat value s = before ++ (value ++ replaceAll pat value after) := by
  induction s generalizing before with
  | nil => have := eq_append_of_splitOnce h; simp_all
  | cons c s ih =>
    by_cases hp : pat <+: c :: s
    · obtain ⟨rest, hrest⟩ := hp
      rw [← hrest, splitOnce_append] at h
      simp only [Option.some.injEq, Prod.mk.injEq] at h
      obtain ⟨rfl, rfl⟩ := h
      rw [← hrest, replaceAll_pat_append hpat, List.nil_append]
    · rw [splitOnce_cons hp] at h
      simp only [Option.map_eq_some_iff, Prod.mk.injEq, Prod.exists] at h
      obtain ⟨before', after', hsplit, rfl, rfl⟩ := h
      rw [replaceAll_cons hp, ih hsplit, List.cons_append]

theorem mem_of_mem_replaceAll {s : List α} {c : α} (h : c ∈ replaceAll pat value s) :
    c ∈ value ∨ c ∈ s := by
  by_cases hpat : pat = []
  · subst hpat
    induction s with
    | nil => exact absurd h (by simp)
    | cons d s ih =>
      rw [replaceAll, replaceGo, if_pos List.nil_prefix, replaceGo_eq_drop, List.mem_append] at h
      rcases h with h | h
      · exact Or.inl h
      · exact (ih h).imp_right (List.mem_cons_of_mem d)
  · induction s using scan_induction hpat with
    | nil => exact absurd h (by simp)
    | hit s ih =>
      rw [replaceAll_pat_append hpat, List.mem_append] at h
      rcases h with h | h
      · exact Or.inl h
      · exact (ih h).imp_right (List.mem_append_right pat)
    | miss d s hd ih =>
      rw [replaceAll_cons hd, List.mem_cons] at h
      rcases h with rfl | h
      · exact Or.inr List.mem_cons_self
      · exact (ih h).imp_right (List.mem_cons_of_mem d)

/-- Counting works off the first occurrence. -/
theorem countMatches_of_splitOnce (hpat : pat ≠ []) {s before after : List α}
    (h : splitOnce pat s = some (before, after)) :
    countMatches pat s = countMatches pat after + 1 := by
  induction s generalizing before with
  | nil => have := eq_append_of_splitOnce h; simp_all
  | cons c s ih =>
    by_cases hp : pat <+: c :: s
    · obtain ⟨rest, hrest⟩ := hp
      rw [← hrest, splitOnce_append] at h
      simp only [Option.some.injEq, Prod.mk.injEq] at h
      rw [← hrest, countMatches_pat_append hpat, h.2]
    · rw [splitOnce_cons hp] at h
      simp only [Option.map_eq_some_iff, Prod.mk.injEq, Prod.exists] at h
      obtain ⟨before', after', hsplit, rfl, rfl⟩ := h
      rw [countMatches_cons hp, ih hsplit]

theorem countMatches_pos {s : List α} (hpat : pat ≠ []) (h : pat <:+: s) :
    0 < countMatches pat s := by
  cases hsplit : splitOnce pat s with
  | none => exact absurd h (splitOnce_eq_none.mp hsplit)
  | some parts => rw [countMatches_of_splitOnce hpat hsplit]; omega

end Search
