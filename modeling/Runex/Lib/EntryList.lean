import Runex.Lib.Search

/-!
# Lists of entries

A list in which a separator stands between the entries, and lists of entries merged one after the
other: an entry with the key of an earlier one is left out.

## Main definitions

- `EntryList.entries` — the entries of a list with separators
- `EntryList.OrderedUnion` — the first entry of each key, in the order of the entries

## Main results

- `EntryList.entries_intercalate` — the entries of a list that was joined from pieces
- `EntryList.OrderedUnion.push_new`, `EntryList.OrderedUnion.push_seen` — one more entry
- `EntryList.OrderedUnion.covers` — each key is there
-/

namespace EntryList

section Entries

variable {α : Type*} [DecidableEq α] {sep : α} {pieces : List (List α)}

/-- The entries between the separators. An empty list has none. -/
def entries (sep : α) (s : List α) : List (List α) := if s = [] then [] else s.splitOn sep

theorem entries_of_ne_nil {s : List α} (h : s ≠ []) : entries sep s = s.splitOn sep := if_neg h

theorem entries_prefix_append (sep : α) (s t : List α) :
    entries sep s <+: entries sep (s ++ sep :: t) := by
  by_cases hs : s = []
  · rw [entries, if_pos hs]
    exact List.nil_prefix
  · rw [entries_of_ne_nil hs, entries_of_ne_nil (by simp), List.splitOn_append_cons_self]
    exact List.prefix_append _ _

theorem splitOn_intercalate_eq_flatMap (hne : pieces ≠ []) :
    ([sep].intercalate pieces).splitOn sep = pieces.flatMap (·.splitOn sep) := by
  induction pieces with
  | nil => exact absurd rfl hne
  | cons piece pieces ih =>
    cases pieces with
    | nil => simp
    | cons next pieces =>
      rw [List.intercalate_cons_cons, List.append_assoc, List.singleton_append,
        List.splitOn_append_cons_self, ih (List.cons_ne_nil next pieces)]
      rfl

omit [DecidableEq α] in
theorem intercalate_ne_nil (hne : pieces ≠ []) (h : ∀ piece ∈ pieces, piece ≠ []) :
    [sep].intercalate pieces ≠ [] := by
  cases pieces with
  | nil => exact absurd rfl hne
  | cons piece pieces =>
    cases pieces with
    | nil => simpa using h
    | cons next pieces => simp [List.intercalate_cons_cons]

omit [DecidableEq α] in
/-- One more piece at the end. -/
theorem intercalate_concat (piece : List α) (hne : pieces ≠ []) :
    [sep].intercalate (pieces ++ [piece]) = [sep].intercalate pieces ++ [sep] ++ piece := by
  induction pieces with
  | nil => exact absurd rfl hne
  | cons first pieces ih =>
    cases pieces with
    | nil => simp [List.intercalate_cons_cons]
    | cons next pieces =>
      have hrest := ih (List.cons_ne_nil next pieces)
      rw [List.cons_append] at hrest
      rw [List.cons_append, List.cons_append, List.intercalate_cons_cons, hrest,
        List.intercalate_cons_cons]
      simp only [List.append_assoc]

/-- Pieces that are not empty contribute their own entries. -/
theorem entries_intercalate (h : ∀ piece ∈ pieces, piece ≠ []) :
    entries sep ([sep].intercalate pieces) = pieces.flatMap (·.splitOn sep) := by
  by_cases hne : pieces = []
  · subst hne
    rfl
  · rw [entries_of_ne_nil (intercalate_ne_nil hne h)]
    exact splitOn_intercalate_eq_flatMap hne

theorem flatMap_splitOn_eq (h : ∀ piece ∈ pieces, sep ∉ piece) :
    pieces.flatMap (·.splitOn sep) = pieces := by
  induction pieces with
  | nil => rfl
  | cons piece pieces ih =>
    rw [List.forall_mem_cons] at h
    rw [List.flatMap_cons, List.splitOn_eq_singleton h.1, ih h.2]
    rfl

theorem length_le_flatMap_splitOn (sep : α) (pieces : List (List α)) :
    pieces.length ≤ (pieces.flatMap (·.splitOn sep)).length :=
  Search.length_le_length_flatMap fun piece _ => List.splitOn_ne_nil sep piece

/-- A separator in a piece makes more entries than pieces. -/
theorem length_lt_flatMap_splitOn {piece : List α} (hmem : piece ∈ pieces) (hsep : sep ∈ piece) :
    pieces.length < (pieces.flatMap (·.splitOn sep)).length := by
  obtain ⟨before, after, rfl⟩ := List.append_of_mem hmem
  obtain ⟨left, right, rfl⟩ := List.append_of_mem hsep
  have hbefore := length_le_flatMap_splitOn sep before
  have hafter := length_le_flatMap_splitOn sep after
  have hleft := List.length_pos_iff.mpr (List.splitOn_ne_nil sep left)
  have hright := List.length_pos_iff.mpr (List.splitOn_ne_nil sep right)
  rw [List.flatMap_append, List.flatMap_cons, List.splitOn_append_cons_self]
  simp only [List.length_append, List.length_cons]
  omega

end Entries

section OrderedUnion

variable {α κ : Type*} {key : α → κ} {l union : List α} {a : α}

/-- The items whose key no item before them has. -/
structure OrderedUnion (key : α → κ) (l union : List α) : Prop where
  sublist : union.Sublist l
  distinct : union.Pairwise fun a b => key a ≠ key b
  /-- The first item of a key is at its place. -/
  first : ∀ before a after, l = before ++ a :: after → (∀ b ∈ before, key b ≠ key a) →
    ∃ before' after', union = before' ++ a :: after' ∧ before'.Sublist before ∧
      after'.Sublist after

theorem OrderedUnion.nil : OrderedUnion key [] [] where
  sublist := List.Sublist.slnil
  distinct := List.Pairwise.nil
  first before a after h := by simp at h

/-- Each key has its item. -/
theorem OrderedUnion.covers [DecidableEq κ] (h : OrderedUnion key l union) (ha : a ∈ l) :
    ∃ b ∈ union, key b = key a := by
  have hfind : (l.find? fun b => key b = key a).isSome := by
    rw [List.find?_isSome]
    exact ⟨a, ha, decide_eq_true rfl⟩
  obtain ⟨b, hb⟩ := Option.isSome_iff_exists.mp hfind
  obtain ⟨hkey, before, after, hsplit, hbefore⟩ := List.find?_eq_some_iff_append.mp hb
  have hkey : key b = key a := of_decide_eq_true hkey
  obtain ⟨before', after', hunion, -⟩ := h.first before b after hsplit fun c hc => by
    simpa [hkey] using hbefore c hc
  exact ⟨b, hunion ▸ List.mem_append_right _ List.mem_cons_self, hkey⟩

/-- An item with a new key is kept. -/
theorem OrderedUnion.push_new (h : OrderedUnion key l union) (hnew : ∀ b ∈ union, key b ≠ key a) :
    OrderedUnion key (l ++ [a]) (union ++ [a]) where
  sublist := h.sublist.append_right [a]
  distinct := by
    rw [List.pairwise_append]
    refine ⟨h.distinct, List.pairwise_singleton _ a, fun b hb c hc => ?_⟩
    rw [List.mem_singleton.mp hc]
    exact hnew b hb
  first before b after hsplit hfirst := by
    rcases List.eq_nil_or_concat after with rfl | ⟨after, c, rfl⟩
    · obtain ⟨rfl, hlast⟩ := List.append_inj' hsplit rfl
      obtain rfl := List.singleton_inj.mp hlast
      exact ⟨union, [], rfl, h.sublist, List.nil_sublist _⟩
    · rw [List.concat_eq_append, ← List.cons_append, ← List.append_assoc] at hsplit
      obtain ⟨rfl, hlast⟩ := List.append_inj' hsplit rfl
      obtain rfl := List.singleton_inj.mp hlast
      obtain ⟨before', after', rfl, hbefore, hafter⟩ := h.first before b after rfl hfirst
      refine ⟨before', after' ++ [a], by simp, hbefore, ?_⟩
      rw [List.concat_eq_append]
      exact hafter.append_right [a]

/-- An item with a key that is there is left out. -/
theorem OrderedUnion.push_seen (h : OrderedUnion key l union) (hseen : ∃ b ∈ union, key b = key a) :
    OrderedUnion key (l ++ [a]) union where
  sublist := h.sublist.trans (List.sublist_append_left l [a])
  distinct := h.distinct
  first before b after hsplit hfirst := by
    rcases List.eq_nil_or_concat after with rfl | ⟨after, c, rfl⟩
    · obtain ⟨rfl, hlast⟩ := List.append_inj' hsplit rfl
      obtain rfl := List.singleton_inj.mp hlast
      obtain ⟨c, hc, hkey⟩ := hseen
      exact absurd hkey (hfirst c (h.sublist.subset hc))
    · rw [List.concat_eq_append, ← List.cons_append, ← List.append_assoc] at hsplit
      obtain ⟨rfl, -⟩ := List.append_inj' hsplit rfl
      obtain ⟨before', after', rfl, hbefore, hafter⟩ := h.first before b after rfl hfirst
      exact ⟨before', after', rfl, hbefore, hafter.trans (by simp)⟩

end OrderedUnion

end EntryList
