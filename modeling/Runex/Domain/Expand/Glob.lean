import Mathlib.Data.List.Forall2
import Runex.Domain.Expand

/-!
# Glob keys

Cutting a token by character counts decides the nondeterministic reading of a glob key: the part
before the `*`, whatever the `*` stands for, and the part after it.

## Main definitions

- `FixedMatches` — position by position, where `?` stands for any character
- `GlobMatches` — a token is the two fixed parts of a key around what its `*` stands for

## Main results

- `matchGlobKey_eq_some` — matching computes the relation
- `glob_matching_reference` — what the `*` stands for is unique and completes the key to the token
-/

namespace Runex

open Search

/-- Position by position: `?` stands for any character, any other character for itself. -/
def FixedMatches (pattern text : Text) : Prop := List.Forall₂ (fun p c => p = '?' ∨ p = c) pattern text

/-- The token is matched by the key, whose `*` stands for `w`; a key without a `*` matches the whole
    token. -/
inductive GlobMatches : Text → Text → Text → Prop where
  | whole {key token : Text} (hstar : '*' ∉ key) (hfixed : FixedMatches key token) :
      GlobMatches key token []
  | star {head tail h w t : Text} (hhead : '*' ∉ head) (htail : '*' ∉ tail)
      (hh : FixedMatches head h) (ht : FixedMatches tail t) :
      GlobMatches (head ++ '*' :: tail) (h ++ (w ++ t)) w

theorem globFixedPartMatches_iff {pattern text : Text} :
    globFixedPartMatches pattern text = true ↔ FixedMatches pattern text := by
  induction pattern generalizing text with
  | nil => cases text <;> simp [globFixedPartMatches, FixedMatches]
  | cons p pattern ih =>
    cases text with
    | nil => simp [globFixedPartMatches, FixedMatches]
    | cons c text =>
      have ih : globFixedPartMatches pattern text = true ↔ FixedMatches pattern text := ih
      simp only [globFixedPartMatches, FixedMatches, Bool.and_eq_true, beq_iff_eq,
        List.forall₂_cons, List.length_cons, List.zip_cons_cons, List.all_cons, Bool.or_eq_true,
        Nat.add_right_cancel_iff] at ih ⊢
      rw [← ih]
      tauto

theorem FixedMatches.length_eq {pattern text : Text} (h : FixedMatches pattern text) :
    text.length = pattern.length := (List.Forall₂.length_eq h).symm

/-- Without a `?` a fixed part matches only itself. -/
theorem FixedMatches.eq_of_not_mem {pattern text : Text} (h : FixedMatches pattern text)
    (hmark : '?' ∉ pattern) : text = pattern := by
  induction h with
  | nil => rfl
  | @cons p c pattern text hpc _ ih =>
    simp only [List.mem_cons, not_or] at hmark
    rcases hpc with rfl | rfl
    · exact absurd rfl hmark.1
    · rw [ih hmark.2]

theorem matchGlobKey_of_not_mem {key token w : Text} (hstar : '*' ∉ key) :
    matchGlobKey key token = some w ↔ FixedMatches key token ∧ w = [] := by
  rw [matchGlobKey, splitOnce_singleton_eq_none.mpr hstar]
  by_cases h : FixedMatches key token
  · simp [globFixedPartMatches_iff.mpr h, h, eq_comm]
  · simp [globFixedPartMatches_iff, h]

/-- The cut by character counts finds the only way to split the token. -/
theorem matchGlobKey_of_star {head tail token w : Text} (hhead : '*' ∉ head) :
    matchGlobKey (head ++ '*' :: tail) token = some w ↔
      ∃ h t, token = h ++ (w ++ t) ∧ FixedMatches head h ∧ FixedMatches tail t := by
  rw [matchGlobKey, splitOnce_singleton_eq_some.mpr ⟨rfl, hhead⟩]
  simp only
  constructor
  · intro hmatch
    split at hmatch
    · exact absurd hmatch (by simp)
    · next hlen =>
      split at hmatch
      · next hfixed =>
        rw [Bool.and_eq_true, globFixedPartMatches_iff, globFixedPartMatches_iff] at hfixed
        obtain rfl := Option.some.inj hmatch
        refine ⟨_, _, ?_, hfixed.1, hfixed.2⟩
        -- The head is also the start of the text up to the tail, since the two do not overlap.
        have htake : token.take head.length =
            (token.take (token.length - tail.length)).take head.length := by
          rw [List.take_take]
          congr 1
          omega
        rw [← List.append_assoc, htake, List.take_append_drop, List.take_append_drop]
      · exact absurd hmatch (by simp)
  · rintro ⟨h, t, rfl, hh, ht⟩
    have hend : (h ++ (w ++ t)).length - tail.length = (h ++ w).length := by
      rw [← List.append_assoc, List.length_append, ht.length_eq]
      omega
    have htake : (h ++ (w ++ t)).take (h ++ w).length = h ++ w := by
      rw [← List.append_assoc, List.take_left]
    have hdrop : (h ++ (w ++ t)).drop (h ++ w).length = t := by
      rw [← List.append_assoc, List.drop_left]
    rw [if_neg (by simp only [List.length_append, hh.length_eq, ht.length_eq]; omega), hend, htake,
      hdrop, ← hh.length_eq, List.take_left, List.drop_left, globFixedPartMatches_iff.mpr hh,
      globFixedPartMatches_iff.mpr ht]
    simp

/-- Matching computes the relation. -/
theorem matchGlobKey_eq_some {key token w : Text} (hkey : key.count '*' ≤ 1) :
    matchGlobKey key token = some w ↔ GlobMatches key token w := by
  constructor
  · intro hmatch
    by_cases hstar : '*' ∈ key
    · obtain ⟨head, tail, rfl, hhead⟩ := List.eq_append_cons_of_mem hstar
      have htail : '*' ∉ tail := by
        rw [List.count_append, List.count_cons_self] at hkey
        exact List.count_eq_zero.mp (by omega)
      obtain ⟨h, t, rfl, hh, ht⟩ := (matchGlobKey_of_star hhead).mp hmatch
      exact GlobMatches.star hhead htail hh ht
    · obtain ⟨hfixed, rfl⟩ := (matchGlobKey_of_not_mem hstar).mp hmatch
      exact GlobMatches.whole hstar hfixed
  · intro hmatch
    cases hmatch with
    | whole hstar hfixed => exact (matchGlobKey_of_not_mem hstar).mpr ⟨hfixed, rfl⟩
    | star hhead _ hh ht => exact (matchGlobKey_of_star hhead).mpr ⟨_, _, rfl, hh, ht⟩

/-- What the `*` stands for completes a key without a `?` to the token. -/
theorem GlobMatches.replaceAll_eq {key token w : Text} (h : GlobMatches key token w)
    (hmark : '?' ∉ key) : replaceAll ['*'] w key = token := by
  cases h with
  | whole hstar hfixed =>
    rw [replaceAll_of_absent (by rwa [List.singleton_infix_iff]), hfixed.eq_of_not_mem hmark]
  | star hhead htail hh ht =>
    simp only [List.mem_append, List.mem_cons, not_or] at hmark
    rw [replaceAll_of_splitOnce (by simp) (splitOnce_singleton_eq_some.mpr ⟨rfl, hhead⟩),
      replaceAll_of_absent (by rwa [List.singleton_infix_iff]), hh.eq_of_not_mem hmark.1,
      ht.eq_of_not_mem hmark.2.2]

/-- **Glob matching is the reference semantics.** For a key with at most one `*`: matching returns
    `w` exactly when the token is the fixed parts of the key around `w`, there is only one such
    `w`, and put in the place of the `*` of a key without `?` it gives back the token. -/
theorem glob_matching_reference (key token : Text) (hkey : key.count '*' ≤ 1) :
    (∀ w, matchGlobKey key token = some w ↔ GlobMatches key token w) ∧
    (∀ w w', GlobMatches key token w → GlobMatches key token w' → w = w') ∧
    (∀ w, GlobMatches key token w → '?' ∉ key → replaceAll ['*'] w key = token) := by
  refine ⟨fun _ => matchGlobKey_eq_some hkey, ?_, fun _ h hmark => h.replaceAll_eq hmark⟩
  intro w w' h h'
  have hsame : some w = some w' :=
    ((matchGlobKey_eq_some hkey).mpr h).symm.trans ((matchGlobKey_eq_some hkey).mpr h')
  exact Option.some.inj hsame

/-- The key `g?*t` on `gitt`, and the key `g*t`. -/
theorem glob_matching_reference_middle :
    matchGlobKey ['g', '?', '*', 't'] ['g', 'i', 't', 't'] = some ['t'] ∧
      replaceAll ['*'] ['i', 't'] ['g', '*', 't'] = ['g', 'i', 't', 't'] := by
  have hmark : GlobMatches (['g', '?'] ++ '*' :: ['t']) (['g', 'i'] ++ (['t'] ++ ['t'])) ['t'] :=
    .star (by decide) (by decide) (.cons (Or.inr rfl) (.cons (Or.inl rfl) .nil))
      (.cons (Or.inr rfl) .nil)
  have hplain : GlobMatches (['g'] ++ '*' :: ['t']) (['g'] ++ (['i', 't'] ++ ['t'])) ['i', 't'] :=
    .star (by decide) (by decide) (.cons (Or.inr rfl) .nil) (.cons (Or.inr rfl) .nil)
  exact ⟨((glob_matching_reference ['g', '?', '*', 't'] _ (by decide)).1 ['t']).mpr hmark,
    (glob_matching_reference ['g', '*', 't'] _ (by decide)).2.2 ['i', 't'] hplain (by decide)⟩

end Runex
