import Mathlib.Data.Finmap

/-!
# Memoised functions

A function of a key is answered through a store of earlier answers. If every stored answer is the
function's own, and each query keeps it so, then the answers to any queries in any order are those
of the function: the store never shows.

## Main definitions

- `Memo.Store` — the answers kept so far
- `Memo.Sound` — every stored answer is that of the function
- `Memo.Answers` — a query gives the answer of the function and keeps the store sound
- `Memo.run` — queries one after the other, over one store
- `Memo.fill` — a store filled from a list

## Main results

- `Memo.run_eq` — the answers of a whole run
- `Memo.lookup_fill` — of the entries with one key the last one counts
-/

namespace Memo

variable {κ β : Type} [DecidableEq κ]

/-- The answers kept so far. -/
abbrev Store (κ β : Type) := Finmap fun _ : κ => β

/-- Every stored answer is that of the function. -/
def Sound (f : κ → β) (store : Store κ β) : Prop :=
  ∀ k v, store.lookup k = some v → v = f k

/-- A query gives the answer of the function and keeps the store sound. -/
def Answers (f : κ → β) (query : κ → Store κ β → β × Store κ β) : Prop :=
  ∀ k store, Sound f store → (query k store).1 = f k ∧ Sound f (query k store).2

/-- Queries one after the other, over one store. -/
def run (query : κ → Store κ β → β × Store κ β) : List κ → Store κ β → List β × Store κ β
  | [], store => ([], store)
  | k :: ks, store =>
    let (answer, store) := query k store
    let (answers, store) := run query ks store
    (answer :: answers, store)

variable {f : κ → β} {query : κ → Store κ β → β × Store κ β}

theorem sound_empty : Sound f ∅ := by
  intro k v h
  rw [Finmap.lookup_empty] at h
  cases h

/-- Keeping an answer of the function. -/
theorem Sound.insert {store : Store κ β} (h : Sound f store) {k : κ} {v : β} (hv : v = f k) :
    Sound f (store.insert k v) := by
  intro k' v' hlookup
  by_cases hk : k' = k
  · subst hk
    rw [Finmap.lookup_insert] at hlookup
    rw [← Option.some.inj hlookup, hv]
  · rw [Finmap.lookup_insert_of_ne _ hk] at hlookup
    exact h k' v' hlookup

/-- Over a sound store, a run answers every query as the function does. -/
theorem run_eq (hquery : Answers f query) (ks : List κ) {store : Store κ β} (h : Sound f store) :
    (run query ks store).1 = ks.map f ∧ Sound f (run query ks store).2 := by
  induction ks generalizing store with
  | nil => exact ⟨rfl, h⟩
  | cons k ks ih =>
    obtain ⟨hanswer, hsound⟩ := hquery k store h
    obtain ⟨hanswers, hsound'⟩ := ih hsound
    refine ⟨?_, hsound'⟩
    change (query k store).1 :: (run query ks (query k store).2).1 = f k :: ks.map f
    rw [hanswer, hanswers]

-- ════════════════════════════════════════════════════════════════════════
-- Stores filled from a list
-- ════════════════════════════════════════════════════════════════════════

section Fill

variable {ι : Type} (key : ι → κ) (value : ι → β)

/-- The store of the entries of a list, inserted in order. -/
def fill (entries : List ι) : Store κ β :=
  entries.foldl (fun store i => store.insert (key i) (value i)) ∅

/-- Of the entries with one key the last one counts. -/
theorem lookup_fill (entries : List ι) (k : κ) :
    (fill key value entries).lookup k =
      (entries.reverse.find? fun i => key i = k).map value := by
  induction entries using List.reverseRecOn with
  | nil => exact Finmap.lookup_empty k
  | append_singleton entries i ih =>
    rw [fill, List.foldl_append, ← fill, List.foldl_cons, List.foldl_nil, List.reverse_append,
      List.reverse_singleton, List.singleton_append, List.find?_cons]
    by_cases hk : key i = k
    · subst hk
      simp [Finmap.lookup_insert]
    · simp [Finmap.lookup_insert_of_ne _ (Ne.symm hk), hk, ih]

/-- A store has the keys of its entries. -/
theorem keys_fill (entries : List ι) :
    (fill key value entries).keys = (entries.map key).toFinset := by
  ext k
  rw [Finmap.mem_keys, Finmap.mem_iff, List.mem_toFinset, List.mem_map]
  constructor
  · rintro ⟨v, hv⟩
    rw [lookup_fill, Option.map_eq_some_iff] at hv
    obtain ⟨i, hi, -⟩ := hv
    exact ⟨i, List.mem_reverse.mp (List.mem_of_find?_eq_some hi), by simpa using List.find?_some hi⟩
  · rintro ⟨i, hi, rfl⟩
    cases hfind : entries.reverse.find? fun j => key j = key i with
    | none => exact absurd (by simp) (List.find?_eq_none.mp hfind i (List.mem_reverse.mpr hi))
    | some j => exact ⟨value j, by rw [lookup_fill, hfind]; rfl⟩

/-- Where no key comes twice, every entry counts. -/
theorem lookup_fill_of_mem {entries : List ι} (hnodup : (entries.map key).Nodup) {i : ι}
    (hi : i ∈ entries) : (fill key value entries).lookup (key i) = some (value i) := by
  rw [lookup_fill]
  cases hfind : entries.reverse.find? fun j => key j = key i with
  | none => exact absurd (by simp) (List.find?_eq_none.mp hfind i (List.mem_reverse.mpr hi))
  | some j =>
    have hj := List.mem_reverse.mp (List.mem_of_find?_eq_some hfind)
    have hkey : key j = key i := by simpa using List.find?_some hfind
    rw [List.inj_on_of_nodup_map hnodup hj hi hkey]
    rfl

/-- A function on the keys of a list. -/
theorem lookup_fill_id (f : κ → β) (ks : List κ) (k : κ) :
    (fill id f ks).lookup k = if k ∈ ks then some (f k) else none := by
  rw [lookup_fill]
  split
  · next hmem =>
    cases hfind : ks.reverse.find? fun i => id i = k with
    | none => exact absurd (by simp) (List.find?_eq_none.mp hfind k (List.mem_reverse.mpr hmem))
    | some i =>
      have hi := List.find?_some hfind
      simp only [id, decide_eq_true_eq] at hi
      rw [hi]
      rfl
  · next hmem =>
    have hnone : (ks.reverse.find? fun i => id i = k) = none := by
      rw [List.find?_eq_none]
      intro i hi hik
      simp only [id, decide_eq_true_eq] at hik
      exact hmem (hik ▸ List.mem_reverse.mp hi)
    rw [hnone]
    rfl

/-- Two functions on the same keys give one store when they agree on the keys. -/
theorem fill_id_eq_iff {f g : κ → β} {ks : List κ} :
    fill id f ks = fill id g ks ↔ ∀ k ∈ ks, f k = g k := by
  constructor
  · intro h k hk
    have hlookup := congrArg (Finmap.lookup k) h
    simpa [lookup_fill_id, hk] using hlookup
  · intro h
    refine Finmap.ext_lookup fun k => ?_
    rw [lookup_fill_id, lookup_fill_id]
    split
    · next hk => rw [h k hk]
    · rfl

end Fill

end Memo
