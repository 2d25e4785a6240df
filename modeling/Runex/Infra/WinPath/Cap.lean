import Runex.Infra.WinPath
import Runex.Lib.EntryList

/-!
# What is used of a registry value

A value that fits is used as it is. Of a larger one the entries before the last separator in the
first 64 KiB are used, if the cut at 64 KiB does not go through a character: there the slice panics.

## Main results

- `capRegistryValue_spec` — the value is cut as described unless the cut goes through a character
-/

namespace Runex

open EntryList Search Text

/-- What is to be used of a value: the value if it fits, else what stands before the last `;` of the
    first 64 KiB, and nothing if there is no `;` there. Its entries are first entries of the value. -/
structure Capped (v r : Text) : Prop where
  le_max : byteLen r ≤ maxRegistryPathBytes
  fits : byteLen v ≤ maxRegistryPathBytes → r = v
  cut : maxRegistryPathBytes < byteLen v →
    (∃ tail, v = r ++ ';' :: tail ∧ byteLen r < maxRegistryPathBytes ∧
      ∀ before after, v = before ++ ';' :: after → byteLen before < maxRegistryPathBytes →
        byteLen before ≤ byteLen r) ∨
    r = [] ∧ ∀ before after, v = before ++ ';' :: after → maxRegistryPathBytes ≤ byteLen before
  entries_prefix : entries ';' r <+: entries ';' v

variable {v head before after : Text}

theorem capRegistryValue_of_le (h : byteLen v ≤ maxRegistryPathBytes) :
    capRegistryValue v = some v := by
  rw [capRegistryValue]
  simp [h]

/-- A value that does not fit. -/
theorem capRegistryValue_of_lt (h : maxRegistryPathBytes < byteLen v) :
    capRegistryValue v = (sliceTo? v maxRegistryPathBytes).map fun head =>
      ((splitLast ';' head).map Prod.fst).getD [] := by
  have hv : v ≠ [] := by
    rintro rfl
    exact absurd h (Nat.not_lt_zero _)
  rw [capRegistryValue, if_neg hv, if_neg (Nat.not_le.mpr h)]
  cases hhead : sliceTo? v maxRegistryPathBytes with
  | none => rfl
  | some head =>
    obtain ⟨⟨rest, rfl⟩, -⟩ := sliceTo?_eq_some.mp hhead
    cases hlast : splitLast ';' head with
    | none => simp [hlast]
    | some parts =>
      obtain ⟨before, after⟩ := parts
      obtain ⟨rfl, -⟩ := splitLast_eq_some.mp hlast
      simp [hlast]

/-- The result, where there is one. -/
theorem exists_capRegistryValue_iff : (∃ r, capRegistryValue v = some r) ↔
    byteLen v ≤ maxRegistryPathBytes ∨ IsBoundary v maxRegistryPathBytes := by
  rcases Nat.lt_or_ge maxRegistryPathBytes (byteLen v) with hlt | hle
  · rw [capRegistryValue_of_lt hlt, ← Option.isSome_iff_exists, Option.isSome_map,
      ← Option.ne_none_iff_isSome, ne_eq, sliceTo?_eq_none, not_not]
    exact ⟨Or.inr, fun h => h.resolve_left (Nat.not_le.mpr hlt)⟩
  · exact ⟨fun _ => Or.inl hle, fun _ => ⟨v, capRegistryValue_of_le hle⟩⟩

/-- The last separator of a text stands after every other. -/
theorem prefix_of_last_separator {before' after' : Text} (hlast : ';' ∉ after)
    (h : before' ++ ';' :: after' = before ++ ';' :: after) : before' <+: before := by
  obtain ⟨t, hbefore, -⟩ | ⟨t, hbefore, hafter⟩ := List.append_eq_append_iff.mp h
  · exact ⟨t, hbefore.symm⟩
  · cases t with
    | nil =>
      rw [hbefore, List.append_nil]
    | cons c t =>
      obtain ⟨-, rfl⟩ := List.cons.inj hafter
      exact absurd (List.mem_append_right t List.mem_cons_self) hlast

/-- A separator in the first 64 KiB. -/
theorem mem_head_of_separator (hhead : head <+: before ++ ';' :: after)
    (hlen : byteLen head = maxRegistryPathBytes) (h : byteLen before < maxRegistryPathBytes) :
    ∃ rest, head = before ++ ';' :: rest := by
  have hpre : before ++ [';'] <+: before ++ ';' :: after := ⟨after, by simp⟩
  have hsize : byteLen (before ++ [';']) ≤ byteLen head := by
    have hone : byteLen [';'] = 1 := rfl
    rw [byteLen_append, hone, hlen]
    exact h
  obtain ⟨rest, hrest⟩ := prefix_of_byteLen_le hpre hhead hsize
  exact ⟨rest, by rw [← hrest, List.append_assoc, List.singleton_append]⟩

theorem Capped.of_le (h : byteLen v ≤ maxRegistryPathBytes) : Capped v v where
  le_max := h
  fits _ := rfl
  cut hlt := absurd h (Nat.not_le.mpr hlt)
  entries_prefix := List.prefix_refl _

/-- The cut at the last separator of the first 64 KiB. -/
theorem Capped.of_separator (hlt : maxRegistryPathBytes < byteLen v) (hhead : head <+: v)
    (hlen : byteLen head = maxRegistryPathBytes) (hsplit : head = before ++ ';' :: after)
    (hlast : ';' ∉ after) : Capped v before := by
  have hbefore : byteLen before < maxRegistryPathBytes := by
    have hone : Char.utf8Size ';' = 1 := rfl
    rw [← hlen, hsplit, byteLen_append, byteLen_cons, hone]
    omega
  obtain ⟨rest, rfl⟩ := hhead
  have hv : head ++ rest = before ++ ';' :: (after ++ rest) := by rw [hsplit]; simp
  refine ⟨hbefore.le, fun hfits => absurd hfits (Nat.not_le.mpr hlt), fun _ => ?_, ?_⟩
  · refine Or.inl ⟨after ++ rest, hv, hbefore, fun before' after' hv' h => ?_⟩
    obtain ⟨rest', hhead'⟩ := mem_head_of_separator ⟨rest, hv'⟩ hlen h
    obtain ⟨t, rfl⟩ := prefix_of_last_separator hlast (hhead'.symm.trans hsplit)
    simp
  · rw [hv]
    exact entries_prefix_append ';' before _

/-- No separator in the first 64 KiB. -/
theorem Capped.of_giant_entry (hlt : maxRegistryPathBytes < byteLen v) (hhead : head <+: v)
    (hlen : byteLen head = maxRegistryPathBytes) (hnone : ';' ∉ head) : Capped v [] := by
  refine ⟨Nat.zero_le _, fun hfits => absurd hfits (Nat.not_le.mpr hlt), fun _ => ?_, ?_⟩
  · refine Or.inr ⟨rfl, fun before after hv => ?_⟩
    by_contra hinside
    obtain ⟨rest, rfl⟩ := mem_head_of_separator (hv ▸ hhead) hlen (Nat.lt_of_not_le hinside)
    exact hnone (List.mem_append_right before List.mem_cons_self)
  · exact List.nil_prefix

/-- Whatever is returned is cut as described. -/
theorem Capped.of_capRegistryValue {r : Text} (h : capRegistryValue v = some r) : Capped v r := by
  rcases Nat.lt_or_ge maxRegistryPathBytes (byteLen v) with hlt | hle
  · rw [capRegistryValue_of_lt hlt, Option.map_eq_some_iff] at h
    obtain ⟨head, hhead, rfl⟩ := h
    obtain ⟨hbegin, hlen⟩ := sliceTo?_eq_some.mp hhead
    cases hlast : splitLast ';' head with
    | none => exact Capped.of_giant_entry hlt hbegin hlen (splitLast_eq_none.mp hlast)
    | some parts =>
      obtain ⟨hsplit, hafter⟩ := splitLast_eq_some.mp hlast
      exact Capped.of_separator hlt hbegin hlen hsplit hafter
  · rw [capRegistryValue_of_le hle, Option.some.injEq] at h
    rw [← h]
    exact Capped.of_le hle

/-- A value is cut as described exactly if it fits or byte 65536 is where a character starts. -/
theorem capRegistryValue_spec (v : Text) : (∃ r, capRegistryValue v = some r ∧ Capped v r) ↔
    byteLen v ≤ maxRegistryPathBytes ∨ IsBoundary v maxRegistryPathBytes := by
  rw [← exists_capRegistryValue_iff]
  exact ⟨fun ⟨r, hr, _⟩ => ⟨r, hr⟩, fun ⟨r, hr⟩ => ⟨r, hr, Capped.of_capRegistryValue hr⟩⟩

/-- One entry of 65535 one-byte characters and one of two bytes. -/
def giantEntry : Text := List.replicate 65535 'a' ++ ['é']

/-- A beginning of 65536 bytes would end inside the last character. -/
theorem not_boundary_giantEntry :
    ¬ (byteLen giantEntry ≤ maxRegistryPathBytes ∨ IsBoundary giantEntry maxRegistryPathBytes) := by
  have hunits : byteLen (List.replicate 65535 'a') = 65535 := byteLen_replicate 65535 'a'
  have htwo : byteLen ['é'] = 2 := by decide
  rintro (hfits | ⟨left, right, hsplit, hlen⟩)
  · rw [giantEntry, byteLen_append, hunits, htwo] at hfits
    exact absurd hfits (by decide)
  · have hmax : maxRegistryPathBytes = 65536 := rfl
    have hpre : List.replicate 65535 'a' <+: left :=
      prefix_of_byteLen_le (List.prefix_append _ ['é']) ⟨right, hsplit.symm⟩ (by omega)
    obtain ⟨t, rfl⟩ := hpre
    rw [giantEntry, List.append_assoc, List.append_cancel_left_eq] at hsplit
    have hone : byteLen t = 1 := by
      rw [byteLen_append] at hlen
      omega
    cases t with
    | nil => cases hone
    | cons c t =>
      obtain ⟨rfl, -⟩ := List.cons.inj hsplit
      have hc : Char.utf8Size 'é' = 2 := by decide
      rw [byteLen_cons, hc] at hone
      omega

theorem giantEntry_panics :
    ¬ ∀ v : Text, ∃ r, capRegistryValue v = some r ∧ Capped v r := by
  intro hall
  obtain ⟨r, hr, -⟩ := hall giantEntry
  exact not_boundary_giantEntry (exists_capRegistryValue_iff.mp ⟨r, hr⟩)

end Runex
