import Runex.Domain.Expand.Rendering

/-!
# A placeholder inside a template

Where a template contains a placeholder that the bindings resolve, the rendering is that of the
text before it, the capture, and that of the text after it: no earlier brace swallows the
placeholder, and the cursor placeholder never overlaps it.

## Main results

- `substitute_placeholder` — the scanner reaches a placeholder whatever braces come before it
- `renderBase_placeholder` — the same around the cursor placeholder
-/

namespace Runex

open Search

variable {bindings : Bindings} {name capture : Text}

/-- No capture has a brace in its name. -/
def NamesFreeOfBraces (bindings : Bindings) : Prop :=
  ∀ name, '{' ∈ name → resolveCapture name bindings = none

/-- The scanner reaches a placeholder that resolves, whatever braces come before it. -/
theorem substitute_placeholder (hfree : NamesFreeOfBraces bindings) (hname : '}' ∉ name)
    (hres : resolveCapture name bindings = some capture) (pre post : Text) :
    substitute (pre ++ '{' :: (name ++ '}' :: post)) bindings =
      substitute pre bindings ++ (capture ++ substitute post bindings) := by
  induction hlen : pre.length using Nat.strong_induction_on generalizing pre with
  | _ n ih =>
    cases pre with
    | nil =>
      have hopen : resolvedAfterOpen (name ++ '}' :: post) bindings = some (capture, post) := by
        rw [resolvedAfterOpen_name hname, hres, Option.map_some]
      rw [List.nil_append, substitute_open_some hopen, substitute_nil, List.nil_append]
    | cons c s =>
      have hs : s.length < n := by simp [← hlen]
      by_cases hc : c = '{'
      · subst hc
        rw [List.cons_append]
        by_cases hclose : '}' ∈ s
        · -- The candidate at this brace lies before the placeholder in question.
          obtain ⟨candidate, after, rfl, hcandidate⟩ := List.eq_append_cons_of_mem hclose
          have hafter : after.length < n := by
            simp only [List.length_append, List.length_cons] at hs
            omega
          have hstep := ih _ hs _ rfl
          rw [List.append_assoc, List.cons_append] at hstep ⊢
          cases hcandidate' : resolveCapture candidate bindings with
          | some value =>
            rw [substitute_open_some (by rw [resolvedAfterOpen_name hcandidate, hcandidate']; rfl),
              substitute_open_some (by rw [resolvedAfterOpen_name hcandidate, hcandidate']; rfl),
              ih after.length hafter after rfl, List.append_assoc]
          | none =>
            rw [substitute_open_none (by rw [resolvedAfterOpen_name hcandidate, hcandidate']; rfl),
              substitute_open_none (by rw [resolvedAfterOpen_name hcandidate, hcandidate']; rfl),
              hstep, List.cons_append]
        · -- Up to the next closing brace the candidate contains the placeholder's own brace.
          have hlong : '}' ∉ s ++ '{' :: name := by simp [hclose, hname]
          have hshort : resolvedAfterOpen s bindings = none := by
            rw [resolvedAfterOpen, splitOnce_singleton_eq_none.mpr hclose]
          have hnone : resolvedAfterOpen (s ++ '{' :: (name ++ '}' :: post)) bindings = none := by
            have h : resolvedAfterOpen ((s ++ '{' :: name) ++ '}' :: post) bindings = none := by
              rw [resolvedAfterOpen_name hlong, hfree _ (by simp), Option.map_none]
            simpa using h
          rw [substitute_open_none hnone, substitute_open_none hshort, ih s.length hs s rfl,
            List.cons_append]
      · rw [List.cons_append, substitute_cons_ne hc, substitute_cons_ne hc, ih s.length hs s rfl,
          List.cons_append]

theorem not_cursorPlaceholder_prefix {c : Char} {s : Text} (h : s.head? ≠ some '}') :
    ¬ cursorPlaceholder <+: c :: s := by
  rintro ⟨rest, hrest⟩
  simp only [cursorPlaceholder, List.cons_append, List.nil_append, List.cons.injEq] at hrest
  exact h (by simp [← hrest.2])

/-- A placeholder without a cursor placeholder before it does not overlap the first one after. -/
theorem splitOnce_cursor_after {pre : Text} (post : Text) (hne : name ≠ []) (hopen : '{' ∉ name)
    (hclose : '}' ∉ name) (hpre : splitOnce cursorPlaceholder pre = none) :
    splitOnce cursorPlaceholder (pre ++ '{' :: (name ++ '}' :: post)) =
      (splitOnce cursorPlaceholder post).map fun (before, after) =>
        (pre ++ '{' :: (name ++ '}' :: before), after) := by
  induction pre with
  | nil =>
    obtain ⟨d, rest, rfl⟩ := List.exists_cons_of_ne_nil hne
    have hd : ¬ cursorPlaceholder <+: '{' :: ((d :: rest) ++ '}' :: post) := by
      refine not_cursorPlaceholder_prefix ?_
      simp only [List.mem_cons, not_or] at hclose
      simpa using Ne.symm hclose.1
    have hname : '{' ∉ (d :: rest) ++ ['}'] := by simpa using hopen
    have htail := splitOnce_cursor_append hname post
    rw [List.append_assoc, List.singleton_append] at htail
    rw [List.nil_append, splitOnce_cons hd, htail]
    simp [Function.comp_def]
  | cons c s ih =>
    rw [splitOnce_eq_none, List.infix_cons_iff, not_or] at hpre
    have hstart : ¬ cursorPlaceholder <+: c :: (s ++ '{' :: (name ++ '}' :: post)) := by
      cases s with
      | nil => exact not_cursorPlaceholder_prefix (by simp)
      | cons d s =>
        intro hlong
        refine hpre.1 (List.prefix_of_prefix_length_le hlong ?_ (by simp [cursorPlaceholder]))
        exact List.prefix_append (c :: d :: s) _
    rw [List.cons_append, splitOnce_cons hstart, ih (splitOnce_eq_none.mpr hpre.2)]
    simp [Function.comp_def]

/-- A rendering contains the capture of every placeholder of its base text: what is before it is
    rendered as it stands alone, and so is what is after it, up to a cursor placeholder that the
    text before it already has. -/
theorem renderBase_placeholder (hfree : NamesFreeOfBraces bindings) (hne : name ≠ [])
    (hopen : '{' ∉ name) (hclose : '}' ∉ name)
    (hres : resolveCapture name bindings = some capture) (pre post : Text) :
    (renderBase (pre ++ '{' :: (name ++ '}' :: post)) bindings).1 =
      (renderBase pre bindings).1 ++ (capture ++
        if (splitOnce cursorPlaceholder pre).isSome then substitute post bindings
        else (renderBase post bindings).1) := by
  cases hpre : splitOnce cursorPlaceholder pre with
  | some parts =>
    obtain ⟨left, right⟩ := parts
    rw [renderBase_of_some (splitOnce_append_of_some hpre _), renderBase_of_some hpre]
    simp [substitute_placeholder hfree hclose hres]
  | none =>
    have hsplit := splitOnce_cursor_after post hne hopen hclose hpre
    rw [renderBase_of_none hpre]
    cases hpost : splitOnce cursorPlaceholder post with
    | none =>
      rw [hpost, Option.map_none] at hsplit
      rw [renderBase_of_none hsplit, renderBase_of_none hpost]
      simp [substitute_placeholder hfree hclose hres]
    | some parts =>
      obtain ⟨left, right⟩ := parts
      rw [hpost, Option.map_some] at hsplit
      rw [renderBase_of_some hsplit, renderBase_of_some hpost]
      simp [substitute_placeholder hfree hclose hres]

end Runex
