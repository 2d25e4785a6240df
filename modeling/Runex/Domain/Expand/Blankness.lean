import Runex.Domain.Expand.Captures
import Runex.Domain.Expand.Glob

/-!
# Static blankness

Whether a template renders blank for every token, for none, or for some, decided from probe
renderings: one copy of a `{number}` unit, and captures that are empty. More copies of a unit without
braces keep every cursor placeholder where it is, and captures only add text.

## Main definitions

- `Blankness`, `blankness` — the verdict
- `Swapped` — copies of one text in the place of copies of another

## Main results

- `verdict_exact`, `verdict_number`, `verdict_pattern` — the verdict holds for every match
-/

namespace Runex

open Search
open Placeholder (Piece cut)
open Text (byteLen isBlank)

/-- Whether the rendering of one template is blank, over every token the rule matches. -/
inductive Blankness where
  | always
  | never
  | dependsOnToken
  deriving DecidableEq, Repr

/-- Bindings for a glob or regex rule with every capture empty; `none` when the regex key does not
    compile. -/
def emptyCaptures (engine : RegexLite) (abbr : Abbr) : Option Bindings :=
  match abbr.matchKind with
  | some .regex =>
    match compileRegexKey engine abbr.key with
    | .error _ => none
    | .ok regex =>
      some { regex := some (((engine.captureNames regex).drop 1).map fun name =>
        { name := name, text := [] }) }
  | _ => some { glob := some [] }

/-- Whether one rendering is blank; `none` when it is refused. -/
def rendersBlank (abbr : Abbr) (template : Text) (bindings : Bindings) : Option Bool :=
  (renderWithCursor abbr template bindings).map fun rendered => isBlankExpansion rendered.1

def decided : Option Bool → Blankness
  | some true => .always
  | some false => .never
  | none => .dependsOnToken

/-- Decide `Blankness` without a token, by rendering the template the way `expand` does. -/
def blankness (engine : RegexLite) (abbr : Abbr) (template : Text) : Blankness :=
  match phaseOf abbr with
  | .exact => decided (rendersBlank abbr template {})
  | .number =>
    match abbr.number with
    | some unit =>
      if '{' ∈ unit ∨ '}' ∈ unit then .dependsOnToken
      else decided (rendersBlank abbr template { number := some 1 })
    | none => .dependsOnToken
  | .glob | .regex =>
    match emptyCaptures engine abbr with
    | none => .dependsOnToken
    | some empty =>
      match rendersBlank abbr template empty with
      | some false => .never
      | some true =>
        if abbr.matchKind = some .glob ∧ '*' ∉ abbr.key then .always
        else
          match rendersBlank abbr template {} with
          | some true => .always
          | _ => .dependsOnToken
      | none => .dependsOnToken

-- ════════════════════════════════════════════════════════════════════════
-- Repeated units
-- ════════════════════════════════════════════════════════════════════════

/-- The second text is the first with copies of `w'` in the place of copies of `w`. -/
inductive Swapped (w w' : Text) : Text → Text → Prop where
  | nil : Swapped w w' [] []
  | char (c : Char) {s s' : Text} (h : Swapped w w' s s') : Swapped w w' (c :: s) (c :: s')
  | unit {s s' : Text} (h : Swapped w w' s s') : Swapped w w' (w ++ s) (w' ++ s')

namespace Swapped

variable {w w' s s' : Text}

theorem symm (h : Swapped w w' s s') : Swapped w' w s' s := by
  induction h with
  | nil => exact nil
  | char c _ ih => exact char c ih
  | unit _ ih => exact unit ih

theorem replaceAll_replaceAll {pat : Text} (hpat : pat ≠ []) (t : Text) :
    Swapped w w' (replaceAll pat w t) (replaceAll pat w' t) := by
  induction t using scan_induction hpat with
  | nil => exact nil
  | hit t ih =>
    rw [replaceAll_pat_append hpat, replaceAll_pat_append hpat]
    exact unit ih
  | miss c t hc ih =>
    rw [replaceAll_cons hc, replaceAll_cons hc]
    exact char c ih

theorem isBlank_eq (h : Swapped w w' s s') (hblank : isBlank w = isBlank w') :
    isBlank s = isBlank s' := by
  unfold isBlank at hblank ⊢
  induction h with
  | nil => rfl
  | char c _ ih => rw [List.all_cons, List.all_cons, ih]
  | unit _ ih => rw [List.all_append, List.all_append, ih, hblank]

/-- A closing brace is no part of a copy, so it is at the same place on both sides. -/
theorem closing (hw : '}' ∉ w ∧ w ≠ []) {t : Text} (h : Swapped w w' ('}' :: s) t) :
    ∃ t', t = '}' :: t' ∧ Swapped w w' s t' := by
  generalize hs : '}' :: s = u at h
  cases h with
  | nil => exact absurd hs (by simp)
  | @char c r r' hr =>
    rw [List.cons.injEq] at hs
    obtain ⟨rfl, rfl⟩ := hs
    exact ⟨r', rfl, hr⟩
  | @unit r r' hr =>
    obtain ⟨d, rest, hcons⟩ := List.exists_cons_of_ne_nil hw.2
    rw [hcons, List.cons_append, List.cons.injEq] at hs
    exact absurd (hcons ▸ hs.1 ▸ List.mem_cons_self) hw.1

theorem append {t t' : Text} (h : Swapped w w' s s') (ht : Swapped w w' t t') :
    Swapped w w' (s ++ t) (s' ++ t') := by
  induction h with
  | nil => exact ht
  | char c _ ih => exact char c ih
  | unit _ ih =>
    rw [List.append_assoc, List.append_assoc]
    exact unit ih

/-- The cursor placeholder is at the same place on both sides. -/
theorem splitOnce_cursor (hw : '{' ∉ w ∧ '}' ∉ w ∧ w ≠ []) (hw' : '{' ∉ w' ∧ '}' ∉ w' ∧ w' ≠ [])
    (h : Swapped w w' s s') :
    (splitOnce cursorPlaceholder s = none ∧ splitOnce cursorPlaceholder s' = none) ∨
      ∃ left right left' right', splitOnce cursorPlaceholder s = some (left, right) ∧
        splitOnce cursorPlaceholder s' = some (left', right') ∧
        Swapped w w' left left' ∧ Swapped w w' right right' := by
  induction h with
  | nil => exact Or.inl ⟨rfl, rfl⟩
  | @char c s s' h ih =>
    by_cases hstart : cursorPlaceholder <+: c :: s
    · obtain ⟨right, hright⟩ := hstart
      simp only [cursorPlaceholder, List.cons_append, List.nil_append, List.cons.injEq] at hright
      obtain ⟨rfl, rfl⟩ := hright
      obtain ⟨right', rfl, hright'⟩ := closing hw.2 h
      exact Or.inr ⟨[], right, [], right', splitOnce_append cursorPlaceholder right,
        splitOnce_append cursorPlaceholder right', nil, hright'⟩
    · have hstart' : ¬ cursorPlaceholder <+: c :: s' := by
        rintro ⟨right', hright'⟩
        simp only [cursorPlaceholder, List.cons_append, List.nil_append, List.cons.injEq] at hright'
        obtain ⟨rfl, rfl⟩ := hright'
        obtain ⟨right, rfl, -⟩ := closing hw'.2 h.symm
        exact hstart (List.prefix_append cursorPlaceholder right)
      rw [splitOnce_cons hstart, splitOnce_cons hstart']
      rcases ih with ⟨hnone, hnone'⟩ | ⟨left, right, left', right', hsome, hsome', hleft, hright⟩
      · exact Or.inl ⟨by rw [hnone]; rfl, by rw [hnone']; rfl⟩
      · exact Or.inr ⟨c :: left, right, c :: left', right', by rw [hsome]; rfl, by rw [hsome']; rfl,
          char c hleft, hright⟩
  | @unit s s' h ih =>
    rw [splitOnce_cursor_append hw.1, splitOnce_cursor_append hw'.1]
    rcases ih with ⟨hnone, hnone'⟩ | ⟨left, right, left', right', hsome, hsome', hleft, hright⟩
    · exact Or.inl ⟨by rw [hnone]; rfl, by rw [hnone']; rfl⟩
    · exact Or.inr ⟨w ++ left, right, w' ++ left', right', by rw [hsome]; rfl, by rw [hsome']; rfl,
        unit hleft, hright⟩

end Swapped

-- ════════════════════════════════════════════════════════════════════════
-- Probe renderings
-- ════════════════════════════════════════════════════════════════════════

/-- The renderings of two matches are both blank or both not. -/
def SameBlankness (abbr : Abbr) (template : Text) (bindings probe : Bindings) : Prop :=
  ∀ rendered rendered', renderWithCursor abbr template bindings = some rendered →
    renderWithCursor abbr template probe = some rendered' →
    isBlank rendered.1 = isBlank rendered'.1

/-- What a verdict says of one rendering. -/
def Verdict (verdict : Blankness) (abbr : Abbr) (template : Text) (bindings : Bindings) : Prop :=
  ∀ rendered, renderWithCursor abbr template bindings = some rendered →
    (verdict = .always → isBlankExpansion rendered.1 = true) ∧
    (verdict = .never → isBlankExpansion rendered.1 = false)

variable {engine : RegexLite} {abbr : Abbr} {template token : Text} {bindings probe : Bindings}

theorem verdict_dependsOnToken : Verdict .dependsOnToken abbr template bindings :=
  fun _ _ => ⟨nofun, nofun⟩

theorem rendersBlank_eq_some {blank : Bool} (h : rendersBlank abbr template probe = some blank) :
    ∃ rendered, renderWithCursor abbr template probe = some rendered ∧ isBlank rendered.1 = blank :=
  Option.map_eq_some_iff.mp h

theorem SameBlankness.verdict (h : SameBlankness abbr template bindings probe) :
    Verdict (decided (rendersBlank abbr template probe)) abbr template bindings := by
  intro rendered hrendered
  cases hprobe : rendersBlank abbr template probe with
  | none => exact ⟨nofun, nofun⟩
  | some blank =>
    obtain ⟨rendered', hrendered', hblank⟩ := rendersBlank_eq_some hprobe
    have hsame : isBlank rendered.1 = blank := (h _ _ hrendered hrendered').trans hblank
    cases blank with
    | true => exact ⟨fun _ => hsame, nofun⟩
    | false => exact ⟨nofun, fun _ => hsame⟩

/-- A rendering is the repeated template around its cursor placeholder. -/
theorem eq_renderBase_of_renderWithCursor {rendered : Text × Option ℕ}
    (h : renderWithCursor abbr template bindings = some rendered) :
    ∃ base, renderNumber abbr template bindings = some base ∧ rendered = renderBase base bindings := by
  rw [renderWithCursor_eq, Option.bind_eq_some_iff] at h
  obtain ⟨base, hbase, h⟩ := h
  split at h
  · exact ⟨base, hbase, (Option.some.inj h).symm⟩
  · exact absurd h (by simp)

-- ════════════════════════════════════════════════════════════════════════
-- Number rules
-- ════════════════════════════════════════════════════════════════════════

theorem renderBase_number (n : ℕ) (base : Text) :
    (renderBase base { number := some n }).1 = (extractCursorPlaceholder base).1 := by
  rw [renderBase_of_no_captures fun _ => resolveCapture_without_captures rfl rfl]

theorem Swapped.isBlank_extract {w w' s s' : Text} (h : Swapped w w' s s')
    (hblank : isBlank w = isBlank w') (hw : '{' ∉ w ∧ '}' ∉ w ∧ w ≠ [])
    (hw' : '{' ∉ w' ∧ '}' ∉ w' ∧ w' ≠ []) :
    isBlank (extractCursorPlaceholder s).1 = isBlank (extractCursorPlaceholder s').1 := by
  rcases h.splitOnce_cursor hw hw' with
    ⟨hnone, hnone'⟩ | ⟨left, right, left', right', hsome, hsome', hleft, hright⟩
  · rw [extractCursorPlaceholder_of_none hnone, extractCursorPlaceholder_of_none hnone']
    exact h.isBlank_eq hblank
  · rw [extractCursorPlaceholder_of_some hsome, extractCursorPlaceholder_of_some hsome']
    exact (hleft.append hright).isBlank_eq hblank

theorem mem_replicate_flatten {n : ℕ} {unit : Text} {c : Char}
    (h : c ∈ (List.replicate n unit).flatten) : c ∈ unit := by
  obtain ⟨piece, hpiece, hc⟩ := List.mem_flatten.mp h
  exact List.eq_of_mem_replicate hpiece ▸ hc

theorem isBlank_replicate_flatten {n : ℕ} (hn : 0 < n) (unit : Text) :
    isBlank (List.replicate n unit).flatten = isBlank unit := by
  unfold isBlank
  rw [List.all_flatten]
  cases n with
  | zero => exact absurd hn (by simp)
  | succ n => simp

/-- The renderings for one copy of a unit without braces and for more are both blank or both
    not. -/
theorem sameBlankness_number {unit : Text} (hunit : abbr.number = some unit) (hopen : '{' ∉ unit)
    (hclose : '}' ∉ unit) {n : ℕ} (hn : 0 < n) :
    SameBlankness abbr template { number := some n } { number := some 1 } := by
  intro rendered rendered' h h'
  obtain ⟨base, hbase, rfl⟩ := eq_renderBase_of_renderWithCursor h
  obtain ⟨base', hbase', rfl⟩ := eq_renderBase_of_renderWithCursor h'
  have hreplace : ∀ {k : ℕ} {text : Text},
      renderNumber abbr template { number := some k } = some text →
      text = replaceAll numberPlaceholder (List.replicate k unit).flatten template := by
    intro k text hrender
    simp only [renderNumber, hunit, Option.bind_eq_bind, Option.bind_some] at hrender
    split at hrender
    · exact absurd hrender (by simp)
    · split at hrender
      · exact absurd hrender (by simp)
      · exact (Option.some.inj hrender).symm
  rw [renderBase_number, renderBase_number, hreplace hbase, hreplace hbase']
  by_cases hempty : unit = []
  · simp [hempty]
  · have hcopies : ∀ {k : ℕ}, 0 < k → '{' ∉ (List.replicate k unit).flatten ∧
        '}' ∉ (List.replicate k unit).flatten ∧ (List.replicate k unit).flatten ≠ [] := by
      intro k hk
      refine ⟨fun h => hopen (mem_replicate_flatten h), fun h => hclose (mem_replicate_flatten h), ?_⟩
      cases k with
      | zero => exact absurd hk (by simp)
      | succ k => simp [List.replicate_succ, hempty]
    refine Swapped.isBlank_extract (Swapped.replaceAll_replaceAll (by decide) template) ?_
      (hcopies hn) (hcopies Nat.one_pos)
    rw [isBlank_replicate_flatten hn, isBlank_replicate_flatten Nat.one_pos]

-- ════════════════════════════════════════════════════════════════════════
-- Captures
-- ════════════════════════════════════════════════════════════════════════

/-- The pieces around the cursor placeholder, as one list. -/
def templatePieces (bindings : Bindings) (template : Text) : List Piece :=
  match splitOnce cursorPlaceholder template with
  | none => cut (resolves bindings) template
  | some (left, right) => cut (resolves bindings) left ++ cut (resolves bindings) right

theorem renderBase_eq_filled (base : Text) :
    (renderBase base bindings).1 = filled bindings (templatePieces bindings base) := by
  unfold templatePieces
  cases hsplit : splitOnce cursorPlaceholder base with
  | none => rw [renderBase_of_none hsplit, substitute_eq_filled]
  | some parts =>
    obtain ⟨left, right⟩ := parts
    rw [renderBase_of_some hsplit, substitute_eq_filled, substitute_eq_filled]
    simp [filled]

/-- Captures only add text: a filled cut that is blank is blank with empty captures. -/
theorem isBlank_filled_of_empty (hempty : ∀ name, (resolveCapture name probe).getD [] = [])
    {pieces : List Piece} (h : isBlank (filled bindings pieces) = true) :
    isBlank (filled probe pieces) = true := by
  unfold filled isBlank at *
  simp only [List.all_flatMap] at h ⊢
  rw [List.all_eq_true] at h ⊢
  intro piece hmem
  cases piece with
  | char c => exact h _ hmem
  | slot name => simp [Piece.fill, hempty name]

/-- A match without captures that renders blank renders the same with every capture. -/
theorem renderBase_of_isBlank {base : Text} (h : isBlank (renderBase base {}).1 = true) :
    (renderBase base bindings).1 = (renderBase base {}).1 := by
  have hid : ∀ text, substitute text {} = text :=
    substitute_without_captures fun _ => resolveCapture_without_captures rfl rfl
  have hblank : ∀ {text : Text}, isBlank text = true → substitute text bindings = text := by
    intro text hblank
    refine substitute_of_no_open (splitOnce_singleton_eq_none.mpr fun hmem => ?_)
    exact absurd (List.all_eq_true.mp hblank '{' hmem) (by decide)
  cases hsplit : splitOnce cursorPlaceholder base with
  | none =>
    rw [renderBase_of_none hsplit, hid] at h
    rw [renderBase_of_none hsplit, renderBase_of_none hsplit, hid, hblank h]
  | some parts =>
    obtain ⟨left, right⟩ := parts
    rw [renderBase_of_some hsplit, hid, hid, isBlank, List.all_append, Bool.and_eq_true] at h
    rw [renderBase_of_some hsplit, renderBase_of_some hsplit, hid, hid, hblank h.1, hblank h.2]

-- ════════════════════════════════════════════════════════════════════════
-- Pattern rules
-- ════════════════════════════════════════════════════════════════════════

/-- The empty captures know the names that a match knows, and capture nothing. -/
theorem emptyCaptures_spec (hkind : abbr.matchKind ≠ none)
    (hmatch : matchRule engine abbr token = some bindings) :
    ∃ empty, emptyCaptures engine abbr = some empty ∧ resolves empty = resolves bindings ∧
      (∀ name, (resolveCapture name empty).getD [] = []) ∧ empty.number = none := by
  unfold matchRule at hmatch
  unfold emptyCaptures
  split at hmatch
  · next hglob =>
    obtain ⟨captured, -, rfl⟩ := Option.map_eq_some_iff.mp hmatch
    rw [hglob]
    refine ⟨{ glob := some [] }, rfl, ?_, ?_, rfl⟩
    · funext name
      by_cases hstar : name = globCaptureName <;> simp [resolves, resolveCapture, hstar]
    · intro name
      by_cases hstar : name = globCaptureName <;> simp [resolveCapture, hstar]
  · next hregex =>
    obtain ⟨groups, hgroups, rfl⟩ := Option.map_eq_some_iff.mp hmatch
    rw [hregex]
    unfold matchRegexKey at hgroups
    cases hcompile : compileRegexKey engine abbr.key with
    | error _ => rw [hcompile] at hgroups; exact absurd hgroups (by simp)
    | ok regex =>
      rw [hcompile] at hgroups
      obtain ⟨captures, -, rfl⟩ := Option.map_eq_some_iff.mp hgroups
      refine ⟨_, rfl, ?_, ?_, rfl⟩
      · funext name
        by_cases hstar : name = globCaptureName
        · simp [resolves, resolveCapture, hstar]
        · rw [resolves, resolves, resolveCapture_regex hstar rfl, resolveCapture_regex hstar rfl,
            Option.isSome_map, Option.isSome_map]
          refine isSome_groupNamed ?_ name
          simp [Function.comp_def, List.zipIdx_map_fst]
      · intro name
        by_cases hstar : name = globCaptureName
        · simp [resolveCapture, hstar]
        · rw [resolveCapture_regex hstar rfl]
          cases hgroup : groupNamed (((engine.captureNames regex).drop 1).map fun name =>
              { name := name, text := [] }) name with
          | none => rfl
          | some group =>
            obtain ⟨_, -, rfl⟩ := List.mem_map.mp (mem_of_groupNamed hgroup)
            rfl
  · next hnone => exact absurd hnone hkind

/-- The verdict on a pattern rule, from its rendering with empty captures and with none. -/
def patternBlankness (abbr : Abbr) (empty plain : Option Bool) : Blankness :=
  match empty with
  | some false => .never
  | some true =>
    if abbr.matchKind = some .glob ∧ '*' ∉ abbr.key then .always
    else
      match plain with
      | some true => .always
      | _ => .dependsOnToken
  | none => .dependsOnToken

/-- The verdict on a pattern rule holds for every match. -/
theorem verdict_pattern (hkind : abbr.matchKind ≠ none)
    (hmatch : matchRule engine abbr token = some bindings) :
    Verdict (blankness engine abbr template) abbr template bindings := by
  obtain ⟨empty, hempty, hresolves, hnothing, hnumber⟩ := emptyCaptures_spec hkind hmatch
  have hbase : ∀ {b : Bindings} {rendered : Text × Option ℕ}, b.number = none →
      renderWithCursor abbr template b = some rendered → rendered = renderBase template b := by
    intro b rendered hb hrendered
    obtain ⟨base, hbase, rfl⟩ := eq_renderBase_of_renderWithCursor hrendered
    rw [renderNumber, hb, Option.some.injEq] at hbase
    rw [hbase]
  have hphase : phaseOf abbr = .glob ∨ phaseOf abbr = .regex := by
    unfold phaseOf
    split <;> simp_all
  have hverdict : blankness engine abbr template =
      patternBlankness abbr (rendersBlank abbr template empty) (rendersBlank abbr template {}) := by
    rcases hphase with hphase | hphase <;> simp only [blankness, hphase, hempty, patternBlankness]
  rw [hverdict]
  cases hprobe : rendersBlank abbr template empty with
  | none => exact verdict_dependsOnToken
  | some blank =>
    obtain ⟨probe, hrender, hblank⟩ := rendersBlank_eq_some hprobe
    obtain rfl := hbase hnumber hrender
    intro rendered hrendered
    obtain rfl := hbase (number_of_matchRule hkind hmatch) hrendered
    cases blank with
    | false =>
      dsimp only [patternBlankness]
      refine ⟨fun h => absurd h (by decide), fun _ => ?_⟩
      -- A blank rendering would be blank with empty captures too.
      by_contra hnot
      rw [Bool.not_eq_false, isBlankExpansion, renderBase_eq_filled] at hnot
      rw [renderBase_eq_filled] at hblank
      have hpieces : templatePieces empty template = templatePieces bindings template := by
        rw [templatePieces, hresolves, templatePieces]
      rw [hpieces, isBlank_filled_of_empty hnothing hnot] at hblank
      exact absurd hblank (by simp)
    | true =>
      dsimp only [patternBlankness]
      by_cases hfixed : abbr.matchKind = some .glob ∧ '*' ∉ abbr.key
      · -- A glob key without a `*` captures nothing.
        have hsame : bindings = empty := by
          rw [matchRule, hfixed.1] at hmatch
          obtain ⟨captured, hcaptured, rfl⟩ := Option.map_eq_some_iff.mp hmatch
          rw [emptyCaptures, hfixed.1, Option.some.injEq] at hempty
          rw [← hempty, ((matchGlobKey_of_not_mem hfixed.2).mp hcaptured).2]
        rw [if_pos hfixed]
        exact ⟨fun _ => hsame ▸ hblank, fun h => absurd h (by decide)⟩
      · rw [if_neg hfixed]
        cases hplain : rendersBlank abbr template {} with
        | none => exact verdict_dependsOnToken _ hrendered
        | some blank' =>
          cases blank' with
          | false => exact verdict_dependsOnToken _ hrendered
          | true =>
            obtain ⟨plain, hrender', hblank'⟩ := rendersBlank_eq_some hplain
            obtain rfl := hbase rfl hrender'
            refine ⟨fun _ => ?_, fun h => absurd h (by decide)⟩
            rw [isBlankExpansion, renderBase_of_isBlank hblank', hblank']

/-- The verdict on a `{number}` rule holds for every match that binds a number. -/
theorem verdict_number (hphase : phaseOf abbr = .number) {n : ℕ} (hn : 0 < n) :
    Verdict (blankness engine abbr template) abbr template { number := some n } := by
  simp only [blankness, hphase]
  cases hunit : abbr.number with
  | none => exact verdict_dependsOnToken
  | some unit =>
    simp only
    split
    · exact verdict_dependsOnToken
    · next hbraces =>
      rw [not_or] at hbraces
      exact (sameBlankness_number hunit hbraces.1 hbraces.2 hn).verdict

/-- The verdict on an exact rule holds for its match. -/
theorem verdict_exact (hphase : phaseOf abbr = .exact)
    (hmatch : matchRule engine abbr token = some bindings) :
    Verdict (blankness engine abbr template) abbr template bindings := by
  obtain ⟨hkind, hbrace⟩ := phaseOf_eq_exact.mp hphase
  rw [matchRule, hkind] at hmatch
  simp only [matchAbbrKey, hbrace, not_false_eq_true, if_true] at hmatch
  split at hmatch
  · obtain rfl := Option.some.inj hmatch
    simp only [blankness, hphase]
    refine SameBlankness.verdict fun rendered rendered' h h' => ?_
    rw [h, Option.some.injEq] at h'
    rw [h']
  · exact absurd hmatch (by simp)

end Runex
