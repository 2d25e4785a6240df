import Runex.Domain.Expand

/-!
# What rendering computes

The brace scanner of `renderedPieces` as a substitution on characters, and the closed form of
`renderWithCursor` it leads to: the captures are substituted on the two sides of the first cursor
placeholder, and only the total length can make a rendering fail.

## Main results

- `substitute_cons_ne`, `substitute_open_some`, `substitute_open_none` — the scanner, one character
  at a time
- `renderWithCursor_eq` — the closed form of a rendering
- `expand_cursor_isBoundary` — the cursor of an expansion is at a character boundary
-/

namespace Runex

open Search
open Text (byteLen)

/-- The text the pieces of `renderedPieces` make up. -/
def substitute (text : Text) (bindings : Bindings) : Text := (renderedPieces text bindings).flatten

variable {bindings : Bindings}

theorem substitute_of_no_open {text : Text} (h : splitOnce ['{'] text = none) :
    substitute text bindings = text := by
  rw [substitute, renderedPieces]
  split
  · simp
  · next hsplit => simp [h] at hsplit

theorem substitute_of_open {text before afterOpen : Text}
    (h : splitOnce ['{'] text = some (before, afterOpen)) :
    substitute text bindings = before ++
      match resolvedAfterOpen afterOpen bindings with
      | some (capture, after) => capture ++ substitute after bindings
      | none => '{' :: substitute afterOpen bindings := by
  rw [substitute, renderedPieces]
  split
  · next hsplit => simp [h] at hsplit
  · next before' afterOpen' hsplit =>
    rw [h] at hsplit
    simp only [Option.some.injEq, Prod.mk.injEq] at hsplit
    obtain ⟨rfl, rfl⟩ := hsplit
    split
    · next capture after hres => simp [hres, substitute]
    · next hres => simp [hres, substitute]

@[simp] theorem substitute_nil : substitute [] bindings = [] :=
  substitute_of_no_open (splitOnce_singleton_eq_none.mpr (by simp))

/-- A character that is not an opening brace is copied. -/
theorem substitute_cons_ne {c : Char} (hc : c ≠ '{') (s : Text) :
    substitute (c :: s) bindings = c :: substitute s bindings := by
  have hstart : ¬ ['{'] <+: c :: s := by simp [Ne.symm hc]
  cases hsplit : splitOnce ['{'] s with
  | none =>
    rw [substitute_of_no_open hsplit, substitute_of_no_open]
    rw [splitOnce_cons hstart, hsplit]
    rfl
  | some parts =>
    obtain ⟨before, afterOpen⟩ := parts
    have hcons : splitOnce ['{'] (c :: s) = some (c :: before, afterOpen) := by
      rw [splitOnce_cons hstart, hsplit]
      rfl
    rw [substitute_of_open hsplit, substitute_of_open hcons, List.cons_append]

theorem splitOnce_open (s : Text) : splitOnce ['{'] ('{' :: s) = some ([], s) :=
  splitOnce_append ['{'] s

/-- A placeholder the bindings resolve is replaced by its capture. -/
theorem substitute_open_some {s capture after : Text}
    (h : resolvedAfterOpen s bindings = some (capture, after)) :
    substitute ('{' :: s) bindings = capture ++ substitute after bindings := by
  rw [substitute_of_open (splitOnce_open s), h, List.nil_append]

/-- Any other opening brace is copied, and the scan resumes right after it. -/
theorem substitute_open_none {s : Text} (h : resolvedAfterOpen s bindings = none) :
    substitute ('{' :: s) bindings = '{' :: substitute s bindings := by
  rw [substitute_of_open (splitOnce_open s), h, List.nil_append]

/-- A placeholder written out: the scanner sees its name when the name has no closing brace. -/
theorem resolvedAfterOpen_name {name : Text} (hname : '}' ∉ name) (after : Text) :
    resolvedAfterOpen (name ++ '}' :: after) bindings =
      (resolveCapture name bindings).map fun capture => (capture, after) := by
  have hsplit : splitOnce ['}'] (name ++ '}' :: after) = some (name, after) :=
    splitOnce_singleton_eq_some.mpr ⟨rfl, hname⟩
  simp [resolvedAfterOpen, hsplit]

/-- No capture placeholder has the empty name. -/
theorem resolveCapture_without_captures {name : Text} (hglob : bindings.glob = none)
    (hregex : bindings.regex = none) : resolveCapture name bindings = none := by
  simp [resolveCapture, hglob, hregex]

theorem resolvedAfterOpen_eq_none {s : Text}
    (h : ∀ name, resolveCapture name bindings = none) :
    resolvedAfterOpen s bindings = none := by
  unfold resolvedAfterOpen
  split
  · rfl
  · next name _ _ => simp [h name]

/-- Without captures, substitution changes nothing. -/
theorem substitute_without_captures (h : ∀ name, resolveCapture name bindings = none)
    (text : Text) : substitute text bindings = text := by
  induction text with
  | nil => exact substitute_nil
  | cons c s ih =>
    by_cases hc : c = '{'
    · subst hc
      rw [substitute_open_none (resolvedAfterOpen_eq_none h), ih]
    · rw [substitute_cons_ne hc, ih]

theorem globCapturePlaceholder_ne_nil : globCapturePlaceholder ≠ [] := by decide

/-- With a glob capture, substitution replaces every `{*}`. -/
theorem substitute_glob (captured text : Text) :
    substitute text { glob := some captured } = replaceAll globCapturePlaceholder captured text := by
  induction text using scan_induction globCapturePlaceholder_ne_nil with
  | nil => exact substitute_nil
  | hit s ih =>
    have hopen : resolvedAfterOpen (globCaptureName ++ '}' :: s) { glob := some captured } =
        some (captured, s) := resolvedAfterOpen_name (by decide) s
    have hstart : globCapturePlaceholder ++ s = '{' :: (globCaptureName ++ '}' :: s) := rfl
    rw [replaceAll_pat_append (by decide), hstart, substitute_open_some hopen, ih]
  | miss c s hc ih =>
    rw [replaceAll_cons hc, ← ih]
    by_cases hbrace : c = '{'
    · subst hbrace
      refine substitute_open_none ?_
      unfold resolvedAfterOpen
      split
      · rfl
      · next name after hsplit =>
        -- The only name that resolves is `*`, and no `{*}` starts here.
        obtain ⟨rfl, -⟩ := splitOnce_singleton_eq_some.mp hsplit
        have hname : name ≠ globCaptureName := by
          rintro rfl
          exact hc (List.prefix_append globCapturePlaceholder after)
        simp [resolveCapture, hname]
    · exact substitute_cons_ne hbrace s

theorem substituteCaptures_eq (text : Text) (bindings : Bindings) :
    substituteCaptures text bindings =
      if byteLen (substitute text bindings) ≤ maxRenderedExpandBytes then
        some (substitute text bindings)
      else none := by
  unfold substituteCaptures substitute
  rw [Text.byteLen_flatten]
  by_cases h : ((renderedPieces text bindings).map byteLen).sum ≤ maxRenderedExpandBytes
  · simp [h]
  · simp [h]

/-- A base text rendered with its captures: whole, or in two parts around the cursor. -/
def renderBase (base : Text) (bindings : Bindings) : Text × Option ℕ :=
  match splitOnce cursorPlaceholder base with
  | none => (substitute base bindings, none)
  | some (left, right) =>
    (substitute left bindings ++ substitute right bindings,
      some (byteLen (substitute left bindings)))

theorem renderBase_of_none {base : Text} (h : splitOnce cursorPlaceholder base = none) :
    renderBase base bindings = (substitute base bindings, none) := by
  rw [renderBase, h]

theorem renderBase_of_some {base left right : Text}
    (h : splitOnce cursorPlaceholder base = some (left, right)) :
    renderBase base bindings =
      (substitute left bindings ++ substitute right bindings,
        some (byteLen (substitute left bindings))) := by
  rw [renderBase, h]

theorem extractCursorPlaceholder_of_none {base : Text}
    (h : splitOnce cursorPlaceholder base = none) :
    extractCursorPlaceholder base = (base, none) := by
  rw [extractCursorPlaceholder, h]

theorem extractCursorPlaceholder_of_some {base left right : Text}
    (h : splitOnce cursorPlaceholder base = some (left, right)) :
    extractCursorPlaceholder base = (left ++ right, some (byteLen left)) := by
  rw [extractCursorPlaceholder, h]

/-- Without captures the text is the base without its cursor placeholder. -/
theorem renderBase_of_no_captures (h : ∀ name, resolveCapture name bindings = none) :
    renderBase base bindings = extractCursorPlaceholder base := by
  have hid := substitute_without_captures h
  cases hsplit : splitOnce cursorPlaceholder base with
  | none => rw [renderBase_of_none hsplit, extractCursorPlaceholder_of_none hsplit, hid]
  | some parts =>
    rw [renderBase_of_some hsplit, extractCursorPlaceholder_of_some hsplit, hid, hid]

theorem byteLen_extractCursorPlaceholder_le (base : Text) :
    byteLen (extractCursorPlaceholder base).1 ≤ byteLen base := by
  cases hsplit : splitOnce cursorPlaceholder base with
  | none => rw [extractCursorPlaceholder_of_none hsplit]
  | some parts =>
    rw [extractCursorPlaceholder_of_some hsplit]
    conv_rhs => rw [eq_append_of_splitOnce hsplit]
    simp only [Text.byteLen_append]
    omega

theorem not_mem_renderBase {c : Char} {base : Text}
    (hsubstitute : ∀ text : Text, c ∉ text → c ∉ substitute text bindings) (hbase : c ∉ base) :
    c ∉ (renderBase base bindings).1 := by
  cases hsplit : splitOnce cursorPlaceholder base with
  | none =>
    rw [renderBase_of_none hsplit]
    exact hsubstitute base hbase
  | some parts =>
    rw [eq_append_of_splitOnce hsplit, List.mem_append, List.mem_append, not_or, not_or] at hbase
    rw [renderBase_of_some hsplit, List.mem_append, not_or]
    exact ⟨hsubstitute _ hbase.1, hsubstitute _ hbase.2.2⟩

/-- No cursor placeholder starts in a text without an opening brace. -/
theorem splitOnce_cursor_append {s : Text} (h : '{' ∉ s) (t : Text) :
    splitOnce cursorPlaceholder (s ++ t) =
      (splitOnce cursorPlaceholder t).map fun parts => (s ++ parts.1, parts.2) :=
  splitOnce_append_of_not_mem h t

/-- A rendering is the base text with its captures, unless that exceeds the cap. -/
theorem renderWithCursor_eq (abbr : Abbr) (template : Text) (bindings : Bindings) :
    renderWithCursor abbr template bindings =
      (renderNumber abbr template bindings).bind fun base =>
        if byteLen (renderBase base bindings).1 ≤ maxRenderedExpandBytes then
          some (renderBase base bindings)
        else none := by
  unfold renderWithCursor
  cases renderNumber abbr template bindings with
  | none => rfl
  | some base =>
    simp only [Option.bind_eq_bind, Option.bind_some]
    rcases hsplit : splitOnce cursorPlaceholder base with _ | ⟨left, right⟩
    · rw [extractCursorPlaceholder_of_none hsplit, renderBase_of_none hsplit]
      simp only [substituteCaptures_eq]
      split <;> rfl
    · rw [extractCursorPlaceholder_of_some hsplit, renderBase_of_some hsplit]
      simp only [Text.sliceTo?_append, Text.sliceFrom?_append, Option.bind_some,
        substituteCaptures_eq, Text.byteLen_append]
      by_cases htotal : byteLen (substitute left bindings) +
          byteLen (substitute right bindings) ≤ maxRenderedExpandBytes
      · rw [if_pos (by omega), if_pos (by omega)]
        simp [htotal]
      · -- One side over the cap already fails, and so does the sum.
        split
        · split
          · simp [htotal]
          · simp
        · simp

/-- The cursor of a rendering is at a character boundary of its text. -/
theorem renderWithCursor_isBoundary {abbr : Abbr} {template text : Text} {off : ℕ}
    (h : renderWithCursor abbr template bindings = some (text, some off)) :
    Text.IsBoundary text off := by
  rw [renderWithCursor_eq] at h
  simp only [Option.bind_eq_some_iff] at h
  obtain ⟨base, -, hbase⟩ := h
  split at hbase
  · simp only [Option.some.injEq, renderBase] at hbase
    split at hbase
    · simp at hbase
    · simp only [Prod.mk.injEq, Option.some.injEq] at hbase
      obtain ⟨rfl, rfl⟩ := hbase
      exact Text.isBoundary_append _ _
  · simp at hbase

/-- What makes a rule fire. -/
theorem tryExpandRule_eq_some {abbr : Abbr} {token : Text} {shell : Shell}
    {commandExists : Text → Bool} {result : ExpandResult}
    (h : tryExpandRule abbr token shell commandExists bindings = some result) :
    ∃ template text cursor, abbr.expand.forShell shell = some template ∧
      renderWithCursor abbr template bindings = some (text, cursor) ∧
      isBlankExpansion text = false ∧ result = .expanded text cursor := by
  have hfire : ∀ template, tryExpandRule.fire abbr token bindings template = some result →
      ∃ text cursor, renderWithCursor abbr template bindings = some (text, cursor) ∧
        isBlankExpansion text = false ∧ result = .expanded text cursor := by
    intro template hfire
    simp only [tryExpandRule.fire, Option.bind_eq_bind, Option.bind_eq_some_iff, Prod.exists] at hfire
    obtain ⟨text, cursor, hrender, hguard⟩ := hfire
    split at hguard
    · simp at hguard
    · next hblank =>
      simp only [Bool.or_eq_true, not_or, Bool.not_eq_true] at hblank
      simp only [Option.some.injEq] at hguard
      exact ⟨text, cursor, hrender, hblank.1, hguard.symm⟩
  simp only [tryExpandRule, Option.bind_eq_bind, Option.bind_eq_some_iff] at h
  obtain ⟨template, htemplate, h⟩ := h
  obtain ⟨text, cursor, hrest⟩ : ∃ text cursor,
      renderWithCursor abbr template bindings = some (text, cursor) ∧
        isBlankExpansion text = false ∧ result = .expanded text cursor := by
    split at h
    · simp at h
    · split at h
      · simp only [Option.bind_eq_some_iff] at h
        obtain ⟨list, -, h⟩ := h
        split at h
        · simp at h
        · exact hfire template h
      · exact hfire template h
  exact ⟨template, text, cursor, htemplate, hrest⟩

/-- An expansion comes from a rule that matches the token and fires. -/
theorem expand_eq_expanded {engine : RegexLite} {config : Config} {token : Text} {shell : Shell}
    {commandExists : Text → Bool} {text : Text} {cursor : Option ℕ}
    (h : expand engine config token shell commandExists = .expanded text cursor) :
    ∃ abbr ∈ config.abbr, ∃ bindings, matchRule engine abbr token = some bindings ∧
      tryExpandRule abbr token shell commandExists bindings = some (.expanded text cursor) := by
  unfold expand at h
  cases hfound : phases.findSome? fun phase =>
      (config.abbr.filter fun abbr => phaseOf abbr == phase).findSome? fun abbr =>
        (matchRule engine abbr token).bind fun bindings =>
          tryExpandRule abbr token shell commandExists bindings with
  | none => simp [hfound] at h
  | some result =>
    simp only [hfound, Option.getD_some] at h
    subst h
    obtain ⟨phase, -, hphase⟩ := List.exists_of_findSome?_eq_some hfound
    obtain ⟨abbr, hmem, habbr⟩ := List.exists_of_findSome?_eq_some hphase
    simp only [Option.bind_eq_some_iff] at habbr
    obtain ⟨bindings, hmatch, htry⟩ := habbr
    exact ⟨abbr, List.mem_of_mem_filter hmem, bindings, hmatch, htry⟩

/-- The cursor of an expansion is at a character boundary of its text. -/
theorem expand_cursor_isBoundary {engine : RegexLite} {config : Config} {token : Text}
    {shell : Shell} {commandExists : Text → Bool} {text : Text} {off : ℕ}
    (h : expand engine config token shell commandExists = .expanded text (some off)) :
    Text.IsBoundary text off := by
  obtain ⟨abbr, -, bindings, -, htry⟩ := expand_eq_expanded h
  obtain ⟨template, text', cursor, -, hrender, -, hresult⟩ := tryExpandRule_eq_some htry
  simp only [ExpandResult.expanded.injEq] at hresult
  obtain ⟨rfl, rfl⟩ := hresult
  exact renderWithCursor_isBoundary hrender

/-- A token that expands is one that some rule matches. -/
theorem isSome_matchRule_of_expand {engine : RegexLite} {config : Config} {token : Text}
    {shell : Shell} {commandExists : Text → Bool} {text : Text} {cursor : Option ℕ}
    (h : expand engine config token shell commandExists = .expanded text cursor) :
    config.abbr.any (fun abbr => (matchRule engine abbr token).isSome) = true := by
  obtain ⟨abbr, hmem, bindings, hmatch, -⟩ := expand_eq_expanded h
  exact List.any_eq_true.mpr ⟨abbr, hmem, by simp [hmatch]⟩

end Runex
