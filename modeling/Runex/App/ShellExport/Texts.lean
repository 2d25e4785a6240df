import Runex.App.BashStaticDispatcher.Rows
import Runex.App.ShellExport
import Runex.App.ShellExport.Quoting

/-!
# The texts of an export

The templates are cut into well-formed pieces, the lines of every key contain no placeholder, and
the baked dispatcher contains those of the rules it bakes.

## Main results

- `wellFormed_pieces`, `template_eq` — the templates as pieces, without carriage returns
- `inert_bashBindLines`, … — the lines of every key
- `free_generateCygwinDispatcher` — the placeholders of the dispatcher
-/

namespace Runex

open Placeholder Search

/-- The placeholders in the order they are replaced. -/
def placeholders : List Text := [
  "BASH_BIN".toList, "BASH_BIND_LINES".toList, "BASH_SELF_INSERT_LINES".toList,
  "BASH_CYG_DISPATCHER".toList, "ZSH_BIN".toList, "ZSH_BIND_LINES".toList,
  "ZSH_SELF_INSERT_LINES".toList, "CLINK_BIN".toList, "CLINK_BINDING".toList,
  "PWSH_BIN".toList, "PWSH_REGISTER_LINES".toList, "PWSH_SELF_INSERT_LINES".toList,
  "NU_BIN".toList, "NU_BINDINGS".toList, "NU_PASTE_BINDING".toList,
  "NU_SELF_INSERT_BINDINGS".toList]

theorem isName_placeholders : ∀ n ∈ placeholders, IsName n := by decide +kernel

def pieces : Shell → List Segment
  | .bash => bashPieces
  | .zsh => zshPieces
  | .pwsh => pwshPieces
  | .clink => clinkPieces
  | .nu => nuPieces

theorem template_eq_pieces (shell : Shell) :
    template shell = (pieces shell).flatMap (Segment.fill token) := by
  cases shell <;> rfl

-- Each text is taken apart into its lines, and each line is scanned on its own.
theorem wellFormed_templates : ∀ pieces ∈ [bashPieces, zshPieces, pwshPieces, clinkPieces, nuPieces,
    nuExpandBindingPieces, nuPasteBindingPieces], WellFormed (holes pieces) pieces := by
  simp only [List.forall_mem_cons, List.not_mem_nil, false_implies, implies_true, bashPieces,
    zshPieces, pwshPieces, clinkPieces, nuPieces, nuExpandBindingPieces, nuPasteBindingPieces,
    WellFormed, sealed_joinLines_cons, clear_joinLines_cons, joinLines_singleton, ne_eq,
    joinLines_ne_nil, not_false_eq_true, true_and, and_true, List.head?_cons, List.head?_nil,
    Option.some.injEq, reduceCtorEq]
  repeat' apply And.intro
  all_goals first
    | exact clear_of_freeScan (show freeScan none _ = true by
        rw [String.toList_ofList]; decide +kernel)
    | (rw [String.toList_ofList]; decide)

theorem wellFormed_pieces (shell : Shell) : WellFormed (holes (pieces shell)) (pieces shell) :=
  wellFormed_templates _ (by cases shell <;> simp [pieces])

theorem wellFormed_nuExpandBindingPieces :
    WellFormed (holes nuExpandBindingPieces) nuExpandBindingPieces :=
  wellFormed_templates _ (by simp)

theorem wellFormed_nuPasteBindingPieces :
    WellFormed (holes nuPasteBindingPieces) nuPasteBindingPieces :=
  wellFormed_templates _ (by simp)

theorem closed_nuExpandBinding : Closed nuExpandBinding := by
  simp only [nuExpandBinding, nuExpandBindingPieces, List.flatMap_cons, Segment.fill,
    List.flatMap_nil, List.append_nil]
  iterate 6 refine Closed.append_left (by simp [joinLines_ne_nil, token]) ?_
  exact closed_joinLines (by simp) rfl

theorem closed_nuPasteBinding : Closed nuPasteBinding := by
  simp only [nuPasteBinding, nuPasteBindingPieces, List.flatMap_cons, Segment.fill,
    List.flatMap_nil, List.append_nil]
  iterate 2 refine Closed.append_left (by simp [joinLines_ne_nil, token]) ?_
  exact closed_joinLines (by simp) rfl

theorem not_mem_joinLines_cons {c : Char} (hc : c ≠ '\n') (line next : String)
    (lines : List String) : c ∉ joinLines (line :: next :: lines) ↔
      c ∉ line.toList ∧ c ∉ joinLines (next :: lines) := by
  simp [joinLines_cons, hc]

theorem cr_not_mem_pieces (shell : Shell) :
    ∀ piece ∈ pieces shell, '\r' ∉ Segment.fill token piece := by
  cases shell
  all_goals
    simp only [pieces, bashPieces, zshPieces, pwshPieces, clinkPieces, nuPieces,
      List.forall_mem_cons, Segment.fill, not_mem_joinLines_cons (show '\r' ≠ '\n' by decide),
      joinLines_singleton, List.not_mem_nil, false_implies, implies_true, and_true]
    repeat' apply And.intro
    all_goals (rw [String.toList_ofList]; decide +kernel)

/-- Normalising the line ends changes nothing: the templates have none to normalise. -/
theorem template_eq (shell : Shell) :
    replaceAll ['\r', '\n'] ['\n'] (template shell) =
      (pieces shell).flatMap (Segment.fill token) := by
  rw [template_eq_pieces]
  refine replaceAll_of_absent fun hsub => ?_
  obtain ⟨piece, hpiece, hcr⟩ := List.mem_flatMap.mp (hsub.subset (List.mem_cons_self ..))
  exact cr_not_mem_pieces shell piece hpiece hcr

/-- A text that can be inserted for a placeholder and contains none. -/
def Inert (name value : Text) : Prop :=
  Sealed value ∧ freeScan none value = true ∧ Showing (name, value)

instance (name value : Text) : Decidable (Inert name value) := inferInstanceAs (Decidable (_ ∧ _))

theorem Inert.free {name value : Text} (h : Inert name value) {names : List Text}
    (hnames : ∀ n ∈ names, IsName n) : Free names value :=
  (clear_of_freeScan h.2.1).free hnames

theorem Inert.insertable {name value : Text} (h : Inert name value) {names : List Text}
    (hnames : ∀ n ∈ names, IsName n) : Insertable names value :=
  Or.inr ⟨h.1, h.free hnames⟩

def TriggerKey.choices : List (Option TriggerKey) :=
  [none, some .space, some .tab, some .altSpace, some .shiftSpace, some .ctrlV]

theorem TriggerKey.mem_choices (key : Option TriggerKey) : key ∈ choices := by
  cases key with
  | none => decide
  | some key => cases key <;> decide

theorem inert_bashBindLines : ∀ trigger ∈ TriggerKey.choices, ∀ lines ∈ bashBindLines trigger,
    Inert "BASH_BIND_LINES".toList lines := by decide +kernel

theorem inert_zshBindLines : ∀ trigger ∈ TriggerKey.choices, ∀ lines ∈ zshBindLines trigger,
    Inert "ZSH_BIND_LINES".toList lines := by decide +kernel

theorem inert_clinkBinding : ∀ trigger ∈ TriggerKey.choices, ∀ lines ∈ clinkBinding trigger,
    Inert "CLINK_BINDING".toList lines := by decide +kernel

theorem inert_pwshRegisterLines : ∀ trigger ∈ TriggerKey.choices,
    ∀ lines ∈ pwshRegisterLines trigger, Inert "PWSH_REGISTER_LINES".toList lines := by
  decide +kernel

theorem inert_selfInsertLines : ∀ selfInsert ∈ TriggerKey.choices,
    Inert "BASH_SELF_INSERT_LINES".toList (bashSelfInsertLines selfInsert) ∧
      Inert "ZSH_SELF_INSERT_LINES".toList (zshSelfInsertLines selfInsert) ∧
      Inert "PWSH_SELF_INSERT_LINES".toList (pwshSelfInsertLines selfInsert) ∧
      Inert "NU_SELF_INSERT_BINDINGS".toList (nuSelfInsertLines selfInsert) := by
  decide +kernel

theorem sealed_bashDoubleQuoteForAssoc (s : Text) : Sealed (bashDoubleQuoteForAssoc s) := by
  intro c hc
  have hlast : (bashDoubleQuoteForAssoc s).getLast? = some '"' := by
    simp [bashDoubleQuoteForAssoc, List.getLast?_cons]
  rw [hlast, Option.mem_some_iff] at hc
  subst hc
  decide

theorem plain_fieldSeparator : Plain fieldSeparator := by decide

theorem plain_indent : Plain "    ".toList := by decide

theorem sealed_tableLine (fields : List Text) : Sealed (tableLine fields) := by
  refine plain_indent.sealed.append (plain_fieldSeparator.sealed.intercalate fun s hs => ?_)
  obtain ⟨field, -, rfl⟩ := List.mem_map.mp hs
  exact sealed_bashDoubleQuoteForAssoc field

section Dispatcher

variable {names : List Text} (hnames : ∀ n ∈ names, IsName n)

include hnames

theorem free_tableLine (fields : List Text) :
    Free names (tableLine fields) ↔ ∀ s ∈ fields, Free names (kept bashDoubleQuoteChar s) := by
  have hfields : ∀ s ∈ fields.map bashDoubleQuoteForAssoc, Sealed s :=
    List.forall_mem_map.mpr fun s _ => sealed_bashDoubleQuoteForAssoc s
  rw [tableLine, free_append_iff hnames plain_indent.sealed,
    free_intercalate_iff hnames plain_fieldSeparator.sealed
      (plain_fieldSeparator.clear.free hnames) hfields, List.forall_mem_map]
  simp only [free_bashDoubleQuoteForAssoc hnames]
  exact and_iff_right (plain_indent.clear.free hnames)

theorem free_tableBlock (row : Abbr → Option (List Text)) (config : Config) :
    Free names (tableBlock (tableLines row config)) ↔
      ∀ fields ∈ config.abbr.filterMap row, ∀ s ∈ fields,
        Free names (kept bashDoubleQuoteChar s) := by
  have hbreak : Plain ['\n'] := by decide
  have hlines : ∀ lines, Free names (tableBlock lines) ↔ Free names lines := by
    intro lines
    unfold tableBlock
    split
    · next hempty => rw [hempty]
    · rw [← List.singleton_append, free_append_iff hnames hbreak.sealed,
        and_iff_right (hbreak.clear.free hnames)]
      refine forall₂_congr fun name _ => not_congr ?_
      exact token_infix_append_plain lines hbreak
  rw [hlines, tableLines, Text.join, free_intercalate_iff hnames hbreak.sealed
    (hbreak.clear.free hnames) (List.forall_mem_map.mpr fun fields _ => sealed_tableLine fields),
    List.forall_mem_map]
  simp only [free_tableLine hnames]

theorem free_of_freeScan {s : Text} (h : freeScan none s = true) : Free names s :=
  (clear_of_freeScan h).free hnames

end Dispatcher

theorem clear_dispatcherFunctions : Clear dispatcherFunctions := by
  refine clear_joinLines ?_
  simp only [isBlankFunction, renderFunction, condsMetFunction, lookupFunction,
    patternLookupFunction, byteLenFunction, globLookupFunction, isCommandPositionFunction,
    expandFunction, List.forall_mem_append, List.forall_mem_cons, List.not_mem_nil, false_implies,
    implies_true, and_true]
  repeat' apply And.intro
  all_goals
    exact clear_of_freeScan (show freeScan none _ = true by rw [String.toList_ofList]; decide +kernel)

theorem sealed_tableBlock (lines : Text) : Sealed (tableBlock lines) := by
  unfold tableBlock
  split
  · simp [Sealed]
  · rw [← List.cons_append]
    exact Sealed.append_singleton (by decide)

/-- The block contains the placeholders that the quoting kept of the baked texts. -/
theorem free_generateCygwinDispatcher {engine : RegexLite} {config : Config}
    (haccepted : Accepted engine config) {names : List Text} (hnames : ∀ n ∈ names, IsName n) :
    Free names (generateCygwinDispatcher config) ↔ ∀ rule ∈ config.abbr, ∀ s ∈ bakedTexts rule,
      Free names (kept bashDoubleQuoteChar s) := by
  have hblock : ∀ row, Sealed (tableBlock (tableLines row config)) := fun _ => sealed_tableBlock _
  have hrows : ∀ rule ∈ config.abbr, _ ↔ _ := fun rule hmem =>
    forall_rows_iff (haccepted.rule hmem) (P := fun s => Free names (kept bashDoubleQuoteChar s))
      fun s hs name _ hsub => hs (List.mem_of_mem_filter (hsub.subset (by simp [token])))
  unfold generateCygwinDispatcher exactTableLines patternTableLines globTableLines
  rw [free_append_iff hnames (by decide), free_append_iff hnames (hblock _),
    free_append_iff hnames (by decide), free_append_iff hnames (hblock _),
    free_append_iff hnames (by decide), free_append_iff hnames (hblock _),
    free_append_iff hnames (by decide), free_append_iff hnames (by decide +kernel),
    free_append_iff hnames (by decide), ← forall₂_congr hrows]
  simp only [free_tableBlock hnames, List.mem_filterMap, forall_exists_index, and_imp,
    free_of_freeScan hnames (s := "__runex_abbr_exact=(".toList) (by decide),
    free_of_freeScan hnames (s := ")\n__runex_abbr_patterns=(".toList) (by decide),
    free_of_freeScan hnames (s := ")\n__runex_abbr_globs=(".toList) (by decide),
    free_of_freeScan hnames (s := ")\n__runex_blank_multibyte=(".toList) (by decide),
    free_of_freeScan hnames (s := bashMultibyteBlankWords) (by decide +kernel),
    free_of_freeScan hnames (s := ")\n".toList) (by decide),
    clear_dispatcherFunctions.free hnames, true_and, and_true]
  constructor
  · rintro ⟨hexact, hpattern, hglob⟩ rule hmem
    exact ⟨fun fields => hexact fields rule hmem, fun fields => hpattern fields rule hmem,
      fun fields => hglob fields rule hmem⟩
  · intro h
    exact ⟨fun fields rule hmem => (h rule hmem).1 fields,
      fun fields rule hmem => (h rule hmem).2.1 fields,
      fun fields rule hmem => (h rule hmem).2.2 fields⟩

end Runex
