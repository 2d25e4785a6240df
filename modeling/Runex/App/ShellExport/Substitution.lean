import Runex.App.ShellExport.Texts

/-!
# Export as one substitution

`export_script` replaces sixteen placeholders one after the other. What it is meant to write is the
template with its own placeholders filled at once. The two differ exactly when an inserted text
contains a placeholder that is replaced later.

## Main definitions

- `ownSlots`, `substitutedScript` — the template filled at once
- `InsertsNoPlaceholder` — no inserted text contains a placeholder that is still to be replaced

## Main results

- `export_substitutes_at_once_iff` — when the export is one substitution
-/

namespace Runex

open Placeholder Search

-- ════════════════════════════════════════════════════════════════════════
-- What the script is meant to be
-- ════════════════════════════════════════════════════════════════════════

/-- The binding of the nu trigger key, filled at once. -/
def ownNuBindings (trigger : Option TriggerKey) (bin : Text) : Option Text :=
  match trigger with
  | none => some []
  | some trigger => do
    let modifier ← nuModifier trigger
    let keycode ← nuKeycode trigger
    some (fillAtOnce (nuBindingSlots bin modifier keycode) nuExpandBinding)

/-- The binding of the nu paste key, filled at once. -/
def ownNuPasteBinding (pasteIntercept : Option TriggerKey) (bin : Text) : Text :=
  match pasteIntercept with
  | some .ctrlV => fillAtOnce [("NU_BIN".toList, nuQuoteStringEmbedded bin)] nuPasteBinding
  | _ => []

/-- The placeholders of the template of a shell, each with its own value. -/
def ownSlots (shell : Shell) (bin : Text) (config : Option Config) :
    Option (List (Text × Text)) :=
  let trigger := triggerFor shell config
  let selfInsert := selfInsertFor shell config
  match shell with
  | .bash => do
    let lines ← bashBindLines trigger
    some [
      ("BASH_CYG_DISPATCHER".toList, (config.map generateCygwinDispatcher).getD []),
      ("BASH_BIN".toList, bashQuoteString bin),
      ("BASH_BIND_LINES".toList, lines),
      ("BASH_SELF_INSERT_LINES".toList, bashSelfInsertLines selfInsert)]
  | .zsh => do
    let lines ← zshBindLines trigger
    some [
      ("ZSH_BIN".toList, bashQuoteString bin),
      ("ZSH_BIND_LINES".toList, lines),
      ("ZSH_SELF_INSERT_LINES".toList, zshSelfInsertLines selfInsert)]
  | .pwsh => do
    let lines ← pwshRegisterLines trigger
    some [
      ("PWSH_BIN".toList, pwshQuoteString bin),
      ("PWSH_REGISTER_LINES".toList, lines),
      ("PWSH_SELF_INSERT_LINES".toList, pwshSelfInsertLines selfInsert)]
  | .clink => do
    let lines ← clinkBinding trigger
    some [
      ("CLINK_BIN".toList, luaQuoteString bin),
      ("CLINK_BINDING".toList, lines)]
  | .nu => do
    let bindings ← ownNuBindings trigger bin
    some [
      ("NU_BINDINGS".toList, bindings),
      ("NU_PASTE_BINDING".toList, ownNuPasteBinding (pasteInterceptFor .nu config) bin),
      ("NU_SELF_INSERT_BINDINGS".toList, nuSelfInsertLines selfInsert)]

/-- The template, its line ends normalised, with its own placeholders filled at once. -/
def substitutedScript (shell : Shell) (bin : Text) (config : Option Config) : Option Text :=
  (ownSlots shell bin config).map fun slots =>
    fillAtOnce slots (replaceAll ['\r', '\n'] ['\n'] (template shell))

-- ════════════════════════════════════════════════════════════════════════
-- When an inserted text contains a placeholder
-- ════════════════════════════════════════════════════════════════════════

/-- The placeholders replaced after this one. -/
def placeholdersAfter (name : Text) : List Text := after placeholders name

/-- What the shell's quoting keeps of `bin`, and of the rules where tables are baked, contains no
    placeholder that is replaced after the one it is inserted for. -/
def InsertsNoPlaceholder (shell : Shell) (bin : Text) (config : Config) : Prop :=
  match shell with
  | .bash =>
    Free (placeholdersAfter "BASH_BIN".toList) (kept bashQuoteStringChar bin) ∧
      ∀ rule ∈ config.abbr, ∀ s ∈ bakedTexts rule,
        Free (placeholdersAfter "BASH_CYG_DISPATCHER".toList) (kept bashDoubleQuoteChar s)
  | .zsh => Free (placeholdersAfter "ZSH_BIN".toList) (kept bashQuoteStringChar bin)
  | .pwsh => Free (placeholdersAfter "PWSH_BIN".toList) (kept pwshQuoteStringChar bin)
  | .clink => Free (placeholdersAfter "CLINK_BIN".toList) bin
  | .nu =>
    (triggerFor .nu (some config) ≠ none →
      Free ("NU_MODIFIER".toList :: "NU_KEYCODE".toList ::
        placeholdersAfter "NU_BINDINGS".toList) (kept nuQuoteChar bin)) ∧
      (pasteInterceptFor .nu (some config) = some .ctrlV →
        Free (placeholdersAfter "NU_PASTE_BINDING".toList) (kept nuQuoteChar bin))

-- ════════════════════════════════════════════════════════════════════════
-- The bindings of nu
-- ════════════════════════════════════════════════════════════════════════

theorem nuQuoteStringEmbedded_value (bin name : Text) :
    Closed (nuQuoteStringEmbedded bin) ∧ Showing (name, nuQuoteStringEmbedded bin) :=
  closed_showing_of_getLast? (c := '"') rfl
    (by simp [nuQuoteStringEmbedded_eq, List.getLast?_cons, List.getLast?_append]) name

section NuBinding

variable {key : TriggerKey} {bin modifier keycode : Text}

theorem holes_nuExpandBindingPieces : holes nuExpandBindingPieces =
    ["NU_MODIFIER".toList, "NU_KEYCODE".toList, "NU_BIN".toList] := rfl

theorem wellFormed_nuBindingSlots :
    WellFormed ((nuBindingSlots bin modifier keycode).map Prod.fst) nuExpandBindingPieces :=
  wellFormed_nuExpandBindingPieces.mono (show holes nuExpandBindingPieces ⊆
    ["NU_BIN".toList, "NU_MODIFIER".toList, "NU_KEYCODE".toList] by decide)

theorem inert_nuChord (hmodifier : nuModifier key = some modifier)
    (hkeycode : nuKeycode key = some keycode) :
    Inert "NU_MODIFIER".toList modifier ∧ Inert "NU_KEYCODE".toList keycode := by
  cases key <;>
    simp only [nuModifier, nuKeycode, Option.some.injEq, reduceCtorEq] at hmodifier hkeycode
  all_goals
    subst hmodifier hkeycode
    decide

variable (hmodifier : nuModifier key = some modifier) (hkeycode : nuKeycode key = some keycode)

include hmodifier hkeycode

theorem replaceable_nuBindingSlots : Replaceable (nuBindingSlots bin modifier keycode) := by
  obtain ⟨hm, hk⟩ := inert_nuChord hmodifier hkeycode
  have hnames : ∀ n ∈ (nuBindingSlots bin modifier keycode).map Prod.fst, IsName n :=
    show ∀ n ∈ ["NU_BIN".toList, "NU_MODIFIER".toList, "NU_KEYCODE".toList], IsName n by decide
  refine ⟨fun slot hslot => hnames _ (List.mem_map_of_mem hslot), ?_, ?_⟩
  · simp only [nuBindingSlots, List.forall_mem_cons, List.not_mem_nil, false_implies, implies_true,
      and_true]
    exact ⟨Or.inl (nuQuoteStringEmbedded_value bin []).1, hm.insertable hnames, hk.insertable hnames⟩
  · simp only [nuBindingSlots, List.forall_mem_cons, List.not_mem_nil, false_implies, implies_true,
      and_true]
    exact ⟨(nuQuoteStringEmbedded_value bin _).2, hm.2.2, hk.2.2⟩

/-- The chain over the fragment is one substitution when the path contains no later placeholder
    of it. -/
theorem nuBinding_eq_iff :
    replaceEach (nuBindingSlots bin modifier keycode) nuExpandBinding =
        fillAtOnce (nuBindingSlots bin modifier keycode) nuExpandBinding ↔
      Free ["NU_MODIFIER".toList, "NU_KEYCODE".toList] (kept nuQuoteChar bin) := by
  obtain ⟨hm, -⟩ := inert_nuChord hmodifier hkeycode
  rw [nuExpandBinding, replaceEach_eq_fillAtOnce_iff (replaceable_nuBindingSlots hmodifier hkeycode)
    wellFormed_nuBindingSlots, holes_nuExpandBindingPieces,
    ← free_nuQuoteStringEmbedded (by decide) bin]
  constructor
  · intro h
    exact h "NU_BIN".toList (by decide)
  · intro h
    simp only [List.forall_mem_cons, List.not_mem_nil, false_implies, implies_true, and_true]
    exact ⟨hm.free (show ∀ n ∈ ["NU_KEYCODE".toList], IsName n by decide), free_nil keycode, h⟩

/-- Filled at once, the fragment contains the placeholders that the quoting kept of the path. -/
theorem free_nuBinding_iff {names : List Text} (hfree : ∀ n ∈ names, IsName n) :
    Free names (fillAtOnce (nuBindingSlots bin modifier keycode) nuExpandBinding) ↔
      Free names (kept nuQuoteChar bin) := by
  obtain ⟨hm, hk⟩ := inert_nuChord hmodifier hkeycode
  rw [nuExpandBinding, free_fillAtOnce_iff (replaceable_nuBindingSlots hmodifier hkeycode).named
    hfree wellFormed_nuBindingSlots, holes_nuExpandBindingPieces,
    ← free_nuQuoteStringEmbedded hfree bin]
  · simp only [List.forall_mem_cons, List.not_mem_nil, false_implies, implies_true, and_true]
    exact ⟨fun h => h.2.2, fun h => ⟨hm.free hfree, hk.free hfree, h⟩⟩
  · rw [holes_nuExpandBindingPieces]
    simp only [List.forall_mem_cons, List.not_mem_nil, false_implies, implies_true, and_true]
    exact ⟨hm.1, hk.1, (nuQuoteStringEmbedded_value bin []).1.sealed⟩

end NuBinding

section NuPasteBinding

theorem holes_nuPasteBindingPieces : holes nuPasteBindingPieces = ["NU_BIN".toList] := rfl

variable (bin : Text)

theorem replaceable_nuPasteSlots :
    Replaceable [("NU_BIN".toList, nuQuoteStringEmbedded bin)] := by
  refine ⟨?_, ?_, ?_⟩ <;>
    simp only [Named, List.mem_singleton, forall_eq]
  · decide
  · exact Or.inl (nuQuoteStringEmbedded_value bin []).1
  · exact (nuQuoteStringEmbedded_value bin _).2

/-- The paste fragment has one placeholder, so replacing it is one substitution. -/
theorem nuPasteBinding_eq :
    replaceEach [("NU_BIN".toList, nuQuoteStringEmbedded bin)] nuPasteBinding =
      fillAtOnce [("NU_BIN".toList, nuQuoteStringEmbedded bin)] nuPasteBinding := by
  rw [nuPasteBinding, replaceEach_eq_fillAtOnce_iff (replaceable_nuPasteSlots bin)
    wellFormed_nuPasteBindingPieces, holes_nuPasteBindingPieces]
  simp only [List.mem_singleton, forall_eq]
  exact free_nil (nuQuoteStringEmbedded bin)

theorem free_nuPasteBinding_iff {names : List Text} (hfree : ∀ n ∈ names, IsName n) :
    Free names (fillAtOnce [("NU_BIN".toList, nuQuoteStringEmbedded bin)] nuPasteBinding) ↔
      Free names (kept nuQuoteChar bin) := by
  rw [nuPasteBinding, free_fillAtOnce_iff (replaceable_nuPasteSlots bin).named hfree
    wellFormed_nuPasteBindingPieces, holes_nuPasteBindingPieces,
    ← free_nuQuoteStringEmbedded hfree bin]
  · simp only [List.mem_singleton, forall_eq]
    exact Iff.rfl
  · rw [holes_nuPasteBindingPieces]
    simp only [List.mem_singleton, forall_eq]
    exact (nuQuoteStringEmbedded_value bin []).1.sealed

end NuPasteBinding

-- ════════════════════════════════════════════════════════════════════════
-- The slots of the whole chain
-- ════════════════════════════════════════════════════════════════════════

/-- The value of `NU_BINDINGS` can be inserted and shows. -/
theorem nuBindings_value {trigger : Option TriggerKey} {bin value : Text}
    (h : nuBindings trigger bin = some value) :
    Closed value ∧ Showing ("NU_BINDINGS".toList, value) := by
  cases trigger with
  | none =>
    obtain rfl := Option.some.inj h
    decide
  | some key =>
    simp only [nuBindings, Option.bind_eq_bind, Option.bind_eq_some_iff, Option.some.injEq] at h
    obtain ⟨modifier, hmodifier, keycode, hkeycode, rfl⟩ := h
    refine ⟨closed_nuExpandBinding.replaceEach, Or.inl ?_⟩
    exact countP_replaceEach_pos (replaceable_nuBindingSlots hmodifier hkeycode)
      wellFormed_nuBindingSlots "NU_BIN".toList
      (by rw [holes_nuExpandBindingPieces]; decide) (c := '"') rfl
      (show '"' ∈ nuQuoteStringEmbedded bin by simp [nuQuoteStringEmbedded_eq])

theorem nuPasteBindingText_value (pasteIntercept : Option TriggerKey) (bin : Text) :
    Closed (nuPasteBindingText pasteIntercept bin) ∧
      Showing ("NU_PASTE_BINDING".toList, nuPasteBindingText pasteIntercept bin) := by
  unfold nuPasteBindingText
  split
  · refine ⟨closed_nuPasteBinding.replaceEach, Or.inl ?_⟩
    exact countP_replaceEach_pos (replaceable_nuPasteSlots bin) wellFormed_nuPasteBindingPieces
      "NU_BIN".toList (by rw [holes_nuPasteBindingPieces]; decide) (c := '"') rfl
      (show '"' ∈ nuQuoteStringEmbedded bin by simp [nuQuoteStringEmbedded_eq])
  · decide

theorem quoted_values (bin name : Text) :
    (Closed (bashQuoteString bin) ∧ Showing (name, bashQuoteString bin)) ∧
      (Closed (luaQuoteString bin) ∧ Showing (name, luaQuoteString bin)) ∧
      (Closed (pwshQuoteString bin) ∧ Showing (name, pwshQuoteString bin)) ∧
      (Closed (nuQuoteString bin) ∧ Showing (name, nuQuoteString bin)) := by
  refine ⟨closed_showing_of_getLast? (c := '\'') rfl ?_ name,
    closed_showing_of_getLast? (c := '"') rfl ?_ name,
    closed_showing_of_getLast? (c := '\'') rfl ?_ name,
    closed_showing_of_getLast? (c := '"') rfl ?_ name⟩ <;>
  simp [bashQuoteString, luaQuoteString, pwshQuoteString, nuQuoteString, List.getLast?_cons]

theorem generateCygwinDispatcher_value (config : Config) :
    Closed (generateCygwinDispatcher config) ∧
      Showing ("BASH_CYG_DISPATCHER".toList, generateCygwinDispatcher config) := by
  have hclosed : Closed dispatcherFunctions := closed_joinLines (by simp) rfl
  have hne : dispatcherFunctions ≠ [] := joinLines_ne_nil _ _ _
  have hmark : '"' ∈ bashMultibyteBlankWords := by decide +kernel
  refine ⟨?_, showing_of_mem (c := '"') rfl ?_⟩
  · unfold generateCygwinDispatcher
    iterate 9 refine Closed.append_left (by simp [hne]) ?_
    exact hclosed
  · change '"' ∈ generateCygwinDispatcher config
    unfold generateCygwinDispatcher
    iterate 7 refine List.mem_append_right _ ?_
    exact List.mem_append_left _ hmark

theorem Inert.value {name value : Text} (h : Inert name value) :
    Insertable placeholders value ∧ Showing (name, value) :=
  ⟨h.insertable isName_placeholders, h.2.2⟩

theorem insertable_of_closed {name value : Text} (h : Closed value ∧ Showing (name, value)) :
    Insertable placeholders value ∧ Showing (name, value) :=
  h.imp_left Or.inl

theorem replaceable_of_values {slots : List (Text × Text)} (h : slots.map Prod.fst = placeholders)
    (hvalues : ∀ slot ∈ slots, Insertable placeholders slot.2 ∧ Showing slot) :
    Replaceable slots where
  named _ hslot := isName_placeholders _ (h ▸ List.mem_map_of_mem hslot)
  insertable slot hslot := h ▸ (hvalues slot hslot).1
  showing slot hslot := (hvalues slot hslot).2

/-- The chain replaces the placeholders in their order, with values that can be inserted and
    show. -/
theorem replaceable_exportSlots {shell : Shell} {bin : Text} {config : Config}
    {slots : List (Text × Text)} (h : exportSlots shell bin (some config) = some slots) :
    slots.map Prod.fst = placeholders ∧ Replaceable slots := by
  simp only [exportSlots, Option.bind_eq_bind, Option.bind_eq_some_iff, Option.some.injEq] at h
  obtain ⟨bashLines, hbash, zshLines, hzsh, clinkLines, hclink, pwshLines, hpwsh, nuLines, hnu,
    rfl⟩ := h
  have htrigger := TriggerKey.mem_choices (triggerFor shell (some config))
  obtain ⟨hbashSelf, hzshSelf, hpwshSelf, hnuSelf⟩ := inert_selfInsertLines _
    (TriggerKey.mem_choices (selfInsertFor shell (some config)))
  have hquoted := quoted_values bin
  refine ⟨rfl, replaceable_of_values rfl ?_⟩
  simp only [List.forall_mem_cons, List.not_mem_nil, false_implies, implies_true, and_true]
  exact ⟨insertable_of_closed (hquoted _).1,
    (inert_bashBindLines _ htrigger _ hbash).value,
    hbashSelf.value,
    insertable_of_closed (generateCygwinDispatcher_value config),
    insertable_of_closed (hquoted _).1,
    (inert_zshBindLines _ htrigger _ hzsh).value,
    hzshSelf.value,
    insertable_of_closed (hquoted _).2.1,
    (inert_clinkBinding _ htrigger _ hclink).value,
    insertable_of_closed (hquoted _).2.2.1,
    (inert_pwshRegisterLines _ htrigger _ hpwsh).value,
    hpwshSelf.value,
    insertable_of_closed (hquoted _).2.2.2,
    insertable_of_closed (nuBindings_value hnu),
    insertable_of_closed (nuPasteBindingText_value _ bin),
    hnuSelf.value⟩

-- ════════════════════════════════════════════════════════════════════════
-- Export as one substitution
-- ════════════════════════════════════════════════════════════════════════

theorem isName_placeholdersAfter (name : Text) : ∀ n ∈ placeholdersAfter name, IsName n := by
  intro n hn
  refine isName_placeholders n ((?_ : (after placeholders name).Sublist placeholders).subset hn)
  exact after_sublist placeholders name

/-- The values of the chain that a template uses. -/
structure ExportValues (shell : Shell) (bin : Text) (config : Config)
    (slots : List (Text × Text)) : Prop where
  bashBin : valueOf slots "BASH_BIN".toList = bashQuoteString bin
  bashBindLines : bashBindLines (triggerFor shell (some config)) =
    some (valueOf slots "BASH_BIND_LINES".toList)
  bashSelfInsertLines : valueOf slots "BASH_SELF_INSERT_LINES".toList =
    bashSelfInsertLines (selfInsertFor shell (some config))
  dispatcher : valueOf slots "BASH_CYG_DISPATCHER".toList = generateCygwinDispatcher config
  zshBin : valueOf slots "ZSH_BIN".toList = bashQuoteString bin
  zshBindLines : zshBindLines (triggerFor shell (some config)) =
    some (valueOf slots "ZSH_BIND_LINES".toList)
  zshSelfInsertLines : valueOf slots "ZSH_SELF_INSERT_LINES".toList =
    zshSelfInsertLines (selfInsertFor shell (some config))
  clinkBin : valueOf slots "CLINK_BIN".toList = luaQuoteString bin
  clinkBinding : clinkBinding (triggerFor shell (some config)) =
    some (valueOf slots "CLINK_BINDING".toList)
  pwshBin : valueOf slots "PWSH_BIN".toList = pwshQuoteString bin
  pwshRegisterLines : pwshRegisterLines (triggerFor shell (some config)) =
    some (valueOf slots "PWSH_REGISTER_LINES".toList)
  pwshSelfInsertLines : valueOf slots "PWSH_SELF_INSERT_LINES".toList =
    pwshSelfInsertLines (selfInsertFor shell (some config))
  nuBindings : nuBindings (triggerFor shell (some config)) bin =
    some (valueOf slots "NU_BINDINGS".toList)
  nuPasteBinding : valueOf slots "NU_PASTE_BINDING".toList =
    nuPasteBindingText (pasteInterceptFor shell (some config)) bin
  nuSelfInsertLines : valueOf slots "NU_SELF_INSERT_BINDINGS".toList =
    nuSelfInsertLines (selfInsertFor shell (some config))

theorem exportValues {shell : Shell} {bin : Text} {config : Config} {slots : List (Text × Text)}
    (h : exportSlots shell bin (some config) = some slots) :
    ExportValues shell bin config slots := by
  simp only [exportSlots, Option.bind_eq_bind, Option.bind_eq_some_iff, Option.some.injEq] at h
  obtain ⟨bashLines, hbash, zshLines, hzsh, clinkLines, hclink, pwshLines, hpwsh, nuLines, hnu,
    rfl⟩ := h
  constructor
  all_goals
    simp only [valueOf_cons, String.toList_inj, String.reduceEq, if_true, if_false, hbash, hzsh,
      hclink, hpwsh, hnu, Option.map_some, Option.getD_some]

/-- Filling the template of a shell in turn and at once, placeholder by placeholder. -/
theorem exported_eq_substituted_iff {shell : Shell} {bin : Text} {config : Config}
    {slots own : List (Text × Text)} (hslots : exportSlots shell bin (some config) = some slots)
    (hown : ownSlots shell bin (some config) = some own)
    (hnames : own.map Prod.fst = holes (pieces shell))
    (hvalues : ∀ slot ∈ own, slot.2 = valueOf slots slot.1 ∨ Grows slot.2 (valueOf slots slot.1)) :
    (exportScript shell bin (some config) = substitutedScript shell bin (some config)) ↔
      ∀ slot ∈ own, slot.2 = valueOf slots slot.1 ∧ Free (placeholdersAfter slot.1) slot.2 := by
  obtain ⟨hchain, hreplaceable⟩ := replaceable_exportSlots hslots
  have hnodup : (own.map Prod.fst).Nodup := by
    rw [hnames]
    cases shell <;> decide +kernel
  have hsub : holes (pieces shell) ⊆ slots.map Prod.fst := by
    rw [hchain]
    cases shell <;> decide +kernel
  rw [exportScript, substitutedScript, hslots, hown, Option.map_some, Option.map_some,
    Option.some.injEq, template_eq, fillAtOnce, hnames,
    replaceEach_eq_substituteAll_iff hreplaceable hsub (wellFormed_pieces shell), hchain, ← hnames,
    List.forall_mem_map]
  · refine forall₂_congr fun slot hslot => ?_
    rw [valueOf_of_mem hnodup hslot]
    rfl
  · rw [← hnames, List.forall_mem_map]
    intro slot hslot
    rw [valueOf_of_mem hnodup hslot]
    exact hvalues slot hslot

section Shells

variable {engine : RegexLite} {config : Config} {bin : Text} {slots : List (Text × Text)}

theorem substituted_bash (haccepted : Accepted engine config)
    (h : exportSlots .bash bin (some config) = some slots) :
    exportScript .bash bin (some config) = substitutedScript .bash bin (some config) ↔
      InsertsNoPlaceholder .bash bin config := by
  have hvalues := exportValues h
  have hnames := isName_placeholdersAfter
  have hlines := inert_bashBindLines _ (TriggerKey.mem_choices _) _ hvalues.bashBindLines
  have hself := (inert_selfInsertLines (selfInsertFor .bash (some config))
    (TriggerKey.mem_choices _)).1
  rw [exported_eq_substituted_iff h (by rw [ownSlots, hvalues.bashBindLines]; rfl) rfl]
  · simp only [List.forall_mem_cons, hvalues.bashBin, hvalues.bashSelfInsertLines,
      hvalues.dispatcher, Option.map_some, Option.getD_some, true_and,
      free_bashQuoteString (hnames _), free_generateCygwinDispatcher haccepted (hnames _),
      hlines.free (hnames _), hself.free (hnames _), List.not_mem_nil, false_implies, implies_true,
      and_true]
    exact and_comm
  · simp only [List.forall_mem_cons, hvalues.bashBin, hvalues.bashSelfInsertLines,
      hvalues.dispatcher, Option.map_some, Option.getD_some, true_or, List.not_mem_nil,
      false_implies, implies_true, and_true]

theorem substituted_zsh (h : exportSlots .zsh bin (some config) = some slots) :
    exportScript .zsh bin (some config) = substitutedScript .zsh bin (some config) ↔
      InsertsNoPlaceholder .zsh bin config := by
  have hvalues := exportValues h
  have hnames := isName_placeholdersAfter
  have hlines := inert_zshBindLines _ (TriggerKey.mem_choices _) _ hvalues.zshBindLines
  have hself := (inert_selfInsertLines (selfInsertFor .zsh (some config))
    (TriggerKey.mem_choices _)).2.1
  rw [exported_eq_substituted_iff h (by rw [ownSlots, hvalues.zshBindLines]; rfl) rfl]
  · simp only [List.forall_mem_cons, hvalues.zshBin, hvalues.zshSelfInsertLines, true_and,
      free_bashQuoteString (hnames _), hlines.free (hnames _), hself.free (hnames _),
      List.not_mem_nil, false_implies, implies_true, and_true]
    rfl
  · simp only [List.forall_mem_cons, hvalues.zshBin, hvalues.zshSelfInsertLines, true_or,
      List.not_mem_nil, false_implies, implies_true, and_true]

theorem substituted_pwsh (h : exportSlots .pwsh bin (some config) = some slots) :
    exportScript .pwsh bin (some config) = substitutedScript .pwsh bin (some config) ↔
      InsertsNoPlaceholder .pwsh bin config := by
  have hvalues := exportValues h
  have hnames := isName_placeholdersAfter
  have hlines := inert_pwshRegisterLines _ (TriggerKey.mem_choices _) _ hvalues.pwshRegisterLines
  have hself := (inert_selfInsertLines (selfInsertFor .pwsh (some config))
    (TriggerKey.mem_choices _)).2.2.1
  rw [exported_eq_substituted_iff h (by rw [ownSlots, hvalues.pwshRegisterLines]; rfl) rfl]
  · simp only [List.forall_mem_cons, hvalues.pwshBin, hvalues.pwshSelfInsertLines, true_and,
      free_pwshQuoteString (hnames _), hlines.free (hnames _), hself.free (hnames _),
      List.not_mem_nil, false_implies, implies_true, and_true]
    rfl
  · simp only [List.forall_mem_cons, hvalues.pwshBin, hvalues.pwshSelfInsertLines, true_or,
      List.not_mem_nil, false_implies, implies_true, and_true]

theorem substituted_clink (h : exportSlots .clink bin (some config) = some slots) :
    exportScript .clink bin (some config) = substitutedScript .clink bin (some config) ↔
      InsertsNoPlaceholder .clink bin config := by
  have hvalues := exportValues h
  have hnames := isName_placeholdersAfter
  have hlines := inert_clinkBinding _ (TriggerKey.mem_choices _) _ hvalues.clinkBinding
  rw [exported_eq_substituted_iff h (by rw [ownSlots, hvalues.clinkBinding]; rfl) rfl]
  · simp only [List.forall_mem_cons, hvalues.clinkBin, true_and, free_luaQuoteString (hnames _),
      hlines.free (hnames _), List.not_mem_nil, false_implies, implies_true, and_true]
    rfl
  · simp only [List.forall_mem_cons, hvalues.clinkBin, true_or, List.not_mem_nil, false_implies,
      implies_true, and_true]

/-- The value that is intended for `NU_BINDINGS` is the one of the chain, or grows into it; it is
    the one of the chain and contains no later placeholder when the path contains none. -/
theorem nuBindings_intended {trigger : Option TriggerKey} {value : Text}
    (h : nuBindings trigger bin = some value) :
    ∃ intended, ownNuBindings trigger bin = some intended ∧
      (intended = value ∨ Grows intended value) ∧
      ((intended = value ∧ Free (placeholdersAfter "NU_BINDINGS".toList) intended) ↔
        (trigger ≠ none → Free ("NU_MODIFIER".toList :: "NU_KEYCODE".toList ::
          placeholdersAfter "NU_BINDINGS".toList) (kept nuQuoteChar bin))) := by
  cases trigger with
  | none =>
    obtain rfl := Option.some.inj h
    have hempty : Free (placeholdersAfter "NU_BINDINGS".toList) [] := by decide
    exact ⟨[], rfl, Or.inl rfl, iff_of_true ⟨rfl, hempty⟩ fun hne => absurd rfl hne⟩
  | some key =>
    simp only [nuBindings, Option.bind_eq_bind, Option.bind_eq_some_iff, Option.some.injEq] at h
    obtain ⟨modifier, hmodifier, keycode, hkeycode, rfl⟩ := h
    refine ⟨fillAtOnce (nuBindingSlots bin modifier keycode) nuExpandBinding, ?_, ?_, ?_⟩
    · simp [ownNuBindings, hmodifier, hkeycode]
    · exact fillAtOnce_eq_or_grows (replaceable_nuBindingSlots hmodifier hkeycode)
        wellFormed_nuBindingSlots
    · rw [eq_comm, nuBinding_eq_iff hmodifier hkeycode,
        free_nuBinding_iff hmodifier hkeycode (isName_placeholdersAfter _), ← free_append_names]
      simp

theorem ownNuPasteBinding_eq (pasteIntercept : Option TriggerKey) (bin : Text) :
    ownNuPasteBinding pasteIntercept bin = nuPasteBindingText pasteIntercept bin := by
  unfold ownNuPasteBinding
  split
  · exact (nuPasteBinding_eq bin).symm
  · next hother => rw [nuPasteBindingText]; exact hother

theorem free_ownNuPasteBinding (pasteIntercept : Option TriggerKey) (bin : Text) :
    Free (placeholdersAfter "NU_PASTE_BINDING".toList) (ownNuPasteBinding pasteIntercept bin) ↔
      (pasteIntercept = some .ctrlV →
        Free (placeholdersAfter "NU_PASTE_BINDING".toList) (kept nuQuoteChar bin)) := by
  unfold ownNuPasteBinding
  split
  · rw [free_nuPasteBinding_iff bin (isName_placeholdersAfter _)]
    exact ⟨fun h _ => h, fun h => h rfl⟩
  · next hother =>
    have hempty : Free (placeholdersAfter "NU_PASTE_BINDING".toList) [] := by decide
    exact iff_of_true hempty fun hctrlV => absurd hctrlV hother

theorem substituted_nu (h : exportSlots .nu bin (some config) = some slots) :
    exportScript .nu bin (some config) = substitutedScript .nu bin (some config) ↔
      InsertsNoPlaceholder .nu bin config := by
  have hvalues := exportValues h
  have hnames := isName_placeholdersAfter
  have hself := (inert_selfInsertLines (selfInsertFor .nu (some config))
    (TriggerKey.mem_choices _)).2.2.2
  obtain ⟨intended, hintended, hgrows, hiff⟩ := nuBindings_intended hvalues.nuBindings
  have hpaste := ownNuPasteBinding_eq (pasteInterceptFor .nu (some config)) bin
  rw [exported_eq_substituted_iff h (by rw [ownSlots, hintended]; rfl) rfl]
  · simp only [List.forall_mem_cons, hvalues.nuPasteBinding, hvalues.nuSelfInsertLines, hiff,
      free_ownNuPasteBinding, hself.free (hnames _), List.not_mem_nil, false_implies, implies_true,
      and_true]
    simp only [hpaste, true_and]
    rfl
  · simp only [List.forall_mem_cons, hvalues.nuPasteBinding, hvalues.nuSelfInsertLines, hpaste,
      hgrows, true_or, List.not_mem_nil, false_implies, implies_true, and_true]

end Shells

/-- For every shell, path and accepted configuration for which the export returns, the script is
    the template with its own placeholders filled at once exactly when no inserted text contains a
    placeholder that is replaced later. -/
theorem export_substitutes_at_once_iff (engine : RegexLite) (config : Config)
    (haccepted : Accepted engine config) (shell : Shell) (bin script : Text)
    (h : exportScript shell bin (some config) = some script) :
    some script = substitutedScript shell bin (some config) ↔
      InsertsNoPlaceholder shell bin config := by
  obtain ⟨slots, hslots, -⟩ := Option.map_eq_some_iff.mp h
  rw [← h]
  cases shell with
  | bash => exact substituted_bash haccepted hslots
  | zsh => exact substituted_zsh hslots
  | pwsh => exact substituted_pwsh hslots
  | clink => exact substituted_clink hslots
  | nu => exact substituted_nu hslots

/-- A rule whose expansion names the placeholder of the nu path. -/
def nuBinConfig : Config where
  version := 1
  abbr := [{ key := "x".toList, expand := .all "echo \x7bNU_BIN\x7d".toList }]

theorem nuBinConfig_accepted : Accepted default nuBinConfig :=
  accepted_iff.mpr ⟨rfl, by decide, by decide +kernel⟩

/-- Zsh carries no rule, so exporting the same configuration for it is one substitution. -/
theorem export_substitutes_at_once_zsh :
    ∃ script, exportScript .zsh "runex".toList (some nuBinConfig) = some script ∧
      some script = substitutedScript .zsh "runex".toList (some nuBinConfig) := by
  have hfree : Free (placeholdersAfter "ZSH_BIN".toList)
      (kept bashQuoteStringChar "runex".toList) := by
    decide
  exact ⟨_, rfl, (export_substitutes_at_once_iff default nuBinConfig nuBinConfig_accepted .zsh
    "runex".toList _ rfl).mpr hfree⟩

/-- The Bash export puts the quoted nu path into the baked table, inside the double quotes of the
    expansion. -/
theorem export_rescans_tables :
    ¬ ∀ (engine : RegexLite) (config : Config), Accepted engine config →
      ∀ (shell : Shell) (bin script : Text), exportScript shell bin (some config) = some script →
        some script = substitutedScript shell bin (some config) := by
  intro h
  obtain ⟨slots, hslots⟩ : ∃ slots, exportSlots .bash "runex".toList (some nuBinConfig) =
    some slots := ⟨_, rfl⟩
  obtain ⟨script, hscript⟩ : ∃ script, exportScript .bash "runex".toList (some nuBinConfig) =
    some script := ⟨_, rfl⟩
  have hsubstituted := h default nuBinConfig nuBinConfig_accepted .bash "runex".toList _ hscript
  rw [← hscript, substituted_bash nuBinConfig_accepted hslots] at hsubstituted
  have htables := hsubstituted.2 _ (List.mem_singleton_self _) "echo \x7bNU_BIN\x7d".toList
    (by decide +kernel)
  exact absurd htables (by decide +kernel)

end Runex
