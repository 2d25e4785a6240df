import Runex.App.BashStaticDispatcher.ExecPath
import Runex.App.Hook.Cursors
import Runex.Cmd.Hook.Widgets
import Runex.Domain.Expand.Provenance

/-!
# A session at the prompt

A buffer with a caret is edited by the user and by the trigger key, in any order. What a shell holds
after such a session, with the program run by its key handler and the output evaluated, is the
buffer and caret that the trigger key is meant to leave: the token before the caret replaced by its
expansion, or a space.

## Main definitions

- `Zipper` — the text on both sides of the caret
- `Press` — what a trigger key finds in the world
- `Press.edit` — what it is meant to leave
- `Event`, `runShell`, `runEditor` — a session, in the shell and as it is meant

## Main results

- `triggerKey_edit` — one trigger key
- `session_refines` — a whole session
- `session_characters` — which characters a session brings into the buffer
-/

namespace Runex

open Search
open Text (byteLen utf16Len isAsciiControl)

/-- The text on both sides of the caret. -/
@[ext]
structure Zipper where
  before : Text
  after : Text
  deriving DecidableEq

namespace Zipper

def text (z : Zipper) : Text := z.before ++ z.after

/-- The shell hands its buffer over as an argument, which holds no NUL. -/
def Fits (shell : Shell) (z : Zipper) : Prop :=
  shell = .bash ∨ shell = .zsh ∨ shell = .nu → '\x00' ∉ z.text

def space (z : Zipper) : Zipper := ⟨z.before ++ [' '], z.after⟩

/-- The text before the last space-delimited token before the caret, and the token. -/
def lastToken (z : Zipper) : Text × Text :=
  match splitLast ' ' z.before with
  | some (pre, token) => (pre ++ [' '], token)
  | none => ([], z.before)

/-- The token replaced by a text. The caret goes to its place in the text, or after a space. -/
def replace (z : Zipper) (text : Text) (cursor : Option ℕ) : Zipper :=
  match cursor with
  | none => ⟨z.lastToken.1 ++ (text ++ [' ']), z.after⟩
  | some off =>
    match Text.splitAt? text off with
    | some (left, right) => ⟨z.lastToken.1 ++ left, right ++ z.after⟩
    | none => z.space

theorem lastToken_spec (z : Zipper) :
    z.before = z.lastToken.1 ++ z.lastToken.2 ∧ ' ' ∉ z.lastToken.2 ∧
      (z.lastToken.1 = [] ∨ [' '] <:+ z.lastToken.1) := by
  rw [lastToken]
  cases hsplit : splitLast ' ' z.before with
  | none => exact ⟨rfl, splitLast_eq_none.mp hsplit, Or.inl rfl⟩
  | some parts =>
    obtain ⟨hbefore, htoken⟩ := splitLast_eq_some.mp hsplit
    exact ⟨by simp [hbefore], htoken, Or.inr (List.suffix_append parts.1 [' '])⟩

end Zipper

/-- What a trigger key finds: the configuration if one loads, the commands that exist, whether keys
    are queued behind it, and whether the program can be started. -/
structure Press (engine : RegexLite) where
  config : Option {config : Config // Accepted engine config}
  commandExists : Text → Bool
  keysQueued : Bool
  started : Bool

variable {engine : RegexLite}

namespace Press

/-- PowerShell tells the program when keys are queued. -/
def pastePending (press : Press engine) (shell : Shell) : Bool := shell == .pwsh && press.keysQueued

def loaded (press : Press engine) : Option Config := press.config.map Subtype.val

/-- The program, run for a shell with a line as text or as hex, and a caret. -/
def runHook (press : Press engine) (toJson : Text → Text) (shell : Shell)
    (line lineHex : Option Text) (cursor : ℕ) : Ran :=
  if press.started then
    match resolveLine line lineHex with
    | .error _ => .failed
    | .ok line =>
      match handle engine toJson shell line cursor (press.pastePending shell) press.loaded
        press.commandExists with
      | none => .failed
      | some out => .printed (out ++ ['\n'])
  else .notStarted

-- ════════════════════════════════════════════════════════════════════════
-- What is meant
-- ════════════════════════════════════════════════════════════════════════

/-- The expansion of the token at the caret, where the trigger key is to expand one. -/
def expansion (press : Press engine) (shell : Shell) (z : Zipper) : Option (Text × Option ℕ) :=
  match press.loaded with
  | none => none
  | some config =>
    if press.pastePending shell = false ∧ byteLen z.text ≤ maxHookLineBytes ∧
        AtExpandableToken z.lastToken.1 z.lastToken.2 z.after then
      match Runex.expand engine config z.lastToken.2 shell press.commandExists with
      | .expanded text cursor => some (text, cursor)
      | .passThrough _ => none
    else none

/-- The token expanded, or a space. -/
def intended (press : Press engine) (shell : Shell) (z : Zipper) : Zipper :=
  match press.expansion shell z with
  | none => z.space
  | some (text, cursor) => z.replace text cursor

/-- The buffer after the trigger key. A program that does not start costs a space, and in nu
    nothing; clink puts a space where it does not call the program or the buffer would stay as it
    is. -/
def edit (press : Press engine) (bin : Text) (shell : Shell) (z : Zipper) : Zipper :=
  if press.started then
    if shell = .clink ∧ (clinkCalls bin z.text z.before.length = false ∨
        (press.intended shell z).text = z.text) then z.space
    else press.intended shell z
  else if shell = .nu then z else z.space

-- ════════════════════════════════════════════════════════════════════════
-- What the program prints
-- ════════════════════════════════════════════════════════════════════════

theorem expansion_eq_some {press : Press engine} {shell : Shell} {z : Zipper} {text : Text}
    {cursor : Option ℕ} :
    press.expansion shell z = some (text, cursor) ↔
      ExpandsTo engine shell z.text (press.pastePending shell) press.loaded press.commandExists
        z.lastToken.1 z.lastToken.2 z.after text cursor := by
  rw [expansion, ExpandsTo]
  cases press.loaded with
  | none => simp
  | some config =>
    simp only [Option.some.injEq, exists_eq_left']
    constructor
    · intro h
      split at h
      · next hat =>
        obtain ⟨hpaste, hlen, hright, hne, hpos⟩ := hat
        refine ⟨hpaste, hlen, hright, hne, hpos, ?_⟩
        split at h
        · next text' cursor' hexpand =>
          obtain ⟨rfl, rfl⟩ := Prod.mk.inj (Option.some.inj h)
          exact hexpand
        · cases h
      · cases h
    · rintro ⟨hpaste, hlen, hright, hne, hpos, hexpand⟩
      have hat : AtExpandableToken z.lastToken.1 z.lastToken.2 z.after := ⟨hright, hne, hpos⟩
      rw [if_pos ⟨hpaste, hlen, hat⟩, hexpand]

theorem loaded_accepted {press : Press engine} {config : Config} (h : press.loaded = some config) :
    Accepted engine config := by
  obtain ⟨loaded, -, rfl⟩ := Option.map_eq_some_iff.mp h
  exact loaded.property

/-- The action for what is intended. -/
theorem handleAction_intended (press : Press engine) (shell : Shell) (z : Zipper) {cursor : ℕ}
    (hcursor : shellCursorToByte shell z.text cursor = byteLen z.before) :
    ∃ action, handleAction engine shell z.text cursor (press.pastePending shell) press.loaded
        press.commandExists = some action ∧
      action.line = (press.intended shell z).text ∧
      action.cursor = byteLen (press.intended shell z).before := by
  obtain ⟨hbefore, htoken, hpre⟩ := z.lastToken_spec
  have hline : z.text = z.lastToken.1 ++ (z.lastToken.2 ++ z.after) := by
    rw [Zipper.text, ← List.append_assoc, ← hbefore]
  have hbyte : byteLen z.lastToken.1 + byteLen z.lastToken.2 =
      shellCursorToByte shell z.text cursor := by
    rw [hcursor, ← Text.byteLen_append, ← hbefore]
  have hspace : Char.utf8Size ' ' = 1 := rfl
  rcases handleAction_cases engine shell cursor (press.pastePending shell) press.loaded
    press.commandExists hline hbyte htoken hpre with ⟨text, off, hexpands, haction⟩ | ⟨hnone, haction⟩
  · refine ⟨_, haction, ?_⟩
    rw [intended, expansion_eq_some.mpr hexpands]
    cases off with
    | none => simp [editFor, HookAction.line, HookAction.cursor, Zipper.replace, Zipper.text,
        hspace, Nat.add_assoc]
    | some off =>
      obtain ⟨loaded, _, _, _, _, _, _, hexpand⟩ := hexpands
      obtain ⟨left, right, rfl, rfl⟩ := expand_cursor_isBoundary hexpand
      simp [editFor, HookAction.line, HookAction.cursor, Zipper.replace, Zipper.text,
        Text.splitAt?_append]
  · refine ⟨_, haction, ?_⟩
    have hexpansion : press.expansion shell z = none := by
      rw [Option.eq_none_iff_forall_ne_some]
      rintro ⟨text, off⟩ hsome
      exact hnone text off (expansion_eq_some.mp hsome)
    have hlength : byteLen z.before = byteLen z.lastToken.1 + byteLen z.lastToken.2 := by
      rw [hbyte, hcursor]
    rw [intended, hexpansion]
    constructor
    · simp only [editFor, HookAction.line, Zipper.space, Zipper.text]
      conv_rhs => rw [hbefore]
      simp
    · simp [editFor, HookAction.cursor, Zipper.space, hspace, hlength]

end Press

theorem shellCursorToByte_before (shell : Shell) (left right : Text) :
    shellCursorToByte shell (left ++ right)
      (match shell with
        | .pwsh => utf16Len left
        | .bash | .zsh | .clink | .nu => left.length) = byteLen left := by
  cases shell with
  | pwsh => rw [shellCursorToByte, utf16CursorToByte_eq, takeWithin_utf16Len]
  | bash | zsh | clink | nu => rw [shellCursorToByte, charCursorToByte_eq, List.take_left]

/-- A program that starts prints the effect of what is intended. -/
theorem triggerRun_runHook {press : Press engine} (hstarted : press.started = true)
    (toJson : Text → Text) (shell : Shell) (z : Zipper) :
    triggerRun shell (press.runHook toJson shell) z.before z.after =
      .printed (effectText toJson shell (press.intended shell z).before
        (press.intended shell z).after ++ ['\n']) := by
  obtain ⟨action, haction, hline, hcursor⟩ := press.handleAction_intended shell z
    (shellCursorToByte_before shell z.before z.after)
  have hrender := render_effectText toJson shell hline hcursor
  have hdecode := (decodeHexLine_hexLine z.text).2
  have hhandle : ∀ cursor, handleAction engine shell z.text cursor (press.pastePending shell)
      press.loaded press.commandExists = some action →
      handle engine toJson shell z.text cursor (press.pastePending shell) press.loaded
        press.commandExists = some (effectText toJson shell (press.intended shell z).before
          (press.intended shell z).after) := by
    intro cursor hcursor
    rw [handle, hcursor]
    exact hrender
  have hprinted := hhandle _ haction
  cases shell with
  | bash | zsh | nu =>
    show Press.runHook press toJson _ (some z.text) none z.before.length = _
    simp only [Press.runHook, hstarted, if_true, resolveLine, hprinted]
  | pwsh | clink =>
    show Press.runHook press toJson _ none (some (hexLineUpper z.text)) _ = _
    simp only [Press.runHook, hstarted, if_true, resolveLine, Option.getD_some, hdecode, hprinted]

-- ════════════════════════════════════════════════════════════════════════
-- Which characters a trigger key brings
-- ════════════════════════════════════════════════════════════════════════

section Characters

variable {shell : Shell} {P : Char → Prop}

/-- Validation has checked what a rule offers. -/
theorem RuleAccepted.clean_offers {abbr : Abbr} (h : RuleAccepted engine abbr) {token : Text}
    {c : Char} (hc : Offers abbr shell token c) :
    (isAsciiControl c = false ∧ isDeceptiveUnicode c = false) ∨ c ∈ token := by
  rcases hc with ⟨template, htemplate, hc⟩ | ⟨unit, hunit, hc⟩ | hc
  · obtain ⟨-, -, -, -, hcontrol, hdeceptive⟩ := checkExpandValue_eq_none.mp
      (h.expand template (PerShell.mem_allValues_of_forShell htemplate))
    exact Or.inl ⟨hcontrol c hc, hdeceptive c hc⟩
  · exact Or.inl (h.clean_unit hunit c hc)
  · exact Or.inr hc

namespace Zipper

/-- Every character of the buffer has the property. -/
def Forall (P : Char → Prop) (z : Zipper) : Prop := ∀ c ∈ z.text, P c

variable {z : Zipper}

theorem forall_iff : z.Forall P ↔ (∀ c ∈ z.before, P c) ∧ ∀ c ∈ z.after, P c :=
  List.forall_mem_append

theorem Forall.space (h : z.Forall P) (hspace : P ' ') : z.space.Forall P := by
  obtain ⟨hbefore, hafter⟩ := forall_iff.mp h
  refine forall_iff.mpr ⟨List.forall_mem_append.mpr ⟨hbefore, ?_⟩, hafter⟩
  simpa using hspace

theorem Forall.replace (h : z.Forall P) (hspace : P ' ') {text : Text} (htext : ∀ c ∈ text, P c)
    (cursor : Option ℕ) : (z.replace text cursor).Forall P := by
  obtain ⟨hbefore, hafter⟩ := forall_iff.mp h
  rw [z.lastToken_spec.1, List.forall_mem_append] at hbefore
  cases cursor with
  | none =>
    refine forall_iff.mpr ⟨List.forall_mem_append.mpr ⟨hbefore.1, ?_⟩, hafter⟩
    exact List.forall_mem_append.mpr ⟨htext, by simpa using hspace⟩
  | some off =>
    cases hsplit : Text.splitAt? text off with
    | none =>
      rw [Zipper.replace, hsplit]
      exact h.space hspace
    | some parts =>
      obtain ⟨rfl, -⟩ := Text.splitAt?_eq_some.mp hsplit
      rw [List.forall_mem_append] at htext
      rw [Zipper.replace, hsplit]
      exact forall_iff.mpr ⟨List.forall_mem_append.mpr ⟨hbefore.1, htext.1⟩,
        List.forall_mem_append.mpr ⟨htext.2, hafter⟩⟩

end Zipper

/-- What a trigger key brings into the buffer is a space, or a character that validation lets into
    a rule, or one that was there. -/
theorem Zipper.Forall.edit (hengine : engine.CapturesOfToken) (press : Press engine) (bin : Text)
    (hspace : P ' ') (hclean : ∀ c, isAsciiControl c = false → isDeceptiveUnicode c = false → P c)
    {z : Zipper} (h : z.Forall P) : (press.edit bin shell z).Forall P := by
  have hintended : (press.intended shell z).Forall P := by
    rw [Press.intended]
    cases hexpansion : press.expansion shell z with
    | none => exact h.space hspace
    | some parts =>
      obtain ⟨loaded, hloaded, _, _, _, _, _, hexpand⟩ := Press.expansion_eq_some.mp hexpansion
      obtain ⟨abbr, hmem, -, hoffers⟩ := offers_of_expand hengine hexpand
      refine h.replace hspace (fun c hc => ?_) parts.2
      have hrule := (Press.loaded_accepted hloaded).rule hmem
      rcases hrule.clean_offers (hoffers c hc) with ⟨hcontrol, hdeceptive⟩ | htoken
      · exact hclean c hcontrol hdeceptive
      · refine h c ?_
        rw [Zipper.text, z.lastToken_spec.1]
        simp [htoken]
  rw [Press.edit]
  split
  · split
    · exact h.space hspace
    · exact hintended
  · split
    · exact h
    · exact h.space hspace

theorem Zipper.Fits.edit (hengine : engine.CapturesOfToken) (press : Press engine) (bin : Text)
    {z : Zipper} (h : z.Fits shell) : (press.edit bin shell z).Fits shell := by
  intro hshell hmem
  have hforall : z.Forall (· ≠ '\x00') := fun c hc hnul => h hshell (hnul ▸ hc)
  refine hforall.edit hengine press bin (by decide) (fun c hcontrol _ => ?_) _ hmem rfl
  rintro rfl
  cases hcontrol

theorem Zipper.Fits.space {z : Zipper} (h : z.Fits shell) : z.space.Fits shell := by
  intro hshell
  have hbefore := h hshell
  simp only [Zipper.text, List.mem_append, not_or] at hbefore
  simp [Zipper.space, Zipper.text, hbefore]

end Characters

-- ════════════════════════════════════════════════════════════════════════
-- One trigger key
-- ════════════════════════════════════════════════════════════════════════

/-- The state of a shell for a buffer. -/
def Zipper.state (shell : Shell) (z : Zipper) : ShellEffect := shellState shell z.before z.after

/-- The trigger key of a shell leaves what is meant. -/
theorem triggerKey_edit (hengine : engine.CapturesOfToken) {toJson : Text → Text}
    (hjson : WritesJson toJson) (bin : Text) (shell : Shell) (press : Press engine) {z : Zipper}
    (hfits : z.Fits shell) :
    triggerKey shell bin (press.runHook toJson shell) (z.state shell) =
      some ((press.edit bin shell z).state shell) := by
  cases hstarted : press.started with
  | false =>
    have hrun : triggerRun shell (press.runHook toJson shell) z.before z.after = .notStarted := by
      cases shell <;> simp [triggerRun, Press.runHook, hstarted]
    rw [Press.edit, hstarted, if_neg Bool.false_ne_true]
    by_cases hnu : shell = .nu
    · subst hnu
      rw [if_pos rfl]
      exact triggerKey_nu_notStarted hrun
    · rw [if_neg hnu]
      exact triggerKey_of_no_output (Or.inr ⟨hnu, hrun⟩)
  | true =>
    have hrun := triggerRun_runHook hstarted toJson shell z
    have hedit := hfits.edit hengine press bin
    rw [Press.edit, hstarted, if_pos rfl] at hedit ⊢
    by_cases hclink : shell = .clink ∧ (clinkCalls bin z.text z.before.length = false ∨
        (press.intended shell z).text = z.text)
    · rw [if_pos hclink]
      obtain ⟨rfl, hreason⟩ := hclink
      exact triggerKey_clink_space (hreason.imp_right fun hsame => ⟨_, _, hrun, hsame⟩)
    · rw [if_neg hclink] at hedit ⊢
      refine triggerKey_of_effectText hjson (fun hshell => hedit ?_) (fun hshell => ?_) hrun
      · rcases hshell with hshell | hshell
        · exact Or.inl hshell
        · exact Or.inr (Or.inl hshell)
      · subst hshell
        simpa [Zipper.text] using hclink

-- ════════════════════════════════════════════════════════════════════════
-- Sessions
-- ════════════════════════════════════════════════════════════════════════

/-- What happens at the prompt: the user leaves some buffer and caret, or presses the self-insert
    key or the trigger key. -/
inductive Event (engine : RegexLite) (shell : Shell) where
  | edit (z : Zipper) (fits : z.Fits shell)
  | selfInsert
  | trigger (press : Press engine)

/-- `__runex_self_insert`, and the bindings of PowerShell and nu for it; clink has none. -/
def selfInsertKey (shell : Shell) (state : ShellEffect) : ShellEffect :=
  match shell, state with
  | .bash, .buffer line point => spaceAtChar line point
  | .nu, .buffer line cursor => spaceAtChar line cursor
  | .pwsh, .buffer line cursor => spaceAtUtf16 line cursor
  | .zsh, .halves left right => .halves (left ++ [' ']) right
  | _, state => state

namespace Event

variable {shell : Shell}

/-- An event in the shell. -/
def onShell (toJson : Text → Text) (bin : Text) (event : Event engine shell) (state : ShellEffect) :
    Option ShellEffect :=
  match event with
  | .edit z _ => some (z.state shell)
  | .selfInsert => some (selfInsertKey shell state)
  | .trigger press => triggerKey shell bin (press.runHook toJson shell) state

/-- An event as it is meant. -/
def onEditor (bin : Text) (event : Event engine shell) (z : Zipper) : Zipper :=
  match event with
  | .edit z' _ => z'
  | .selfInsert => if shell = .clink then z else z.space
  | .trigger press => press.edit bin shell z

theorem selfInsertKey_state (shell : Shell) (z : Zipper) :
    selfInsertKey shell (z.state shell) = (if shell = .clink then z else z.space).state shell := by
  cases shell with
  | bash => exact spaceAtChar_append z.before z.after
  | zsh => rfl
  | pwsh => exact spaceAtUtf16_append z.before z.after
  | clink => rfl
  | nu => exact spaceAtChar_append z.before z.after

theorem onShell_state (hengine : engine.CapturesOfToken) {toJson : Text → Text}
    (hjson : WritesJson toJson) (bin : Text) (event : Event engine shell) {z : Zipper}
    (hfits : z.Fits shell) :
    event.onShell toJson bin (z.state shell) = some ((event.onEditor bin z).state shell) ∧
      (event.onEditor bin z).Fits shell := by
  cases event with
  | edit z' fits => exact ⟨rfl, fits⟩
  | selfInsert =>
    refine ⟨congrArg some (selfInsertKey_state shell z), ?_⟩
    rw [onEditor]
    split
    · exact hfits
    · exact hfits.space
  | trigger press =>
    exact ⟨triggerKey_edit hengine hjson bin shell press hfits, hfits.edit hengine press bin⟩

end Event

variable {shell : Shell}

/-- A session in the shell; `none` is output that is not the fixed assignment around literals. -/
def runShell (toJson : Text → Text) (bin : Text) (events : List (Event engine shell))
    (state : ShellEffect) : Option ShellEffect :=
  events.foldlM (fun state event => event.onShell toJson bin state) state

/-- A session as it is meant. -/
def runEditor (bin : Text) (events : List (Event engine shell)) (z : Zipper) : Zipper :=
  events.foldl (fun z event => event.onEditor bin z) z

theorem runShell_state (hengine : engine.CapturesOfToken) {toJson : Text → Text}
    (hjson : WritesJson toJson) (bin : Text) (events : List (Event engine shell)) {z : Zipper}
    (hfits : z.Fits shell) :
    runShell toJson bin events (z.state shell) =
      some ((runEditor bin events z).state shell) ∧ (runEditor bin events z).Fits shell := by
  induction events generalizing z with
  | nil => exact ⟨rfl, hfits⟩
  | cons event events ih =>
    obtain ⟨hstep, hfits'⟩ := event.onShell_state hengine hjson bin hfits
    obtain ⟨hrun, hfits''⟩ := ih hfits'
    refine ⟨?_, hfits''⟩
    rw [runShell, List.foldlM_cons, hstep]
    exact hrun

/-- **The trigger key over a session.** For every shell and every sequence of edits, self-insert
    keys and trigger keys, each with its own configuration and commands, the shell ends with the
    buffer and caret that are meant: each trigger key replaces the token before the caret by its
    expansion, with the caret where the rule puts it or after a space, or adds a space. -/
theorem session_refines (engine : RegexLite) (hengine : engine.CapturesOfToken)
    (toJson : Text → Text) (hjson : WritesJson toJson) (bin : Text) (shell : Shell)
    (events : List (Event engine shell)) (z : Zipper) (hfits : z.Fits shell) :
    runShell toJson bin events (z.state shell) = some ((runEditor bin events z).state shell) :=
  (runShell_state hengine hjson bin events hfits).1

/-- A trigger key that finds one rule for `x`. -/
def onePress : Press default where
  config := some ⟨oneRuleConfig "echo '\x7b\x7d'".toList,
    accepted_iff.mpr ⟨rfl, by decide, by decide +kernel⟩⟩
  commandExists := fun _ => false
  keysQueued := false
  started := true

/-- A word typed before other text, the trigger key, and the self-insert key inside the quotes. -/
theorem session_refines_bash :
    runShell ShellLiteral.jsonQuote []
      ([.edit ⟨"é; x".toList, " y".toList⟩ fun _ => by decide, .trigger onePress, .selfInsert] :
        List (Event default .bash))
      (.buffer [] 0) = some (.buffer "é; echo ' ' y".toList 10) :=
  (session_refines default (fun regex => nomatch regex) ShellLiteral.jsonQuote
    ShellLiteral.scan_jsonQuote [] .bash _ ⟨[], []⟩ fun _ => by decide).trans (by decide +kernel)

/-- The characters of the buffer of a shell. -/
def ShellEffect.text : ShellEffect → Text
  | .buffer line _ => line
  | .halves left right => left ++ right

theorem Zipper.text_state (shell : Shell) (z : Zipper) : (z.state shell).text = z.text := by
  cases shell <;> rfl

/-- The buffers that the user leaves in a session. -/
def userTexts (events : List (Event engine shell)) : List Text :=
  events.filterMap fun event =>
    match event with
    | .edit z _ => some z.text
    | .selfInsert | .trigger _ => none

theorem runEditor_forall (hengine : engine.CapturesOfToken) (bin : Text) {P : Char → Prop}
    (hspace : P ' ') (hclean : ∀ c, isAsciiControl c = false → isDeceptiveUnicode c = false → P c)
    (events : List (Event engine shell)) {z : Zipper} (h : z.Forall P)
    (huser : ∀ text ∈ userTexts events, ∀ c ∈ text, P c) : (runEditor bin events z).Forall P := by
  induction events generalizing z with
  | nil => exact h
  | cons event events ih =>
    cases event with
    | edit z' fits =>
      obtain ⟨hedit, huser⟩ := List.forall_mem_cons.mp huser
      exact ih hedit huser
    | selfInsert =>
      refine ih ?_ huser
      show (if shell = .clink then z else z.space).Forall P
      split
      · exact h
      · exact h.space hspace
    | trigger press => exact ih (h.edit hengine press bin hspace hclean) huser

/-- **No session brings a character into the buffer that is not the user's.** Whatever happens at
    the prompt of a shell, every character of the buffer afterwards is one of the buffers the user
    left, a space, or neither a control character nor deceptive. -/
theorem session_characters (engine : RegexLite) (hengine : engine.CapturesOfToken)
    (toJson : Text → Text) (hjson : WritesJson toJson) (bin : Text) (shell : Shell)
    (events : List (Event engine shell)) (z : Zipper) (hfits : z.Fits shell) :
    ∃ state, runShell toJson bin events (z.state shell) = some state ∧
      ∀ c ∈ state.text, (∃ text ∈ z.text :: userTexts events, c ∈ text) ∨
        isAsciiControl c = false ∧ isDeceptiveUnicode c = false := by
  obtain ⟨hrun, -⟩ := runShell_state hengine hjson bin events hfits
  refine ⟨_, hrun, ?_⟩
  rw [Zipper.text_state]
  refine runEditor_forall hengine bin (Or.inr (by decide)) (fun c hcontrol hdeceptive => ?_) events
    (fun c hc => Or.inl ⟨z.text, List.mem_cons_self, hc⟩) fun text htext c hc => ?_
  · exact Or.inr ⟨hcontrol, hdeceptive⟩
  · exact Or.inl ⟨text, List.mem_cons_of_mem _ htext, hc⟩

/-- The same trigger key in nu, in a buffer with a tab. -/
theorem session_characters_nu :
    ∃ state, runShell ShellLiteral.jsonQuote [] ([.trigger onePress] : List (Event default .nu))
        (.buffer "\t; x".toList 4) = some state ∧
      ∀ c ∈ state.text, (∃ text ∈ ["\t; x".toList], c ∈ text) ∨
        isAsciiControl c = false ∧ isDeceptiveUnicode c = false :=
  session_characters default (fun regex => nomatch regex) ShellLiteral.jsonQuote
    ShellLiteral.scan_jsonQuote [] .nu [.trigger onePress] ⟨"\t; x".toList, []⟩ fun _ => by decide

end Runex
