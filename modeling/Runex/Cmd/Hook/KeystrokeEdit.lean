import Runex.Cmd.Hook
import Runex.Domain.Hook.Decision

/-!
# A key press edits the buffer only at the caret

The whole pipeline of `handle`: the shell's caret becomes a byte offset, an action is chosen, and
it is rendered. No slice fails, and the new buffer differs from the old one only between the start
of the last token and the caret.

## Main results

- `keystroke_edits_at_caret` — the three forms of the new buffer, and when each is taken
-/

namespace Runex

open Text (byteLen)

/-- The caret of an action is at a character boundary of its line. -/
def HookAction.WellPlaced (action : HookAction) : Prop :=
  Text.IsBoundary action.line action.cursor

/-- A well-placed action renders for every shell: zsh's split is the only slice. -/
theorem render_isSome (toJson : Text → Text) (shell : Shell) {action : HookAction}
    (h : action.WellPlaced) : ∃ output, render toJson shell action = some output := by
  obtain ⟨left, right, hline, hcursor⟩ := h
  cases shell with
  | zsh =>
    have hsplit : Text.splitAt? action.line action.cursor = some (left, right) :=
      Text.splitAt?_eq_some.mpr ⟨hline, hcursor⟩
    simp [render, renderAction, byteCursorToShell, hsplit]
  | bash | pwsh | clink | nu => exact ⟨_, rfl⟩

/-- The edit for an expansion is well placed when the expansion's cursor is. -/
theorem editFor_wellPlaced {pre token right : Text} {result : ExpandResult}
    (h : ∀ text off, result = .expanded text (some off) → Text.IsBoundary text off) :
    (editFor pre token right result).WellPlaced := by
  have hspace : Char.utf8Size ' ' = 1 := rfl
  match result with
  | .passThrough _ => exact ⟨pre ++ token ++ [' '], right, by simp [editFor, HookAction.line],
      by simp [editFor, HookAction.cursor, hspace, Nat.add_assoc]⟩
  | .expanded text none => exact ⟨pre ++ text ++ [' '], right, by simp [editFor, HookAction.line],
      by simp [editFor, HookAction.cursor, hspace, Nat.add_assoc]⟩
  | .expanded text (some off) =>
    obtain ⟨before, after, rfl, rfl⟩ := h text off rfl
    exact ⟨pre ++ before, after ++ right, by simp [editFor, HookAction.line],
      by simp [editFor, HookAction.cursor]⟩

theorem insertSpaceAction_append (left right : Text) :
    insertSpaceAction (left ++ right) (byteLen left) =
      some (.insertSpace (left ++ ' ' :: right) (byteLen left + 1)) := by
  simp [insertSpaceAction]

/-- When a key press expands: a configuration is loaded, no paste is pending, the line is within
    the cap, the caret ends a non-empty token in command position, and the token expands. -/
def ExpandsTo (engine : RegexLite) (shell : Shell) (line : Text) (pastePending : Bool)
    (config : Option Config) (commandExists : Text → Bool) (pre token right text : Text)
    (cursorOffset : Option ℕ) : Prop :=
  ∃ loaded, config = some loaded ∧ pastePending = false ∧ byteLen line ≤ maxHookLineBytes ∧
    (right = [] ∨ [' '] <+: right) ∧ token ≠ [] ∧ isCommandPosition pre = true ∧
    expand engine loaded token shell commandExists = .expanded text cursorOffset

/-- The action is the edit for the expansion, or the plain space. -/
theorem handleAction_cases (engine : RegexLite) (shell : Shell) (cursor : ℕ)
    (pastePending : Bool) (config : Option Config) (commandExists : Text → Bool)
    {line pre token right : Text} (hline : line = pre ++ (token ++ right))
    (hcursor : byteLen pre + byteLen token = shellCursorToByte shell line cursor)
    (htoken : ' ' ∉ token) (hpre : pre = [] ∨ [' '] <:+ pre) :
    (∃ text off, ExpandsTo engine shell line pastePending config commandExists pre token right
        text off ∧
      handleAction engine shell line cursor pastePending config commandExists =
        some (editFor pre token right (.expanded text off))) ∨
    ((∀ text off, ¬ ExpandsTo engine shell line pastePending config commandExists pre token right
        text off) ∧
      handleAction engine shell line cursor pastePending config commandExists =
        some (editFor pre token right (.passThrough token))) := by
  subst hline
  have hinsert : insertSpaceAction (pre ++ (token ++ right)) (byteLen pre + byteLen token) =
      some (editFor pre token right (.passThrough token)) := by
    have happend := insertSpaceAction_append (pre ++ token) right
    simpa [editFor] using happend
  unfold handleAction
  simp only [← hcursor]
  by_cases hcap : byteLen (pre ++ (token ++ right)) > maxHookLineBytes
  · right
    refine ⟨fun text off h => ?_, by rw [if_pos hcap, hinsert]⟩
    obtain ⟨_, _, _, hle, _⟩ := h
    omega
  rw [if_neg hcap]
  cases pastePending with
  | true =>
    right
    exact ⟨fun text off ⟨_, _, hpaste, _⟩ => Bool.noConfusion hpaste, by rw [if_pos rfl, hinsert]⟩
  | false =>
    rw [if_neg Bool.false_ne_true]
    cases config with
    | none => exact Or.inr ⟨fun text off ⟨_, hnone, _⟩ => by simp at hnone, hinsert⟩
    | some loaded =>
      have hhook := hook_append engine loaded shell htoken hpre right commandExists
      simp only [hhook]
      by_cases hat : AtExpandableToken pre token right
      · rw [if_pos hat]
        cases hexpand : expand engine loaded token shell commandExists with
        | expanded text off =>
          exact Or.inl ⟨text, off, ⟨loaded, rfl, rfl, by omega, hat.1, hat.2.1, hat.2.2, hexpand⟩, rfl⟩
        | passThrough _ =>
          refine Or.inr ⟨fun text off h => ?_, rfl⟩
          obtain ⟨_, hloaded, _, _, _, _, _, hexpand'⟩ := h
          simp only [Option.some.injEq] at hloaded
          subst hloaded
          simp [hexpand] at hexpand'
      · rw [if_neg hat]
        refine Or.inr ⟨fun text off h => ?_, rfl⟩
        obtain ⟨_, _, _, _, hright, hne, hpos, _⟩ := h
        exact hat ⟨hright, hne, hpos⟩

/-- **One key press edits the buffer only at the caret.** For every shell, line and caret, with
    `left` the text before the converted caret and `pre` the part of it before its last
    space-delimited token, no slice fails, the new caret is at a character boundary, and the action
    is a space at the caret, or the expansion in place of the token: without a further space when
    the rule places the cursor, with one otherwise. -/
theorem keystroke_edits_at_caret (engine : RegexLite) (toJson : Text → Text) (shell : Shell)
    (line : Text) (cursor : ℕ) (pastePending : Bool) (config : Option Config)
    (commandExists : Text → Bool) :
    ∃ left right pre token, line = left ++ right ∧
      byteLen left = shellCursorToByte shell line cursor ∧
      left = pre ++ token ∧ ' ' ∉ token ∧ (pre = [] ∨ [' '] <:+ pre) ∧
      ∃ action output,
        handleAction engine shell line cursor pastePending config commandExists = some action ∧
        handle engine toJson shell line cursor pastePending config commandExists = some output ∧
        render toJson shell action = some output ∧ action.WellPlaced ∧
        (((∀ text off, ¬ ExpandsTo engine shell line pastePending config commandExists
              pre token right text off) ∧
            action = .insertSpace (left ++ ' ' :: right) (byteLen left + 1)) ∨
          (∃ text off, ExpandsTo engine shell line pastePending config commandExists
              pre token right text (some off) ∧
            action = .replace (pre ++ (text ++ right)) (byteLen pre + off)) ∨
          (∃ text, ExpandsTo engine shell line pastePending config commandExists
              pre token right text none ∧
            action = .replace (pre ++ (text ++ ' ' :: right)) (byteLen pre + byteLen text + 1))) := by
  obtain ⟨left, right, hline, hleft⟩ := shellCursorToByte_boundary shell line cursor
  obtain ⟨pre, token, rfl, htoken, hpre⟩ := exists_lastToken left
  refine ⟨pre ++ token, right, pre, token, hline, hleft, rfl, htoken, hpre, ?_⟩
  rw [List.append_assoc] at hline
  rw [Text.byteLen_append] at hleft
  rcases handleAction_cases engine shell cursor pastePending config commandExists hline hleft
    htoken hpre with ⟨text, off, hexpands, haction⟩ | ⟨hnone, haction⟩
  · have hplaced : (editFor pre token right (.expanded text off)).WellPlaced := by
      apply editFor_wellPlaced
      rintro text' off' heq
      obtain ⟨loaded, _, _, _, _, _, _, hexpand⟩ := hexpands
      exact expand_cursor_isBoundary (hexpand.trans heq)
    obtain ⟨output, hrender⟩ := render_isSome toJson shell hplaced
    refine ⟨_, output, haction, by simp [handle, haction, hrender], hrender, hplaced, Or.inr ?_⟩
    cases off with
    | some off => exact Or.inl ⟨text, off, hexpands, rfl⟩
    | none => exact Or.inr ⟨text, hexpands, rfl⟩
  · have hplaced : (editFor pre token right (.passThrough token)).WellPlaced :=
      editFor_wellPlaced fun text off h => by simp at h
    obtain ⟨output, hrender⟩ := render_isSome toJson shell hplaced
    exact ⟨_, output, haction, by simp [handle, haction, hrender], hrender, hplaced,
      Or.inl ⟨hnone, by simp [editFor]⟩⟩

end Runex
