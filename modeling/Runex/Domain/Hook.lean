import Runex.Domain.Expand
import Mathlib.Data.List.DropRight

/-!
# The per-keystroke hook

A buffer and a caret go in, the edited buffer comes out. Slices at byte offsets are partial: a
`none` of `hook`, `insertSpace` or `renderAction` is a panic.

## Main definitions

- `HookAction` — the new buffer, with the caret as a byte offset into it
- `isCommandPosition` — whether a command name is expected after a prefix
- `hook` — the decision for one key press
- `renderAction` — the eval text of an action, for each shell
-/

namespace Runex

open Search
open Text (byteLen sliceTo? sliceFrom? splitAt?)

/-- Outcome of a hook call: the whole new buffer and the caret as a byte offset into it. -/
inductive HookAction where
  | replace (line : Text) (cursor : ℕ)
  | insertSpace (line : Text) (cursor : ℕ)
  deriving DecidableEq, Repr

namespace HookAction

def line : HookAction → Text
  | .replace line _ => line
  | .insertSpace line _ => line

def cursor : HookAction → ℕ
  | .replace _ cursor => cursor
  | .insertSpace _ cursor => cursor

/-- The same action with another cursor number. -/
def withCursor : HookAction → ℕ → HookAction
  | .replace line _, cursor => .replace line cursor
  | .insertSpace line _, cursor => .insertSpace line cursor

@[simp] theorem line_withCursor (action : HookAction) (n : ℕ) :
    (action.withCursor n).line = action.line := by
  cases action <;> rfl

@[simp] theorem cursor_withCursor (action : HookAction) (n : ℕ) :
    (action.withCursor n).cursor = n := by
  cases action <;> rfl

end HookAction

def trimTrailingSpaces (s : Text) : Text := s.rdropWhile (· == ' ')

def endsWithPipelineOperator (s : Text) : Bool :=
  ['&', '&'] <:+ s || ['|', '|'] <:+ s || ['|'] <:+ s || [';'] <:+ s

/-- The text before a trailing word `sudo`, if that is the last word. -/
def stripTrailingSudo (pre : Text) : Option Text :=
  match splitLast ' ' pre with
  | some (before, prevWord) => if prevWord = "sudo".toList then some (before ++ [' ']) else none
  | none => if pre = "sudo".toList then some [] else none

/-- Whether the text left of a token is a place where a command name is expected. -/
def isCommandPosition (pre : Text) : Bool :=
  let trimmed := trimTrailingSpaces pre
  if trimmed = [] then true
  else if endsWithPipelineOperator trimmed then true
  else
    match stripTrailingSudo trimmed with
    | some beforeSudo =>
      let beforeSudo := trimTrailingSpaces beforeSudo
      if beforeSudo = [] then true else endsWithPipelineOperator beforeSudo
    | none => false

/-- Insert a space at the caret. -/
def insertSpace (line : Text) (cursor : ℕ) : Option HookAction := do
  let left ← sliceTo? line cursor
  let right ← sliceFrom? line cursor
  some (.insertSpace (left ++ ' ' :: right) (cursor + 1))

/-- The byte at which the last space-delimited token of `left` starts. -/
def tokenStartOf (left : Text) : Option ℕ :=
  if left = [] then none
  else some (match splitLast ' ' left with
    | some (before, _) => byteLen before + 1
    | none => 0)

def isKnownToken (engine : RegexLite) (config : Config) (token : Text) : Bool :=
  config.abbr.any fun abbr => (matchRule engine abbr token).isSome

/-- The buffer after an expansion, with the trigger space replayed unless the rule placed the
    cursor. -/
def replaceToken (pre text right : Text) (tokenStart : ℕ) (cursorOffset : Option ℕ) :
    Option HookAction :=
  let newLine := pre ++ text
  match cursorOffset with
  | some off => some (.replace (newLine ++ right) (tokenStart + off))
  | none => do
    let cursorAfterExpand := tokenStart + byteLen text
    let (before, after) ← splitAt? newLine cursorAfterExpand
    some (.replace ((before ++ ' ' :: after) ++ right) (cursorAfterExpand + 1))

/-- One key press: expand the token that ends at the caret, or insert a space. -/
def hook (engine : RegexLite) (config : Config) (shell : Shell) (line : Text) (cursor : ℕ)
    (commandExists : Text → Bool) : Option HookAction := do
  let cursor := min cursor (byteLen line)
  let right ← sliceFrom? line cursor
  if cursor < byteLen line ∧ ¬ [' '] <+: right then insertSpace line cursor
  else
    let left ← sliceTo? line cursor
    match tokenStartOf left with
    | none => insertSpace line cursor
    | some tokenStart =>
      let token ← sliceFrom? left tokenStart
      if token = [] then insertSpace line cursor
      else
        let pre ← sliceTo? line tokenStart
        if !isCommandPosition pre then insertSpace line cursor
        else if !isKnownToken engine config token then insertSpace line cursor
        else
          match expand engine config token shell commandExists with
          | .expanded text cursorOffset => replaceToken pre text right tokenStart cursorOffset
          | .passThrough _ => insertSpace line cursor

/-- The eval text of an action whose cursor is already in the shell's unit. `toJson` is
    `serde_json::to_string` on a string. -/
def renderAction (toJson : Text → Text) (shell : Shell) (action : HookAction) : Option Text :=
  let line := action.line
  let cursor := action.cursor
  match shell with
  | .bash =>
    some ("READLINE_LINE=".toList ++ (bashQuoteBuffer line ++
      ("; READLINE_POINT=".toList ++ decimal cursor)))
  | .zsh => do
    let (lb, rb) ← splitAt? line cursor
    some ("LBUFFER=".toList ++ (bashQuoteBuffer lb ++
      ("; RBUFFER=".toList ++ bashQuoteBuffer rb)))
  | .pwsh =>
    some ("$__RUNEX_LINE = ".toList ++ (pwshDoubleQuoteString line ++
      ("\n$__RUNEX_CURSOR = ".toList ++ decimal cursor)))
  | .clink =>
    some ("return \x7b line = ".toList ++ (luaQuoteString line ++
      (", cursor = ".toList ++ (decimal cursor ++ " \x7d".toList))))
  | .nu =>
    some ("\x7b\"line\": ".toList ++ (toJson line ++
      (", \"cursor\": ".toList ++ (decimal cursor ++ "\x7d".toList))))

end Runex
