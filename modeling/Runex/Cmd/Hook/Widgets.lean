import Runex.App.Hook.HexLine
import Runex.Cmd.Hook.KeystrokeEdit
import Runex.Lib.Lines
import Runex.Lib.TakeWithin

/-!
# The key handlers of the shells

What the integration scripts do with a trigger key: run the program on the buffer, take its output
the way the shell does, evaluate it, and insert a space when there is no output. PowerShell and
clink send the buffer as hex; clink counts its caret from one, does not call the program on an empty
buffer or with a long command line, and inserts a space when the buffer would stay as it is.

## Main definitions

- `Ran` — what came of running the program
- `bashExpand`, `zshExpand`, `pwshExpand`, `clinkExpand`, `nuExpand` — the handlers
- `shellState` — a buffer and its caret as a shell holds them
- `effectText` — the output that sets a buffer and caret

## Main results

- `render_effectText` — a well-placed action prints its effect
- `triggerKey_of_effectText` — each handler leaves the buffer and caret that the output sets
-/

namespace Runex

open Search Text
open ShellLiteral (readDecimal)
open TakeWithin (takeWithin)

/-- What came of running the program. Where it fails it prints nothing to standard output. -/
inductive Ran where
  | notStarted
  | failed
  | printed (out : Text)

-- ════════════════════════════════════════════════════════════════════════
-- Taking the output
-- ════════════════════════════════════════════════════════════════════════

/-- `$(…)` takes the line breaks off the end. -/
def commandSubstitution (out : Text) : Text := out.rdropWhile (· == '\n')

/-- The lines of the output of a native command, as PowerShell assigns them to a variable. -/
def outputLines (out : Text) : List Text := linesBy (fun c => c == '\n' || c == '\r') out

/-- `if ($out)`: no lines and one empty line are false. -/
def isTrue : List Text → Bool
  | [] => false
  | [line] => line ≠ []
  | _ => true

-- ════════════════════════════════════════════════════════════════════════
-- The handlers
-- ════════════════════════════════════════════════════════════════════════

/-- A space at the caret of a shell that counts characters. -/
def spaceAtChar (line : Text) (point : ℕ) : ShellEffect :=
  .buffer (line.take point ++ ' ' :: line.drop point) (point + 1)

/-- `Insert(' ')`: a space at a caret in UTF-16 code units. -/
def spaceAtUtf16 (line : Text) (cursor : ℕ) : ShellEffect :=
  let left := takeWithin utf16Size cursor line
  .buffer (left ++ ' ' :: line.drop left.length) (cursor + 1)

/-- `__runex_exec_expand`, with what running the program on a line and a caret comes to. -/
def bashExpand (run : Text → ℕ → Ran) (line : Text) (point : ℕ) : Option ShellEffect :=
  match run line point with
  | .printed out =>
    let out := commandSubstitution out
    if out ≠ [] then evalText .bash out else some (spaceAtChar line point)
  | .failed | .notStarted => some (spaceAtChar line point)

/-- `__runex_expand` of the zsh script. -/
def zshExpand (run : Text → ℕ → Ran) (left right : Text) : Option ShellEffect :=
  match run (left ++ right) left.length with
  | .printed out =>
    let out := commandSubstitution out
    if out ≠ [] then evalText .zsh out else some (.halves (left ++ [' ']) right)
  | .failed | .notStarted => some (.halves (left ++ [' ']) right)

/-- The script block of the PowerShell key handler. -/
def pwshExpand (run : Text → ℕ → Ran) (line : Text) (cursor : ℕ) : Option ShellEffect :=
  match run (hexLineUpper line) cursor with
  | .printed out =>
    let out := outputLines out
    if isTrue out then evalText .pwsh (join out) else some (spaceAtUtf16 line cursor)
  | .failed | .notStarted => some (spaceAtUtf16 line cursor)

/-- `runex_shell_quote`. -/
def clinkShellQuote (s : Text) : Text := '"' :: (replaceAll ['"'] ['\\', '"'] s ++ ['"'])

/-- The command line that clink hands to `cmd.exe`. -/
def clinkCommand (bin hex : Text) (cursor : ℕ) : Text :=
  '"' :: (clinkShellQuote bin ++ " hook --shell clink --line-hex ".toList ++ hex ++
    " --cursor ".toList ++ decimal cursor ++ " 2>&1\"".toList)

/-- `CMD_LINE_MAX`. -/
def cmdLineMax : ℕ := 8000

/-- `runex_call_hook` calls the program: the buffer is not empty, and the command line fits. -/
def clinkCalls (bin line : Text) (cursor : ℕ) : Bool :=
  line ≠ [] && byteLen (clinkCommand bin (hexLineUpper line) cursor) ≤ cmdLineMax

/-- `runex_expand` of the clink script; the caret counts from one. A line break ends the chunk. -/
def clinkExpand (bin : Text) (run : Text → ℕ → Ran) (line : Text) (caret : ℕ) :
    Option ShellEffect :=
  let space : ShellEffect :=
    .buffer (line.take (caret - 1) ++ ' ' :: line.drop (caret - 1)) (caret + 1)
  if clinkCalls bin line (caret - 1) then
    match run (hexLineUpper line) (caret - 1) with
    | .printed out =>
      if out = [] then some space
      else
        match evalText .clink (commandSubstitution out) with
        | some (.buffer newLine cursor) =>
          some (if newLine ≠ line then .buffer newLine (cursor + 1) else space)
        | _ => none
    | .failed | .notStarted => some space
  else some space

/-- The command of the nu binding. A program that is not found is an error, which ends it. -/
def nuExpand (run : Text → ℕ → Ran) (line : Text) (cursor : ℕ) : Option ShellEffect :=
  match run line cursor with
  | .printed out =>
    let out := trimEnd out
    if out = [] then some (spaceAtChar line cursor) else evalText .nu out
  | .failed => some (spaceAtChar line cursor)
  | .notStarted => some (.buffer line cursor)

-- ════════════════════════════════════════════════════════════════════════
-- Buffers of the shells
-- ════════════════════════════════════════════════════════════════════════

/-- A buffer with the caret between `left` and `right`, as a shell holds it. -/
def shellState (shell : Shell) (left right : Text) : ShellEffect :=
  match shell with
  | .zsh => .halves left right
  | .pwsh => .buffer (left ++ right) (utf16Len left)
  | .bash | .nu => .buffer (left ++ right) left.length
  | .clink => .buffer (left ++ right) (left.length + 1)

theorem takeWithin_utf16Len (left right : Text) :
    takeWithin utf16Size (utf16Len left) (left ++ right) = left := by
  show takeWithin utf16Size (TakeWithin.total utf16Size left) _ = left
  cases right with
  | nil => rw [List.append_nil, TakeWithin.takeWithin_of_le (Nat.le_refl _)]
  | cons c right =>
    have htake := TakeWithin.takeWithin_append left right c (utf16Size_pos c)
    rwa [Nat.add_zero] at htake

theorem spaceAtChar_append (left right : Text) :
    spaceAtChar (left ++ right) left.length =
      .buffer (left ++ [' '] ++ right) (left ++ [' ']).length := by
  simp [spaceAtChar]

theorem spaceAtUtf16_append (left right : Text) :
    spaceAtUtf16 (left ++ right) (utf16Len left) =
      .buffer (left ++ [' '] ++ right) (utf16Len (left ++ [' '])) := by
  have hspace : utf16Len [' '] = 1 := rfl
  simp [spaceAtUtf16, takeWithin_utf16Len, hspace]

-- ════════════════════════════════════════════════════════════════════════
-- What the program prints
-- ════════════════════════════════════════════════════════════════════════

/-- The output that sets a buffer with the caret between `left` and `right`. -/
def effectText (toJson : Text → Text) (shell : Shell) (left right : Text) : Text :=
  match shell with
  | .bash => "READLINE_LINE=".toList ++ (bashQuoteBuffer (left ++ right) ++
      ("; READLINE_POINT=".toList ++ decimal left.length))
  | .zsh => "LBUFFER=".toList ++ (bashQuoteBuffer left ++
      ("; RBUFFER=".toList ++ bashQuoteBuffer right))
  | .pwsh => "$__RUNEX_LINE = ".toList ++ (pwshDoubleQuoteString (left ++ right) ++
      ("\n$__RUNEX_CURSOR = ".toList ++ decimal (utf16Len left)))
  | .clink => "return \x7b line = ".toList ++ (luaQuoteString (left ++ right) ++
      (", cursor = ".toList ++ (decimal left.length ++ " \x7d".toList)))
  | .nu => "\x7b\"line\": ".toList ++ (toJson (left ++ right) ++
      (", \"cursor\": ".toList ++ (decimal left.length ++ "\x7d".toList)))

/-- A well-placed action prints its effect. -/
theorem render_effectText (toJson : Text → Text) (shell : Shell) {action : HookAction}
    {left right : Text} (hline : action.line = left ++ right)
    (hcursor : action.cursor = byteLen left) :
    render toJson shell action = some (effectText toJson shell left right) := by
  have hsplit : Text.splitAt? (left ++ right) (byteLen left) = some (left, right) :=
    Text.splitAt?_append left right
  simp only [render, renderAction, HookAction.line_withCursor, HookAction.cursor_withCursor, hline,
    hcursor]
  cases shell with
  | bash => rw [byteCursorToShell, byteCursorToChar_append]; rfl
  | zsh => rw [byteCursorToShell, hsplit]; rfl
  | pwsh => rw [byteCursorToShell, byteCursorToUtf16_append]; rfl
  | clink => rw [byteCursorToShell, byteCursorToChar_append]; rfl
  | nu => rw [byteCursorToShell, byteCursorToChar_append]; rfl

theorem exists_getLast?_decimal (n : ℕ) :
    ∃ c, (decimal n).getLast? = some c ∧ isWhitespace c = false ∧ c ≠ '\n' := by
  obtain ⟨c, hc⟩ := Option.isSome_iff_exists.mp
    (List.getLast?_isSome.mpr (Nat.toDigits_ne_nil (n := n) (b := 10)))
  have hdigit : c.isDigit = true :=
    Nat.isDigit_of_mem_toDigits (by omega) (by omega) (List.mem_of_getLast? hc)
  refine ⟨c, hc, ?_, ?_⟩
  · simp only [Char.isDigit, Bool.and_eq_true, decide_eq_true_eq, ge_iff_le,
      UInt32.le_iff_toNat_le] at hdigit
    have hlow : 48 ≤ c.toNat := hdigit.1
    have hhigh : c.toNat ≤ 57 := hdigit.2
    simp only [isWhitespace, Bool.or_eq_false_iff, Bool.and_eq_false_iff, decide_eq_false_iff_not,
      beq_eq_false_iff_ne]
    omega
  · rintro rfl
    cases hdigit

/-- The output ends in a character that no shell takes off. -/
theorem exists_getLast?_effectText (toJson : Text → Text) (shell : Shell) (left right : Text) :
    ∃ c, (effectText toJson shell left right).getLast? = some c ∧ isWhitespace c = false ∧
      c ≠ '\n' := by
  have happend : ∀ {s t : Text} {c : Char}, t.getLast? = some c → (s ++ t).getLast? = some c := by
    intro s t c h
    rw [List.getLast?_append, h, Option.some_or]
  cases shell with
  | bash =>
    obtain ⟨c, hc, hclass⟩ := exists_getLast?_decimal left.length
    exact ⟨c, happend (happend (happend hc)), hclass⟩
  | zsh =>
    have hquote : (bashQuoteBuffer right).getLast? = some '\'' :=
      List.getLast?_concat (l := '\'' :: right.flatMap bashQuoteBufferChar)
    exact ⟨'\'', happend (happend (happend hquote)), by decide⟩
  | pwsh =>
    obtain ⟨c, hc, hclass⟩ := exists_getLast?_decimal (utf16Len left)
    exact ⟨c, happend (happend (happend hc)), hclass⟩
  | clink => exact ⟨'\x7d', happend (happend (happend (happend rfl))), by decide⟩
  | nu => exact ⟨'\x7d', happend (happend (happend (happend rfl))), by decide⟩

theorem effectText_ne_nil (toJson : Text → Text) (shell : Shell) (left right : Text) :
    effectText toJson shell left right ≠ [] := by
  obtain ⟨c, hc, -⟩ := exists_getLast?_effectText toJson shell left right
  rintro hnil
  rw [hnil] at hc
  cases hc

theorem commandSubstitution_effectText (toJson : Text → Text) (shell : Shell) (left right : Text) :
    commandSubstitution (effectText toJson shell left right ++ ['\n']) =
      effectText toJson shell left right := by
  obtain ⟨c, hc, -, hne⟩ := exists_getLast?_effectText toJson shell left right
  rw [commandSubstitution, List.rdropWhile_concat_pos _ _ _ (by decide),
    List.rdropWhile_eq_self_iff]
  intro hnil
  rw [List.getLast?_eq_getLast_of_ne_nil hnil, Option.some.injEq] at hc
  rw [hc]
  simpa using hne

theorem trimEnd_effectText (toJson : Text → Text) (shell : Shell) (left right : Text) :
    trimEnd (effectText toJson shell left right ++ ['\n']) =
      effectText toJson shell left right := by
  obtain ⟨c, hc, hspace, -⟩ := exists_getLast?_effectText toJson shell left right
  rw [trimEnd, List.rdropWhile_concat_pos _ _ _ (by decide), List.rdropWhile_eq_self_iff]
  intro hnil
  rw [List.getLast?_eq_getLast_of_ne_nil hnil, Option.some.injEq] at hc
  rw [hc, hspace]
  exact Bool.false_ne_true

/-- No line break in what PowerShell is given as one line. -/
def OfOneLine (s : Text) : Prop := ∀ c ∈ s, (c == '\n' || c == '\r') = false

instance (s : Text) : Decidable (OfOneLine s) := inferInstanceAs (Decidable (∀ c ∈ s, _))

theorem OfOneLine.append {s t : Text} (hs : OfOneLine s) (ht : OfOneLine t) : OfOneLine (s ++ t) :=
  List.forall_mem_append.mpr ⟨hs, ht⟩

theorem ofOneLine_pwshDoubleQuoteString (s : Text) : OfOneLine (pwshDoubleQuoteString s) := by
  have hchar : ∀ c, OfOneLine (pwshDoubleQuoteChar c) := by
    intro c
    unfold pwshDoubleQuoteChar
    split
    · decide
    · next hlf =>
      split
      · decide
      · next hcr => split <;> simp [OfOneLine, hlf, hcr]
  intro c hc
  simp only [pwshDoubleQuoteString, List.mem_cons, List.mem_append, List.mem_flatMap,
    List.not_mem_nil, or_false] at hc
  rcases hc with rfl | ⟨d, -, hc⟩ | rfl
  · rfl
  · exact hchar d c hc
  · rfl

theorem ofOneLine_decimal (n : ℕ) : OfOneLine (decimal n) := by
  intro c hc
  have hdigit : c.isDigit = true := Nat.isDigit_of_mem_toDigits (by omega) (by omega) hc
  have hne : ∀ d : Char, d.isDigit = false → c ≠ d := by
    rintro d hd rfl
    simp [hd] at hdigit
  simp [hne '\n' rfl, hne '\r' rfl]

theorem outputLines_append {line : Text} (h : OfOneLine line) (rest : Text) :
    outputLines (line ++ '\n' :: rest) = line :: outputLines rest := by
  refine linesBy_append rfl h (fun hlast => ?_) rest
  simpa using h '\r' (List.mem_of_getLast? hlast)

/-- PowerShell joins the two lines it has split. -/
theorem outputLines_effectText (toJson : Text → Text) (left right : Text) :
    ∃ first second, outputLines (effectText toJson .pwsh left right ++ ['\n']) = [first, second] ∧
      join [first, second] = effectText toJson .pwsh left right := by
  let first := "$__RUNEX_LINE = ".toList ++ pwshDoubleQuoteString (left ++ right)
  let second := "$__RUNEX_CURSOR = ".toList ++ decimal (utf16Len left)
  have hfirst : OfOneLine first :=
    OfOneLine.append (by decide) (ofOneLine_pwshDoubleQuoteString (left ++ right))
  have hsecond : OfOneLine second := OfOneLine.append (by decide) (ofOneLine_decimal _)
  have heffect : effectText toJson .pwsh left right = first ++ '\n' :: second := by
    show _ = "$__RUNEX_LINE = ".toList ++ pwshDoubleQuoteString (left ++ right) ++ '\n' :: second
    rw [List.append_assoc]
    rfl
  refine ⟨first, second, ?_, ?_⟩
  · rw [heffect, List.append_assoc, List.cons_append, outputLines_append hfirst,
      outputLines_append hsecond]
    rfl
  · rw [heffect, join, List.intercalate_cons_cons, List.intercalate_singleton, List.append_assoc]
    rfl

/-- The output reads back. Bash and Zsh variables hold no NUL. -/
theorem evalText_effectText {toJson : Text → Text} (hjson : WritesJson toJson) (shell : Shell)
    {left right : Text} (hnul : shell = .bash ∨ shell = .zsh → '\x00' ∉ left ++ right) :
    evalText shell (effectText toJson shell left right) = some (intendedEffect shell left right) := by
  cases shell with
  | bash => exact evalText_bash _ (hnul (Or.inl rfl))
  | zsh =>
    have hmem := hnul (Or.inr rfl)
    rw [List.mem_append, not_or] at hmem
    exact evalText_zsh hmem.1 hmem.2
  | pwsh => exact evalText_pwsh _ _
  | clink => exact evalText_clink _ _
  | nu => exact evalText_nu hjson _ _

-- ════════════════════════════════════════════════════════════════════════
-- One trigger key
-- ════════════════════════════════════════════════════════════════════════

/-- The trigger key of a shell. The program is run with the line as text or as hex. -/
def triggerKey (shell : Shell) (bin : Text) (run : Option Text → Option Text → ℕ → Ran)
    (state : ShellEffect) : Option ShellEffect :=
  let runLine : Text → ℕ → Ran := fun line cursor => run (some line) none cursor
  let runHex : Text → ℕ → Ran := fun hex cursor => run none (some hex) cursor
  match shell, state with
  | .bash, .buffer line point => bashExpand runLine line point
  | .zsh, .halves left right => zshExpand runLine left right
  | .pwsh, .buffer line cursor => pwshExpand runHex line cursor
  | .clink, .buffer line caret => clinkExpand bin runHex line caret
  | .nu, .buffer line cursor => nuExpand runLine line cursor
  | _, _ => none

/-- The run of the program that the trigger key of a shell makes on a buffer. -/
def triggerRun (shell : Shell) (run : Option Text → Option Text → ℕ → Ran) (left right : Text) :
    Ran :=
  match shell with
  | .bash | .zsh | .nu => run (some (left ++ right)) none left.length
  | .pwsh => run none (some (hexLineUpper (left ++ right))) (utf16Len left)
  | .clink => run none (some (hexLineUpper (left ++ right))) left.length

variable {toJson : Text → Text} {shell : Shell} {bin : Text}
  {run : Option Text → Option Text → ℕ → Ran} {left right left' right' : Text}

/-- A run that fails costs a space, and so does one that does not start, but not in nu. -/
theorem triggerKey_of_no_output (hrun : triggerRun shell run left right = .failed ∨
      shell ≠ .nu ∧ triggerRun shell run left right = .notStarted) :
    triggerKey shell bin run (shellState shell left right) =
      some (shellState shell (left ++ [' ']) right) := by
  cases shell with
  | bash =>
    show bashExpand (fun line cursor => run (some line) none cursor) (left ++ right) left.length = _
    rw [triggerRun] at hrun
    rcases hrun with hrun | ⟨-, hrun⟩ <;>
      simp only [bashExpand, hrun, spaceAtChar_append, shellState]
  | zsh =>
    show zshExpand (fun line cursor => run (some line) none cursor) left right = _
    rw [triggerRun] at hrun
    rcases hrun with hrun | ⟨-, hrun⟩ <;> simp only [zshExpand, hrun, shellState]
  | pwsh =>
    show pwshExpand (fun hex cursor => run none (some hex) cursor) (left ++ right)
      (utf16Len left) = _
    rw [triggerRun] at hrun
    rcases hrun with hrun | ⟨-, hrun⟩ <;>
      simp only [pwshExpand, hrun, spaceAtUtf16_append, shellState]
  | clink =>
    show clinkExpand bin (fun hex cursor => run none (some hex) cursor) (left ++ right)
      (left.length + 1) = _
    rw [triggerRun] at hrun
    cases hcalls : clinkCalls bin (left ++ right) left.length with
    | false => simp [clinkExpand, hcalls, shellState]
    | true => rcases hrun with hrun | ⟨-, hrun⟩ <;> simp [clinkExpand, hcalls, hrun, shellState]
  | nu =>
    show nuExpand (fun line cursor => run (some line) none cursor) (left ++ right) left.length = _
    rw [triggerRun] at hrun
    rcases hrun with hrun | ⟨hne, -⟩
    · simp only [nuExpand, hrun, spaceAtChar_append, shellState]
    · exact absurd rfl hne

/-- In nu the key does nothing when the program does not start. -/
theorem triggerKey_nu_notStarted (hrun : triggerRun .nu run left right = .notStarted) :
    triggerKey .nu bin run (shellState .nu left right) = some (shellState .nu left right) := by
  show nuExpand (fun line cursor => run (some line) none cursor) (left ++ right) left.length = _
  rw [triggerRun] at hrun
  simp only [nuExpand, hrun, shellState]

/-- clink does not call the program, or the buffer would stay as it is. -/
theorem triggerKey_clink_space (hnot : clinkCalls bin (left ++ right) left.length = false ∨
      ∃ left' right', triggerRun .clink run left right =
        .printed (effectText toJson .clink left' right' ++ ['\n']) ∧
      left' ++ right' = left ++ right) :
    triggerKey .clink bin run (shellState .clink left right) =
      some (shellState .clink (left ++ [' ']) right) := by
  show clinkExpand bin (fun hex cursor => run none (some hex) cursor) (left ++ right)
    (left.length + 1) = _
  rcases hnot with hnot | ⟨left', right', hrun, hsame⟩
  · simp [clinkExpand, hnot, shellState]
  · rw [triggerRun] at hrun
    have hread : evalText .clink (effectText toJson .clink left' right') =
        some (.buffer (left' ++ right') left'.length) := evalText_clink _ _
    have hne := effectText_ne_nil toJson .clink left' right'
    cases hcalls : clinkCalls bin (left ++ right) left.length with
    | false => simp [clinkExpand, hcalls, shellState]
    | true =>
      simp [clinkExpand, hcalls, hrun, commandSubstitution_effectText, hread, hsame, shellState]

/-- The shell takes over the buffer and caret that are printed, clink only if the buffer changes. -/
theorem triggerKey_of_effectText (hjson : WritesJson toJson)
    (hnul : shell = .bash ∨ shell = .zsh → '\x00' ∉ left' ++ right')
    (hcalls : shell = .clink →
      clinkCalls bin (left ++ right) left.length = true ∧ left' ++ right' ≠ left ++ right)
    (hrun : triggerRun shell run left right =
      .printed (effectText toJson shell left' right' ++ ['\n'])) :
    triggerKey shell bin run (shellState shell left right) =
      some (shellState shell left' right') := by
  have hread := evalText_effectText hjson shell hnul
  have hne := effectText_ne_nil toJson shell left' right'
  cases shell with
  | bash =>
    show bashExpand (fun line cursor => run (some line) none cursor) (left ++ right) left.length = _
    rw [triggerRun] at hrun
    simp only [bashExpand, hrun, commandSubstitution_effectText, if_pos hne, hread]
    rfl
  | zsh =>
    show zshExpand (fun line cursor => run (some line) none cursor) left right = _
    rw [triggerRun] at hrun
    simp only [zshExpand, hrun, commandSubstitution_effectText, if_pos hne, hread]
    rfl
  | pwsh =>
    show pwshExpand (fun hex cursor => run none (some hex) cursor) (left ++ right)
      (utf16Len left) = _
    rw [triggerRun] at hrun
    obtain ⟨first, second, hlines, hjoin⟩ := outputLines_effectText toJson left' right'
    simp only [pwshExpand, hrun, hlines, hjoin, hread]
    rfl
  | clink =>
    show clinkExpand bin (fun hex cursor => run none (some hex) cursor) (left ++ right)
      (left.length + 1) = _
    rw [triggerRun] at hrun
    obtain ⟨hcalls, hchanged⟩ := hcalls rfl
    simp only [clinkExpand, Nat.add_sub_cancel, hcalls, if_true, hrun,
      commandSubstitution_effectText, hread, List.append_eq_nil_iff, hne, false_and, if_false,
      intendedEffect, if_pos hchanged]
    rfl
  | nu =>
    show nuExpand (fun line cursor => run (some line) none cursor) (left ++ right) left.length = _
    rw [triggerRun] at hrun
    simp only [nuExpand, hrun, trimEnd_effectText, if_neg hne, hread]
    rfl

end Runex
