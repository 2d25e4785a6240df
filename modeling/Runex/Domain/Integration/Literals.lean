import Runex.App.Hook.EvalText
import Runex.Domain.Integration
import Runex.Lib.ShellLiteral.Delimited

/-!
# Path literals

What the quoting functions for paths write is read back with the literal grammar of the shell that
runs it. Bash, Zsh and Lua literals always are the path, without what their function drops. A
PowerShell literal is when the path has none of the other four single quotes of that grammar, and
a nu command name when it has no invisible character, which its function drops without saying so.

## Main definitions

- `PathLiterals` — every literal made of a path is one literal of its shell, with the right value
- `readIntegrationLine` — the two paths of the line that sources the cache

## Main results

- `scan_pwshQuoteString_iff` — when a PowerShell literal is right
- `scan_nuQuoteString_iff` — when a nu literal is right
- `path_literals_iff` — when all literals of a path are
-/

namespace Runex

open ShellLiteral Search
open TakeWithin (total total_append total_cons)
open Text (isAsciiControl)

-- ════════════════════════════════════════════════════════════════════════
-- What the functions say they drop
-- ════════════════════════════════════════════════════════════════════════

/-- A path without the characters a function drops. -/
def without (dropped : Char → Bool) (path : Text) : Text := path.filter fun c => !dropped c

/-- `bash_quote_string` and `pwsh_quote_string`: ASCII control characters and Unicode line and
    paragraph separators. -/
def droppedFromQuotes (c : Char) : Bool := isAsciiControl c || isUnicodeLineSeparator c

/-- `nu_quote_string`: the same, but not the three it escapes. -/
def droppedFromNuQuotes (c : Char) : Bool :=
  !(c == '\n' || c == '\r' || c == '\t') && droppedFromQuotes c

/-- `sanitize_nu_cache_path_literal`: the delimiter, control characters and visual deception. -/
def droppedFromNuPath (c : Char) : Bool := c == '\'' || isAsciiControl c || isDeceptiveUnicode c

/-- The path in the line of a shell. -/
def linePath (shell : Shell) (path : Text) : Text :=
  match shell with
  | .nu => without droppedFromNuPath path
  | .bash | .zsh | .pwsh | .clink => without droppedFromQuotes path

/-- The two literals of a line that is nothing but fixed text around them. -/
def readGuarded {σ : Type} (M : Scanner σ Char Char) (start : σ)
    (opening middle closing line : Text) : Option (Text × Text) := do
  let line ← stripPrefix? opening line
  let (guarded, line) ← M.scan start line
  let line ← stripPrefix? middle line
  let (sourced, line) ← M.scan start line
  if line = closing then some (guarded, sourced) else none

/-- The path that is tested and the path that is sourced. No shell runs the clink line. -/
def readIntegrationLine (shell : Shell) (line : Text) : Option (Text × Text) :=
  match shell with
  | .bash | .zsh => readGuarded bashWord .bare "[ -r ".toList " ] && . ".toList [] line
  | .pwsh =>
    readGuarded pwshSingle .start "if (Test-Path ".toList ") \x7b . ".toList " \x7d".toList line
  | .nu =>
    readGuarded nuSingle .start "if (".toList " | path exists) \x7b source ".toList " \x7d".toList
      line
  | .clink => none

/-- Every literal made of a path is one literal of its shell, and its value is the path without
    the characters its function says it drops. A Lua value is bytes. -/
structure PathLiterals (path : Text) : Prop where
  bash : bashWord.scan .bare (bashQuoteString path) = some (without droppedFromQuotes path, [])
  pwsh : pwshSingle.scan .start (pwshQuoteString path) = some (without droppedFromQuotes path, [])
  lua : luaString.scan .start (luaQuoteString path) =
    some (path.flatMap String.utf8EncodeChar, [])
  nu : ∃ literal, nuQuoteString path = '^' :: literal ∧
    nuString.scan .start literal = some (without droppedFromNuQuotes path, [])
  lines : ∀ shell, shell ≠ .clink → readIntegrationLine shell (integrationLine shell path) =
    some (linePath shell path, linePath shell path)

-- ════════════════════════════════════════════════════════════════════════
-- Literals that keep or drop each character
-- ════════════════════════════════════════════════════════════════════════

/-- Kept characters one by one. -/
theorem flatMap_kept (dropped : Char → Bool) (s : Text) :
    (s.flatMap fun c => if dropped c = true then [] else [c]) = without dropped s := by
  induction s with
  | nil => rfl
  | cons c s ih =>
    rw [List.flatMap_cons, ih, without, without, List.filter_cons]
    cases dropped c <;> rfl

theorem mem_without {dropped : Char → Bool} {s : Text} {c : Char} :
    c ∈ without dropped s ↔ c ∈ s ∧ dropped c = false := by
  simp [without]

/-- A character that is itself in a literal, where it is not dropped. -/
theorem drive_kept {σ : Type} {M : Scanner σ Char Char} {mode : σ} {c : Char}
    (hstep : M.step mode c = .move mode [c]) (dropped : Char → Bool) :
    M.drive mode (if dropped c = true then [] else [c]) =
      some (mode, if dropped c = true then [] else [c]) := by
  split
  · rfl
  · rw [Scanner.drive_cons hstep]
    rfl

theorem drive_bashQuoteStringChar (c : Char) :
    bashWord.drive .single (bashQuoteStringChar c) =
      some (.single, if droppedFromQuotes c = true then [] else [c]) := by
  by_cases hquote : c = '\''
  · subst hquote
    decide
  · have hpiece : bashQuoteStringChar c = if droppedFromQuotes c = true then [] else [c] :=
      if_neg hquote
    have hstep : bashWord.step .single c = .move .single [c] := by
      simp [bashWord, bashStep, hquote]
    rw [hpiece, drive_kept hstep]

/-- A path in Bash or Zsh is one word. -/
theorem scan_bashQuoteString (path : Text) {rest : Text}
    (hrest : ∀ c ∈ rest.head?, endsBashWord c = true) :
    bashWord.scan .bare (bashQuoteString path ++ rest) =
      some (without droppedFromQuotes path, rest) := by
  have h : bashWord.scan .bare (['\''] ++ (path.flatMap bashQuoteStringChar ++ ['\'']) ++ rest) =
      some (path.flatMap fun c => if droppedFromQuotes c = true then [] else [c], rest) :=
    Scanner.scan_delimited rfl (fun c _ => drive_bashQuoteStringChar c) rfl (bashWord_ends hrest)
  rwa [flatMap_kept] at h

theorem drive_pwshQuoteStringChar {c : Char} (hsmart : isSmartSingleQuote c = false) :
    pwshSingle.drive .inside (pwshQuoteStringChar c) =
      some (.inside, if droppedFromQuotes c = true then [] else [c]) := by
  by_cases hquote : c = '\''
  · subst hquote
    decide
  · have hpiece : pwshQuoteStringChar c = if droppedFromQuotes c = true then [] else [c] :=
      if_neg hquote
    have hstep : pwshSingle.step .inside c = .move .inside [c] := by
      simp [pwshSingle, pwshSingleStep, isPwshSingleQuote, hquote, hsmart]
    rw [hpiece, drive_kept hstep]

/-- Without the other single quotes a path in PowerShell is one literal. -/
theorem scan_pwshQuoteString {path rest : Text} (hsmart : ∀ c ∈ path, isSmartSingleQuote c = false)
    (hrest : ∀ c ∈ rest.head?, isPwshSingleQuote c = false) :
    pwshSingle.scan .start (pwshQuoteString path ++ rest) =
      some (without droppedFromQuotes path, rest) := by
  have h : pwshSingle.scan .start (['\''] ++ (path.flatMap pwshQuoteStringChar ++ ['\'']) ++ rest) =
      some (path.flatMap fun c => if droppedFromQuotes c = true then [] else [c], rest) :=
    Scanner.scan_delimited rfl (fun c hc => drive_pwshQuoteStringChar (hsmart c hc)) rfl
      (pwshSingle_ends hrest)
  rwa [flatMap_kept] at h

/-- The characters the code drops from a nu command name: those documented, and the deceptive. -/
theorem isNuDropChar_eq (c : Char) :
    isNuDropChar c = (droppedFromNuQuotes c || isDeceptiveUnicode c) := by
  have hescaped : (c == '\n' || c == '\r' || c == '\t') = true → isDeceptiveUnicode c = false := by
    simp only [Bool.or_eq_true, beq_iff_eq]
    rintro ((rfl | rfl) | rfl) <;> decide
  unfold isNuDropChar droppedFromNuQuotes isUnsafeForDisplay droppedFromQuotes
  cases hc : (c == '\n' || c == '\r' || c == '\t') with
  | true => simp [hescaped hc]
  | false => simp

theorem drive_nuQuoteChar (c : Char) :
    nuString.drive .inside (nuQuoteChar c) =
      some (.inside, if isNuDropChar c = true then [] else [c]) := by
  by_cases hspecial : c ∈ ['\\', '"', '\n', '\r', '\t', '$']
  · simp only [List.mem_cons, List.not_mem_nil, or_false] at hspecial
    rcases hspecial with rfl | rfl | rfl | rfl | rfl | rfl <;> decide
  · simp only [List.mem_cons, List.not_mem_nil, or_false, not_or] at hspecial
    obtain ⟨hbackslash, hquote, hlf, hcr, htab, hdollar⟩ := hspecial
    have hnone : doubleQuoteEscape c = none := by
      unfold doubleQuoteEscape
      split <;> simp_all
    have hpiece : nuQuoteChar c = if isNuDropChar c = true then [] else [c] := by
      simp [nuQuoteChar, hnone, hdollar]
    have hstep : nuString.step .inside c = .move .inside [c] := by
      simp [nuString, nuStep, hquote, hbackslash]
    rw [hpiece, drive_kept hstep]

/-- A nu command name is one literal after its caret. -/
theorem scan_nuQuoteString (path rest : Text) :
    nuString.scan .start ('"' :: (path.flatMap nuQuoteChar ++ ['"']) ++ rest) =
      some (without isNuDropChar path, rest) := by
  have h : nuString.scan .start (['"'] ++ (path.flatMap nuQuoteChar ++ ['"']) ++ rest) =
      some (path.flatMap fun c => if isNuDropChar c = true then [] else [c], rest) :=
    Scanner.scan_delimited rfl (fun c _ => drive_nuQuoteChar c) rfl (nuString_ends rest)
  rwa [flatMap_kept] at h

/-- The path in nu's single quotes is one literal. -/
theorem scan_nuSingle (path rest : Text) :
    nuSingle.scan .start ('\'' :: (sanitizeNuCachePathLiteral path ++ ['\'']) ++ rest) =
      some (sanitizeNuCachePathLiteral path, rest) := by
  have hstep : ∀ c ∈ sanitizeNuCachePathLiteral path,
      nuSingle.drive .inside [c] = some (.inside, [c]) := by
    intro c hc
    have hquote : c ≠ '\'' := by
      rintro rfl
      simp [sanitizeNuCachePathLiteral] at hc
    have hmove : nuSingle.step .inside c = .move .inside [c] := by
      simp [nuSingle, nuSingleStep, hquote]
    rw [Scanner.drive_cons hmove]
    rfl
  have h : nuSingle.scan .start (['\''] ++ ((sanitizeNuCachePathLiteral path).flatMap
      (fun c => [c]) ++ ['\'']) ++ rest) =
      some ((sanitizeNuCachePathLiteral path).flatMap fun c => [c], rest) :=
    Scanner.scan_delimited rfl hstep rfl (nuSingle_ends rest)
  rwa [List.flatMap_singleton'] at h

theorem sanitizeNuCachePathLiteral_eq (path : Text) :
    sanitizeNuCachePathLiteral path = without droppedFromNuPath path := by
  refine List.filter_congr fun c _ => ?_
  have hcontrol : c.toNat > 0x1F → c ≠ '\n' ∧ c ≠ '\r' ∧ c ≠ '\t' := by
    intro h
    refine ⟨?_, ?_, ?_⟩ <;> rintro rfl <;> exact absurd h (by decide)
  rw [Bool.eq_iff_iff]
  simp only [droppedFromNuPath, isAsciiControl, Bool.and_eq_true, Bool.not_eq_true',
    Bool.or_eq_false_iff, beq_eq_false_iff_ne, bne_iff_ne, decide_eq_true_eq,
    decide_eq_false_iff_not]
  constructor
  · rintro ⟨⟨⟨⟨⟨⟨hquote, -⟩, -⟩, -⟩, hlow⟩, hdelete⟩, hdeceptive⟩
    exact ⟨⟨hquote, by omega, hdelete⟩, hdeceptive⟩
  · rintro ⟨⟨hquote, hlow, hdelete⟩, hdeceptive⟩
    obtain ⟨hlf, hcr, htab⟩ := hcontrol (by omega)
    exact ⟨⟨⟨⟨⟨⟨hquote, hlf⟩, hcr⟩, htab⟩, by omega⟩, hdelete⟩, hdeceptive⟩

-- ════════════════════════════════════════════════════════════════════════
-- What goes wrong
-- ════════════════════════════════════════════════════════════════════════

theorem not_dropped_of_isSmartSingleQuote {c : Char} (h : isSmartSingleQuote c = true) :
    droppedFromQuotes c = false := by
  simp only [isSmartSingleQuote, Bool.and_eq_true, decide_eq_true_eq] at h
  simp only [droppedFromQuotes, isAsciiControl, isUnicodeLineSeparator, inCharRange,
    Bool.or_eq_false_iff, Bool.and_eq_false_iff, decide_eq_false_iff_not, beq_eq_false_iff_ne]
  omega

/-- What is written for a smart quote weighs half of what it should. -/
theorem total_pwshQuoteStringChar (c : Char) :
    total pwshWeight (pwshQuoteStringChar c) + (if isSmartSingleQuote c = true then 1 else 0) =
      2 * (without droppedFromQuotes [c]).length := by
  by_cases hquote : c = '\''
  · subst hquote
    decide
  · have hpiece : pwshQuoteStringChar c = if droppedFromQuotes c = true then [] else [c] :=
      if_neg hquote
    rw [hpiece]
    cases hdropped : droppedFromQuotes c with
    | true =>
      have hplain : isSmartSingleQuote c = false := by
        by_contra hsmart
        rw [not_dropped_of_isSmartSingleQuote (by simpa using hsmart)] at hdropped
        cases hdropped
      simp [without, hdropped, hplain]
    | false =>
      cases hsmart : isSmartSingleQuote c <;>
        simp [without, hdropped, pwshWeight, isPwshSingleQuote, hquote, hsmart]

theorem total_pwshQuoteString (path : Text) :
    total pwshWeight (path.flatMap pwshQuoteStringChar) + path.countP isSmartSingleQuote =
      2 * (without droppedFromQuotes path).length := by
  induction path with
  | nil => rfl
  | cons c path ih =>
    have hone := total_pwshQuoteStringChar c
    have hsplit : without droppedFromQuotes (c :: path) =
        without droppedFromQuotes [c] ++ without droppedFromQuotes path :=
      List.filter_append [c] path
    rw [List.flatMap_cons, total_append, List.countP_cons, hsplit, List.length_append]
    omega

/-- A path in PowerShell is the right literal exactly when it has no smart quote. -/
theorem scan_pwshQuoteString_iff (path : Text) :
    pwshSingle.scan .start (pwshQuoteString path) = some (without droppedFromQuotes path, []) ↔
      ∀ c ∈ path, isSmartSingleQuote c = false := by
  constructor
  · intro h
    obtain ⟨consumed, last, hall, hdrive, hlast⟩ := Scanner.exists_drive_of_scan h
    rw [List.append_nil] at hall
    subst hall
    -- The opening quote has no value; what follows it is weighed.
    have hopen : pwshSingle.step .start '\'' = .move .inside [] := rfl
    rw [pwshQuoteString, Scanner.drive_cons hopen] at hdrive
    obtain ⟨⟨last', value⟩, hinside, hvalue⟩ := Option.map_eq_some_iff.mp hdrive
    obtain ⟨rfl, rfl⟩ := Prod.mk.inj hvalue
    have hweight := total_of_drive (by decide) hinside
    have hpending : last'.pending = 1 := by
      have hclosing : last' = .closing := by simpa [pwshSingle] using hlast rfl
      rw [hclosing]
      rfl
    have hcount := total_pwshQuoteString path
    rw [total_append, show total pwshWeight ['\''] = 1 from rfl, hpending] at hweight
    simp only [PwshSingleMode.pending] at hweight hcount
    have hnone : path.countP isSmartSingleQuote = 0 := by omega
    intro c hc
    simpa using List.countP_eq_zero.mp hnone c hc
  · intro hsmart
    have h := scan_pwshQuoteString hsmart (by simp : ∀ c ∈ ([] : Text).head?, _)
    rwa [List.append_nil] at h

/-- No character is both documented and deceptive. -/
theorem not_dropped_of_isDeceptiveUnicode {c : Char} (h : isDeceptiveUnicode c = true) :
    droppedFromNuQuotes c = false := by
  have hclear : isAsciiControl c = false ∧ isUnicodeLineSeparator c = false := by
    simp only [isDeceptiveUnicode, isSoftHyphen, isCombiningGraphemeJoiner, isArabicLetterMark,
      isHangulFiller, isKhmerInvisibleVowel, isMongolianFreeVariationSelector, isZeroWidth,
      isBidiControl, isInvisibleOperator, isVariationSelector, isBom, isInterlinearAnnotation,
      isTag, inCharRange, Bool.or_eq_true, Bool.and_eq_true, decide_eq_true_eq, beq_iff_eq] at h
    simp only [isAsciiControl, isUnicodeLineSeparator, inCharRange, Bool.or_eq_false_iff,
      Bool.and_eq_false_iff, decide_eq_false_iff_not, beq_eq_false_iff_ne]
    omega
  simp [droppedFromNuQuotes, droppedFromQuotes, hclear.1, hclear.2]

/-- A nu command name is the right literal exactly when it has no deceptive character. -/
theorem scan_nuQuoteString_iff (path : Text) :
    (∃ literal, nuQuoteString path = '^' :: literal ∧
      nuString.scan .start literal = some (without droppedFromNuQuotes path, [])) ↔
      ∀ c ∈ path, isDeceptiveUnicode c = false := by
  have hscan : nuString.scan .start ('"' :: (path.flatMap nuQuoteChar ++ ['"'])) =
      some (without isNuDropChar path, []) := by
    have h := scan_nuQuoteString path []
    rwa [List.append_nil] at h
  have hvalue : (∃ literal, nuQuoteString path = '^' :: literal ∧
      nuString.scan .start literal = some (without droppedFromNuQuotes path, [])) ↔
      without isNuDropChar path = without droppedFromNuQuotes path := by
    constructor
    · rintro ⟨literal, hliteral, h⟩
      obtain rfl := (List.cons.inj hliteral).2
      rw [hscan] at h
      exact (Prod.mk.inj (Option.some.inj h)).1
    · intro h
      exact ⟨_, rfl, by rw [hscan, h]⟩
  rw [hvalue]
  constructor
  · intro h c hc
    by_contra hdeceptive
    rw [Bool.not_eq_false] at hdeceptive
    -- The documented list keeps such a character, so the code has to keep it as well.
    have hkept : c ∈ without isNuDropChar path :=
      h ▸ mem_without.mpr ⟨hc, not_dropped_of_isDeceptiveUnicode hdeceptive⟩
    have hdrop := (mem_without.mp hkept).2
    rw [isNuDropChar_eq, hdeceptive, Bool.or_true] at hdrop
    cases hdrop
  · intro h
    refine List.filter_congr fun c hc => ?_
    rw [isNuDropChar_eq, h c hc, Bool.or_false]

-- ════════════════════════════════════════════════════════════════════════
-- The line in the rc file
-- ════════════════════════════════════════════════════════════════════════

section Line

variable {σ : Type} {M : Scanner σ Char Char} {start : σ} {ends : Char → Bool}
variable {literal value middle : Text} {d : Char}

/-- A line that writes one literal twice is read back, when the text after it ends it. -/
theorem readGuarded_eq (opening closing : Text)
    (hscan : ∀ rest : Text, (∀ c ∈ rest.head?, ends c = true) →
      M.scan start (literal ++ rest) = some (value, rest))
    (hmiddle : middle.head? = some d) (hd : ends d = true)
    (hclosing : ∀ c ∈ closing.head?, ends c = true) :
    readGuarded M start opening middle closing
      (opening ++ (literal ++ (middle ++ (literal ++ closing)))) = some (value, value) := by
  have hguarded := hscan (middle ++ (literal ++ closing)) (by simp [hmiddle, hd])
  have hsourced := hscan closing hclosing
  simp only [readGuarded, stripPrefix?_append, hguarded, hsourced, Option.bind_eq_bind,
    Option.bind_some, if_true]

end Line

theorem readGuarded_bashQuoteString (path : Text) :
    readGuarded bashWord .bare "[ -r ".toList " ] && . ".toList [] (integrationLine .bash path) =
      some (without droppedFromQuotes path, without droppedFromQuotes path) := by
  have h := readGuarded_eq "[ -r ".toList [] (fun _ => scan_bashQuoteString path)
    (by simp : " ] && . ".toList.head? = some ' ') rfl (by simp)
  rw [List.append_nil] at h
  unfold integrationLine
  simpa only [List.append_assoc] using h

theorem readGuarded_pwshQuoteString {path : Text}
    (hsmart : ∀ c ∈ path, isSmartSingleQuote c = false) :
    readGuarded pwshSingle .start "if (Test-Path ".toList ") \x7b . ".toList " \x7d".toList
      (integrationLine .pwsh path) =
      some (without droppedFromQuotes path, without droppedFromQuotes path) := by
  have hscan : ∀ rest : Text, (∀ c ∈ rest.head?, (!isPwshSingleQuote c) = true) →
      pwshSingle.scan .start (pwshQuoteString path ++ rest) =
        some (without droppedFromQuotes path, rest) := fun rest hrest =>
    scan_pwshQuoteString hsmart fun c hc => by simpa using hrest c hc
  have h := readGuarded_eq "if (Test-Path ".toList " \x7d".toList hscan
    (by simp : ") \x7b . ".toList.head? = some ')') rfl (by simp; decide)
  unfold integrationLine
  simpa only [List.append_assoc] using h

theorem readGuarded_nuSingle (path : Text) :
    readGuarded nuSingle .start "if (".toList " | path exists) \x7b source ".toList " \x7d".toList
      (integrationLine .nu path) =
      some (without droppedFromNuPath path, without droppedFromNuPath path) := by
  have hscan : ∀ rest : Text, (∀ c ∈ rest.head?, (fun _ => true) c = true) →
      nuSingle.scan .start ('\'' :: (sanitizeNuCachePathLiteral path ++ ['\'']) ++ rest) =
        some (without droppedFromNuPath path, rest) := fun rest _ => by
    rw [scan_nuSingle, sanitizeNuCachePathLiteral_eq]
  have h := readGuarded_eq "if (".toList " \x7d".toList hscan
    (by simp : " | path exists) \x7b source ".toList.head? = some ' ') rfl (by simp)
  -- The code writes the quotes with the fixed text around them.
  have hopening : "if ('".toList = "if (".toList ++ ['\''] := by simp
  have hmiddle : "' | path exists) \x7b source '".toList =
      '\'' :: (" | path exists) \x7b source ".toList ++ ['\'']) := by simp
  have hclosing : "' \x7d".toList = '\'' :: " \x7d".toList := by simp
  unfold integrationLine
  simp only [hopening, hmiddle, hclosing]
  simpa only [List.append_assoc, List.cons_append, List.nil_append] using h

-- ════════════════════════════════════════════════════════════════════════
-- All literals of a path
-- ════════════════════════════════════════════════════════════════════════

/-- All literals of a path are right exactly when it has no smart quote, which PowerShell reads as
    a delimiter, and no deceptive character, which is missing in nu. -/
theorem path_literals_iff (path : Text) :
    PathLiterals path ↔
      (∀ c ∈ path, isSmartSingleQuote c = false) ∧ ∀ c ∈ path, isDeceptiveUnicode c = false := by
  constructor
  · intro h
    exact ⟨(scan_pwshQuoteString_iff path).mp h.pwsh, (scan_nuQuoteString_iff path).mp h.nu⟩
  · rintro ⟨hsmart, hdeceptive⟩
    refine ⟨?_, (scan_pwshQuoteString_iff path).mpr hsmart, ?_,
      (scan_nuQuoteString_iff path).mpr hdeceptive, ?_⟩
    · have h := scan_bashQuoteString path (by simp : ∀ c ∈ ([] : Text).head?, _)
      rwa [List.append_nil] at h
    · have h := scan_luaQuoteString path []
      rwa [List.append_nil] at h
    · intro shell hshell
      cases shell with
      | bash => exact readGuarded_bashQuoteString path
      | zsh => exact readGuarded_bashQuoteString path
      | pwsh => exact readGuarded_pwshQuoteString hsmart
      | nu => exact readGuarded_nuSingle path
      | clink => exact absurd rfl hshell

/-- A left quotation mark closes the PowerShell literal of the path that is nothing else. -/
theorem pwshQuoteString_smart_quote : ¬ ∀ path, PathLiterals path := by
  intro h
  have hscan : pwshSingle.scan .start (pwshQuoteString ['\u2018']) ≠
      some (without droppedFromQuotes ['\u2018'], []) := by decide
  exact hscan (h ['\u2018']).pwsh

end Runex
