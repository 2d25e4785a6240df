import Runex.Lib.Search
import Runex.Domain.Model
import Runex.Domain.Shell

/-!
# Expansion

Matching a token against a rule, rendering the rule's template, and scanning a configuration
phase by phase for the first rule that fires. `whichAbbr` is the separately written scan that
explains the outcome. A `none` of `whichAbbr` is a panic.

## Main definitions

- `RegexLite` — what the program uses of its regular-expression engine
- `matchRule` — one rule against one token, yielding its `Bindings`
- `renderWithCursor` — the text a matched rule inserts, and the cursor offset
- `expand`, `tryExpandRule` — the scan that expands a token
- `whichAbbr`, `tryWhichRule` — the scan that explains it
-/

namespace Runex

open Search

/-- What the program uses of the regular-expression engine: `build` compiles a pattern under the
    size limit or reports an error text, `captureNames` lists the names of the groups of a compiled
    pattern (group 0 is the whole match), and `captures` gives the text of every group that took
    part when the pattern matches. -/
structure RegexLite where
  Regex : Type
  build : Text → Except Text Regex
  captureNames : Regex → List (Option Text)
  captures : Regex → Text → Option (ℕ → Option Text)

/-- An engine that compiles nothing. -/
instance : Inhabited RegexLite where
  default :=
    { Regex := Empty, build := fun _ => .error [], captureNames := nofun, captures := nofun }

/-- `{number}` placeholder marker. -/
def numberPlaceholder : Text := ['{', 'n', 'u', 'm', 'b', 'e', 'r', '}']

/-- The capture of a glob key's `*`. -/
def globCapturePlaceholder : Text := ['{', '*', '}']

/-- The placeholder `{*}` without its braces. -/
def globCaptureName : Text := ['*']

/-- Upper bound on the value captured by `{number}`. -/
def maxNumericRepeat : ℕ := 128

/-- Hard ceiling on a rendered expansion. -/
def maxRenderedExpandBytes : ℕ := 4096

/-- Upper bound on capture groups in a regex key. -/
def maxRegexGroups : ℕ := 16

/-- One capture group of a regex key; `text` is empty when the group did not take part. -/
structure RegexGroup where
  name : Option Text
  text : Text
  deriving DecidableEq, Repr

/-- Captures extracted from a token. -/
structure Bindings where
  number : Option ℕ := none
  glob : Option Text := none
  regex : Option (List RegexGroup) := none
  deriving DecidableEq, Repr

/-- Matching phase of a rule. -/
inductive Phase where
  | exact
  | number
  | glob
  | regex
  deriving DecidableEq, Repr

/-- `PHASES`: a rule in an earlier phase beats every rule in a later one. -/
def phases : List Phase := [.exact, .number, .glob, .regex]

def phaseOf (abbr : Abbr) : Phase :=
  match abbr.matchKind with
  | some .glob => .glob
  | some .regex => .regex
  | none => if '{' ∈ abbr.key then .number else .exact

section Phases

variable {abbr : Abbr}

theorem phaseOf_eq_exact : phaseOf abbr = .exact ↔ abbr.matchKind = none ∧ '{' ∉ abbr.key := by
  unfold phaseOf
  split <;> simp_all

theorem phaseOf_eq_number : phaseOf abbr = .number ↔ abbr.matchKind = none ∧ '{' ∈ abbr.key := by
  unfold phaseOf
  split <;> simp_all

theorem phaseOf_eq_glob : phaseOf abbr = .glob ↔ abbr.matchKind = some .glob := by
  unfold phaseOf
  split <;> simp_all
  split <;> simp

theorem phaseOf_eq_regex : phaseOf abbr = .regex ↔ abbr.matchKind = some .regex := by
  unfold phaseOf
  split <;> simp_all
  split <;> simp

end Phases

-- ════════════════════════════════════════════════════════════════════════
-- Matching
-- ════════════════════════════════════════════════════════════════════════

/-- `^(?:key)$`. -/
def wrapRegexKey (key : Text) : Text := "^(?:".toList ++ (key ++ ")$".toList)

def compileRegexKey (engine : RegexLite) (key : Text) : Except Text engine.Regex :=
  engine.build (wrapRegexKey key)

/-- Validate a regex key and return how many capture groups it has. The key must compile on its
    own and wrapped. -/
def regexKeyGroupCount (engine : RegexLite) (key : Text) : Except Text ℕ := do
  let alone ← engine.build key
  let _ ← compileRegexKey engine key
  let groups := (engine.captureNames alone).length - 1
  if groups > maxRegexGroups then
    .error (decimal groups ++ (" capture groups (at most ".toList ++
      (decimal maxRegexGroups ++ " are allowed)".toList)))
  else .ok groups

/-- Match a regex key: every capture group, group 1 first. -/
def matchRegexKey (engine : RegexLite) (key token : Text) : Option (List RegexGroup) :=
  match compileRegexKey engine key with
  | .error _ => none
  | .ok regex =>
    (engine.captures regex token).map fun captures =>
      ((engine.captureNames regex).zipIdx.drop 1).map fun (name, i) =>
        { name := name, text := (captures i).getD [] }

/-- The group number written as `{1}`..`{9}`. -/
def regexGroupNumber (placeholderName : Text) : Option ℕ :=
  match placeholderName with
  | [digit] => if '1' ≤ digit ∧ digit ≤ '9' then some (digit.toNat - '0'.toNat) else none
  | _ => none

/-- Equal-length comparison where `?` accepts any character. -/
def globFixedPartMatches (pattern text : Text) : Bool :=
  pattern.length == text.length && (pattern.zip text).all fun (p, t) => p == '?' || p == t

/-- Match a glob key: the text its `*` matched, or the empty text when it has none. -/
def matchGlobKey (key token : Text) : Option Text :=
  match splitOnce ['*'] key with
  | none => if globFixedPartMatches key token then some [] else none
  | some (head, tail) =>
    if token.length < head.length + tail.length then none
    else
      let middleEnd := token.length - tail.length
      if globFixedPartMatches head (token.take head.length) &&
          globFixedPartMatches tail (token.drop middleEnd) then
        some ((token.take middleEnd).drop head.length)
      else none

/-- Split a key at its single `{number}`; `none` when another `{` is left over. -/
def splitOnceNumberPlaceholder (key : Text) : Option (Text × Text) :=
  match splitOnce numberPlaceholder key with
  | none => none
  | some (pre, suf) => if '{' ∈ pre ∨ '{' ∈ suf then none else some (pre, suf)

/-- `str::parse::<u32>` on ASCII digits. -/
def parseU32 (digits : Text) : Option ℕ :=
  let n := Nat.ofDigitChars 10 digits 0
  if n < 2 ^ 32 then some n else none

/-- Match a key that may contain `{number}`. -/
def matchAbbrKey (key token : Text) : Option Bindings :=
  if '{' ∉ key then if key = token then some {} else none
  else
    match splitOnceNumberPlaceholder key with
    -- Unrecognised placeholder: literal comparison.
    | none => if key = token then some {} else none
    | some (pre, suf) => do
      let rest ← stripPrefix? pre token
      let rest ← stripSuffix? suf rest
      if rest = [] ∨ ¬ rest.all Text.isAsciiDigit then none
      else
        let n ← parseU32 rest
        if n = 0 ∨ n > maxNumericRepeat then none else some { number := some n }

/-- Match one rule against a token, honouring its `match` field. -/
def matchRule (engine : RegexLite) (abbr : Abbr) (token : Text) : Option Bindings :=
  match abbr.matchKind with
  | some .glob => (matchGlobKey abbr.key token).map fun captured => { glob := some captured }
  | some .regex =>
    (matchRegexKey engine abbr.key token).map fun groups => { regex := some groups }
  | none => matchAbbrKey abbr.key token

-- ════════════════════════════════════════════════════════════════════════
-- Rendering
-- ════════════════════════════════════════════════════════════════════════

/-- The capture that `{name}` stands for, if the bindings provide one. -/
def resolveCapture (name : Text) (bindings : Bindings) : Option Text :=
  if name = globCaptureName then bindings.glob
  else do
    let groups ← bindings.regex
    let group ← match regexGroupNumber name with
      | some number => groups[number - 1]?
      | none => groups.find? fun group => group.name == some name
    some group.text

theorem length_of_splitOnce {c : Char} {s before after : Text}
    (h : splitOnce [c] s = some (before, after)) : after.length < s.length := by
  have := congrArg List.length (eq_append_of_splitOnce h)
  simp only [List.length_append, List.length_singleton] at this
  omega

/-- The placeholder that the text after an opening brace completes: its capture, and the text
    after the closing brace. -/
def resolvedAfterOpen (afterOpen : Text) (bindings : Bindings) : Option (Text × Text) :=
  match splitOnce ['}'] afterOpen with
  | none => none
  | some (name, after) => (resolveCapture name bindings).map fun capture => (capture, after)

theorem resolvedAfterOpen_length {afterOpen capture after : Text} {bindings : Bindings}
    (h : resolvedAfterOpen afterOpen bindings = some (capture, after)) :
    after.length < afterOpen.length := by
  unfold resolvedAfterOpen at h
  split at h
  · simp at h
  · next name rest hsplit =>
    simp only [Option.map_eq_some_iff, Prod.mk.injEq] at h
    obtain ⟨_, _, _, rfl⟩ := h
    exact length_of_splitOnce hsplit

/-- The pieces `for_each_rendered_piece` emits, in order. -/
def renderedPieces (rest : Text) (bindings : Bindings) : List Text :=
  match _hopen : splitOnce ['{'] rest with
  | none => [rest]
  | some (before, afterOpen) =>
    match _hres : resolvedAfterOpen afterOpen bindings with
    | some (capture, after) => before :: capture :: renderedPieces after bindings
    | none => (before ++ ['{']) :: renderedPieces afterOpen bindings
termination_by rest.length
decreasing_by
  · have := length_of_splitOnce _hopen
    have := resolvedAfterOpen_length _hres
    omega
  · exact length_of_splitOnce _hopen

/-- Replace the capture placeholders of `text`; refused when the result exceeds the cap, which is
    measured on a first pass over the same pieces. -/
def substituteCaptures (text : Text) (bindings : Bindings) : Option Text :=
  let finalLen := ((renderedPieces text bindings).map Text.byteLen).sum
  if finalLen > maxRenderedExpandBytes then none
  else some (renderedPieces text bindings).flatten

/-- Apply the `{number}` repetition. -/
def renderNumber (abbr : Abbr) (template : Text) (bindings : Bindings) : Option Text :=
  match bindings.number with
  | none => some template
  | some n => do
    let unit ← abbr.number
    if Text.byteLen unit * n > maxRenderedExpandBytes then none
    else
      let repeated := (List.replicate n unit).flatten
      let rendered := replaceAll numberPlaceholder repeated template
      if Text.byteLen rendered > maxRenderedExpandBytes then none else some rendered

/-- The text around the first cursor placeholder, if there is one. -/
def extractCursorPlaceholder (text : Text) : Text × Option ℕ :=
  match splitOnce cursorPlaceholder text with
  | some (left, right) => (left ++ right, some (Text.byteLen left))
  | none => (text, none)

/-- Render the text to insert and the cursor offset. The cursor placeholder is located before
    captures are substituted, so a `{}` inside a capture stays literal. -/
def renderWithCursor (abbr : Abbr) (template : Text) (bindings : Bindings) :
    Option (Text × Option ℕ) := do
  let base ← renderNumber abbr template bindings
  let (text, cursor) := extractCursorPlaceholder base
  match cursor with
  | none =>
    let rendered ← substituteCaptures text bindings
    some (rendered, none)
  | some pos =>
    let left ← substituteCaptures (← Text.sliceTo? text pos) bindings
    let right ← substituteCaptures (← Text.sliceFrom? text pos) bindings
    let joined := left ++ right
    if Text.byteLen joined ≤ maxRenderedExpandBytes then some (joined, some (Text.byteLen left))
    else none

-- ════════════════════════════════════════════════════════════════════════
-- Expanding a token
-- ════════════════════════════════════════════════════════════════════════

/-- Empty or white space once the cursor placeholder is removed. -/
def isBlankExpansion (renderedText : Text) : Bool := Text.isBlank renderedText

/-- An exact rule whose expansion is its own key. -/
def isExactSelfLoop (abbr : Abbr) (template : Text) : Bool :=
  phaseOf abbr == .exact && abbr.key == template

/-- A glob or regex rule whose rendered text is the token. -/
def isPatternSelfLoop (abbr : Abbr) (renderedText token : Text) : Bool :=
  (phaseOf abbr == .glob || phaseOf abbr == .regex) && renderedText == token

/-- Apply one rule with prepared bindings: `none` skips it and the scan goes on. -/
def tryExpandRule (abbr : Abbr) (token : Text) (shell : Shell) (commandExists : Text → Bool)
    (bindings : Bindings) : Option ExpandResult := do
  let template ← abbr.expand.forShell shell
  if isExactSelfLoop abbr template then none
  else
    match abbr.whenCommandExists with
    | some cmds =>
      let list ← cmds.forShell shell
      if !list.all commandExists then none else fire template
    | none => fire template
where
  fire (template : Text) : Option ExpandResult := do
    let (text, cursorOffset) ← renderWithCursor abbr template bindings
    if isBlankExpansion text || isPatternSelfLoop abbr text token then none
    else some (.expanded text cursorOffset)

/-- Expand a token: the phases in order, and within a phase the rules in config order. -/
def expand (engine : RegexLite) (config : Config) (token : Text) (shell : Shell)
    (commandExists : Text → Bool) : ExpandResult :=
  let fired := phases.findSome? fun phase =>
    (config.abbr.filter fun abbr => phaseOf abbr == phase).findSome? fun abbr =>
      (matchRule engine abbr token).bind fun bindings =>
        tryExpandRule abbr token shell commandExists bindings
  fired.getD (.passThrough token)

-- ════════════════════════════════════════════════════════════════════════
-- Explaining the outcome
-- ════════════════════════════════════════════════════════════════════════

/-- Why a matching rule was skipped. -/
inductive SkipReason where
  | selfLoop
  | conditionFailed (foundCommands missingCommands : List Text)
  | noShellEntry
  | blankExpansion
  deriving DecidableEq, Repr

/-- Result of a `which` lookup. -/
inductive WhichResult where
  | expanded (key expansion : Text) (ruleIndex : ℕ) (satisfiedConditions : List Text)
      (skipped : List (ℕ × SkipReason))
  | allSkipped (token : Text) (skipped : List (ℕ × SkipReason))
  | noMatch (token : Text)
  deriving DecidableEq, Repr

inductive WhichOutcome where
  | hit (expansion : Text) (satisfied : List Text)
  | skip (reason : SkipReason)
  deriving DecidableEq, Repr

/-- Put the cursor placeholder back into rendered text; `insert_str` panics off a boundary. -/
def withCursorMarker (text : Text) (cursor : Option ℕ) : Option Text :=
  match cursor with
  | none => some text
  | some pos => (Text.splitAt? text pos).map fun (left, right) => left ++ (cursorPlaceholder ++ right)

/-- The guard chain of `which` for one matched rule. -/
def tryWhichRule (abbr : Abbr) (token : Text) (shell : Shell) (commandExists : Text → Bool)
    (bindings : Bindings) : Option WhichOutcome :=
  match abbr.expand.forShell shell with
  | none => some (.skip .noShellEntry)
  | some template =>
    if isExactSelfLoop abbr template then some (.skip .selfLoop)
    else
      match abbr.whenCommandExists with
      | some cmds =>
        match cmds.forShell shell with
        | none => some (.skip .noShellEntry)
        | some list =>
          let (found, missing) := list.partition commandExists
          if missing ≠ [] then some (.skip (.conditionFailed found missing))
          else rendered template list
      | none => rendered template []
where
  rendered (template : Text) (satisfied : List Text) : Option WhichOutcome :=
    match renderWithCursor abbr template bindings with
    -- Length cap or missing unit: reported as a self-loop.
    | none => some (.skip .selfLoop)
    | some (text, cursor) =>
      if isBlankExpansion text then some (.skip .blankExpansion)
      else if isPatternSelfLoop abbr text token then some (.skip .selfLoop)
      else (withCursorMarker text cursor).map fun expansion => .hit expansion satisfied

/-- The rules with their indices, phase by phase and in config order within a phase. -/
def rulesInPhaseOrder (config : Config) : List (ℕ × Abbr) :=
  phases.flatMap fun phase =>
    (config.abbr.zipIdx.filter fun (abbr, _) => phaseOf abbr == phase).map fun (abbr, i) => (i, abbr)

/-- The loop of `which_abbr` over the remaining rules, with its two accumulators. -/
def whichLoop (engine : RegexLite) (token : Text) (shell : Shell) (commandExists : Text → Bool) :
    List (ℕ × Abbr) → List (ℕ × SkipReason) → Bool → Option WhichResult
  | [], skipped, anyKeyMatched =>
    some (if anyKeyMatched then .allSkipped token skipped else .noMatch token)
  | (i, abbr) :: rules, skipped, anyKeyMatched =>
    match matchRule engine abbr token with
    | none => whichLoop engine token shell commandExists rules skipped anyKeyMatched
    | some bindings =>
      match tryWhichRule abbr token shell commandExists bindings with
      | none => none
      | some (.hit expansion satisfied) =>
        some (.expanded abbr.key expansion i satisfied skipped)
      | some (.skip reason) =>
        whichLoop engine token shell commandExists rules (skipped ++ [(i, reason)]) true

/-- Look up a token and say why it expands or does not. -/
def whichAbbr (engine : RegexLite) (config : Config) (token : Text) (shell : Shell)
    (commandExists : Text → Bool) : Option WhichResult :=
  whichLoop engine token shell commandExists (rulesInPhaseOrder config) [] false

end Runex
