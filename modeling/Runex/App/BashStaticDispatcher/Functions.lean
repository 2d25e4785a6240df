import Runex.App.BashStaticDispatcher
import Runex.App.BashStaticDispatcher.Tables
import Runex.Lib.Loop
import Runex.Lib.ShellPattern

/-!
# The functions of the baked dispatcher

The Bash functions of the block, on the global variables they read and write. A `local` variable is
a `let`, `continue` and `return` inside a loop are steps of `Loop.Flow`, and the expansions are those
of `ShellPattern`.

## Main definitions

- `GitBash` — what the functions use of the shell that runs them
- `DispatcherTables`, `DispatcherState` — the baked arrays and the other variables
- `cygLookup`, `cygPatternLookup`, `cygGlobLookup` — one scan for each phase
- `cygIsCommandPosition`, `cygExpand` — the handler of the trigger key
-/

namespace Runex

open BashArray Loop ShellPattern
open Text (byteLen isAsciiDigit)

/-- What the functions use of the shell that runs them. -/
structure GitBash where
  /-- The case folding under `nocasematch`. -/
  toLower : Char → Char
  /-- The pattern an expansion stands for outside quotes. -/
  readPattern : Text → Pattern Char
  /-- Whether `type -P` finds a command. -/
  typeP : Text → Bool

/-- What the manual says about them: only letters have a case, and without brackets, escapes and
    groups the special characters of a pattern are `*` and `?`. -/
structure GitBash.Documented (shell : GitBash) : Prop where
  operators_have_no_case : ∀ d ∈ ['&', '|', ';'], ∀ c, shell.toLower d = shell.toLower c → d = c
  readPattern_unquoted : ∀ s : Text, '[' ∉ s → '\\' ∉ s → '(' ∉ s →
    shell.readPattern s = unquoted s

/-- The words of the three baked arrays. -/
structure DispatcherTables where
  abbrExact : List Text
  abbrPatterns : List Text
  abbrGlobs : List Text
  deriving DecidableEq, Repr

/-- The global variables and the shell option. `cursorOff` is `none` when the variable is empty, and
    `cmdSeen` the associative array of the commands looked up so far. -/
structure DispatcherState where
  readlineLine : Text
  readlinePoint : ℕ
  nocasematch : Bool
  cmdSeen : List (Text × Bool)
  condsMet : Bool
  out : Text
  cursorOff : Option ℕ
  hit : Bool
  len : ℕ
  cmdPos : Bool
  deriving DecidableEq, Repr

section Functions

variable (shell : GitBash)

/-- How `case`, `[[` and `//` compare characters. -/
def GitBash.fold (s : DispatcherState) : Char → Char := if s.nocasematch then shell.toLower else id

/-- `$'\t\n\v\f\r '`. -/
def asciiBlanks : List Char := ['\t', '\n', '\x0b', '\x0c', '\r', ' ']

/-- The words of `__runex_blank_multibyte`. -/
def blankMultibyte : List Text := multibyteWhitespace.map fun c => [c]

example : readArray (bashMultibyteBlankWords ++ [')']) = some (blankMultibyte, []) := by
  decide +kernel

/-- `__runex_cyg_is_blank`. -/
def cygIsBlank (fold : Char → Char) (text : Text) : Bool :=
  let rest := replaceMatches fold [.oneOf (· ∈ asciiBlanks)] [] text
  let rest := blankMultibyte.foldl (fun rest c => replaceMatches fold (literal c) [] rest) rest
  rest = []

/-- `__runex_cyg_render`, with its status. -/
def cygRender (text : Text) (s : DispatcherState) : Bool × DispatcherState :=
  let pos := removeLongestSuffix (literal cursorPlaceholder ++ [.anyString]) text
  let s :=
    if pos = text then { s with out := text, cursorOff := none }
    else
      { s with
        cursorOff := some pos.length
        out := pos ++ removeShortestPrefix (.anyString :: literal cursorPlaceholder) text }
  if cygIsBlank (shell.fold s) s.out then (false, { s with out := [], cursorOff := none })
  else (true, { s with hit := true })

/-- The body of the loop of `__runex_cyg_conds_met`. -/
def cygSeeCommand (s : DispatcherState) (c : Text) : DispatcherState :=
  let s :=
    if s.cmdSeen.lookup c = none then { s with cmdSeen := (c, shell.typeP c) :: s.cmdSeen } else s
  if s.cmdSeen.lookup c = some true then s else { s with condsMet := false }

/-- `__runex_cyg_conds_met`. -/
def cygCondsMet (conds : Text) (s : DispatcherState) : DispatcherState :=
  let s := { s with condsMet := true }
  if conds = [] then s else (splitConditions conds).foldl (cygSeeCommand shell) s

/-- `__runex_cyg_byte_len`. -/
def cygByteLen (text : Text) (s : DispatcherState) : DispatcherState :=
  { s with len := byteLen text }

/-- The body of the loop of `__runex_cyg_lookup`. -/
def cygLookupEntry (token entry : Text) (s : DispatcherState) : Flow DispatcherState :=
  match readFields unitSeparator 3 entry with
  | [key, template, conds] =>
    if key ≠ token then .next s
    else if template = key then .next s
    else
      let s := cygCondsMet shell conds s
      if !s.condsMet then .next s
      else
        let shown := cygRender shell template s
        if shown.1 then .done shown.2 else .next shown.2
  -- `read` sets each of its names.
  | _ => .next s

/-- `__runex_cyg_lookup`. -/
def cygLookup (tables : DispatcherTables) (token : Text) (s : DispatcherState) :
    DispatcherState :=
  forEach (cygLookupEntry shell token) tables.abbrExact { s with out := [], cursorOff := none }

/-- The first part of the loop of `__runex_cyg_pattern_lookup`, which computes `n`. A `none` is a
    `continue`. -/
def cygPatternNumber (fold : Char → Char) (pre suf token : Text) : Option ℕ :=
  if pre ≠ [] ∧ removeShortestPrefix (literal pre) token = token then none
  else
    let rest := removeShortestPrefix (literal pre) token
    if suf ≠ [] ∧ removeShortestSuffix (literal suf) rest = rest then none
    else
      let rest := if suf ≠ [] then removeShortestSuffix (literal suf) rest else rest
      if rest = [] then none
      else if isMatch fold [.anyString, .oneOf (fun c => !isAsciiDigit c), .anyString] rest then none
      else
        let zeros := removeLongestSuffix [.oneOf (· != '0'), .anyString] rest
        let digits := removeShortestPrefix (literal zeros) rest
        if digits = [] then none
        else if digits.length > 3 then none
        else
          let n := Nat.ofDigitChars 10 digits 0
          if n > 128 then none else some n

/-- The body of the loop of `__runex_cyg_pattern_lookup`. -/
def cygPatternLookupEntry (token entry : Text) (s : DispatcherState) : Flow DispatcherState :=
  match readFields unitSeparator 5 entry with
  | [pre, suf, template, unit, conds] =>
    match cygPatternNumber (shell.fold s) pre suf token with
    | none => .next s
    | some n =>
      let s := cygCondsMet shell conds s
      if !s.condsMet then .next s
      else
        -- `for ((i=0; i<n; i++))`
        let repeated := (· ++ unit)^[n] []
        let s := cygByteLen repeated s
        if s.len > 4096 then .next s
        else
          let rendered := replaceMatches (shell.fold s) (literal numberPlaceholder) repeated template
          let s := cygByteLen rendered s
          if s.len > 4096 then .next s
          else
            let shown := cygRender shell rendered s
            if shown.1 then .done shown.2 else .next shown.2
  | _ => .next s

/-- `__runex_cyg_pattern_lookup`. -/
def cygPatternLookup (tables : DispatcherTables) (token : Text) (s : DispatcherState) :
    DispatcherState :=
  forEach (cygPatternLookupEntry shell token) tables.abbrPatterns
    { s with out := [], cursorOff := none }

/-- The part of the loop of `__runex_cyg_glob_lookup` that puts the capture into the template: the
    text, and the cursor offset. -/
def cygGlobText (fold : Char → Char) (template rest : Text) : Text × Option ℕ :=
  if isMatch fold (.anyString :: (literal cursorPlaceholder ++ [.anyString])) template then
    let left := removeLongestSuffix (literal cursorPlaceholder ++ [.anyString]) template
    let right := removeShortestPrefix (.anyString :: literal cursorPlaceholder) template
    let left := replaceMatches fold (literal globCapturePlaceholder) rest left
    let right := replaceMatches fold (literal globCapturePlaceholder) rest right
    (left ++ right, some left.length)
  else (replaceMatches fold (literal globCapturePlaceholder) rest template, none)

/-- The body of the loop of `__runex_cyg_glob_lookup`. -/
def cygGlobLookupEntry (token entry : Text) (s : DispatcherState) : Flow DispatcherState :=
  match readFields unitSeparator 5 entry with
  | [pattern, head, tail, template, conds] =>
    if !isMatch (shell.fold s) (shell.readPattern pattern) token then .next s
    else
      let s := cygCondsMet shell conds s
      if !s.condsMet then .next s
      else
        let rest := removeShortestPrefix (shell.readPattern head) token
        let rest := removeShortestSuffix (shell.readPattern tail) rest
        let text := cygGlobText (shell.fold s) template rest
        let s := cygByteLen text.1 { s with out := text.1, cursorOff := text.2 }
        if s.len > 4096 then .next { s with out := [], cursorOff := none }
        else if cygIsBlank (shell.fold s) s.out || s.out = token then
          .next { s with out := [], cursorOff := none }
        else .done { s with hit := true }
  | _ => .next s

/-- `__runex_cyg_glob_lookup`. -/
def cygGlobLookup (tables : DispatcherTables) (token : Text) (s : DispatcherState) :
    DispatcherState :=
  forEach (cygGlobLookupEntry shell token) tables.abbrGlobs { s with out := [], cursorOff := none }

/-- `${s: -1}`. -/
def lastChar (s : Text) : Text := s.drop (s.length - 1)

/-- The loop `while [ "${s: -1}" = " " ]; do s="${s:0:${#s}-1}"; done`. -/
def dropTrailingSpaces (s : Text) : Text :=
  if lastChar s = [' '] then dropTrailingSpaces (s.take (s.length - 1)) else s
termination_by s.length
decreasing_by
  cases s with
  | nil => simp [lastChar] at *
  | cons c s => simp

/-- `case "$s" in *"&&"|*"||"|*"|"|*";")`. -/
def endsLikeOperator (fold : Char → Char) (s : Text) : Bool :=
  isMatch fold (.anyString :: literal ['&', '&']) s ||
  isMatch fold (.anyString :: literal ['|', '|']) s ||
  isMatch fold (.anyString :: literal ['|']) s || isMatch fold (.anyString :: literal [';']) s

/-- `__runex_cyg_is_command_position`. -/
def cygIsCommandPosition (pre : Text) (s : DispatcherState) : DispatcherState :=
  let pre := dropTrailingSpaces pre
  if pre = [] then { s with cmdPos := true }
  else if endsLikeOperator (shell.fold s) pre then { s with cmdPos := true }
  else
    let lastWord := removeLongestPrefix [.anyString, .char ' '] pre
    let beforeLast := if lastWord = pre then [] else pre.take (pre.length - lastWord.length)
    if lastWord = "sudo".toList then
      let beforeLast := dropTrailingSpaces beforeLast
      if beforeLast = [] then { s with cmdPos := true }
      else if endsLikeOperator (shell.fold s) beforeLast then { s with cmdPos := true }
      else { s with cmdPos := false }
    else { s with cmdPos := false }

/-- The part of `__runex_cyg_expand` that looks the token up, with `nocasematch` off. -/
def cygSearch (tables : DispatcherTables) (token : Text) (s : DispatcherState) :
    DispatcherState :=
  let s := { s with cmdSeen := [] }
  let restoreNocasematch := s.nocasematch
  let s := if s.nocasematch then { s with nocasematch := false } else s
  let s := { s with hit := false }
  let s := cygLookup shell tables token s
  let s := if !s.hit then cygPatternLookup shell tables token s else s
  let s := if !s.hit then cygGlobLookup shell tables token s else s
  if restoreNocasematch then { s with nocasematch := true } else s

/-- The plain space of `__runex_cyg_expand`. -/
def cygInsertSpace (left right : Text) (s : DispatcherState) : DispatcherState :=
  { s with readlineLine := left ++ ' ' :: right, readlinePoint := s.readlinePoint + 1 }

/-- The end of `__runex_cyg_expand`: the expansion in place of the token, with the trigger space
    unless the rule placed the cursor. -/
def cygReplaceToken (pre right : Text) (s : DispatcherState) : DispatcherState :=
  match s.cursorOff with
  | some off =>
    { s with
      readlineLine := pre ++ (s.out ++ right)
      readlinePoint := pre.length + off }
  | none =>
    { s with
      readlineLine := pre ++ (s.out ++ ' ' :: right)
      readlinePoint := pre.length + s.out.length + 1 }

/-- `__runex_cyg_expand`. -/
def cygExpand (tables : DispatcherTables) (s : DispatcherState) : DispatcherState :=
  let left := s.readlineLine.take s.readlinePoint
  let right := s.readlineLine.drop s.readlinePoint
  if right ≠ [] ∧ right.take 1 ≠ [' '] then cygInsertSpace left right s
  else
    let token := removeLongestPrefix [.anyString, .char ' '] left
    if token = [] then cygInsertSpace left right s
    else
      let pre := left.take (left.length - token.length)
      let s := cygIsCommandPosition shell pre s
      if !s.cmdPos then cygInsertSpace left right s
      else
        let s := cygSearch shell tables token s
        if !s.hit then cygInsertSpace left right s else cygReplaceToken pre right s

end Functions

end Runex
