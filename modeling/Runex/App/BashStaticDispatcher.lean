import Runex.Domain.Expand
import Runex.Lib.Placeholder

/-!
# The baked dispatcher for Git Bash

The script block that expands abbreviations in Bash itself: the rules as three tables of
double-quoted words, and the functions that scan them.

## Main definitions

- `exactTableLines`, `patternTableLines`, `globTableLines` — the table bodies
- `generateCygwinDispatcher` — the whole block
-/

namespace Runex

open Search Placeholder
open Text (isAsciiControl)

/-- One character of `bash_double_quote_for_assoc`: escaped, dropped or kept. -/
def bashDoubleQuoteChar (c : Char) : Text :=
  if c ∈ ['"', '\\', '$', '`'] then ['\\', c]
  else if isAsciiControl c || isUnicodeLineSeparator c || isDeceptiveUnicode c then []
  else [c]

/-- A field of a baked table entry as a Bash double-quoted string. -/
def bashDoubleQuoteForAssoc (s : Text) : Text := '"' :: (s.flatMap bashDoubleQuoteChar ++ ['"'])

/-- The Bash condition of a rule, joined with `:`. Empty for a rule without a condition; `none`
    when the condition has no Bash entry. -/
def bashConditions (rule : Abbr) : Option Text :=
  match rule.whenCommandExists with
  | none => some []
  | some perShell => (perShell.forShell .bash).map fun cmds => [':'].intercalate cmds

/-- `$'\037'`, between the fields of a line. -/
def fieldSeparator : Text := "$'\\037'".toList

/-- One line of a table. -/
def tableLine (fields : List Text) : Text :=
  "    ".toList ++ fieldSeparator.intercalate (fields.map bashDoubleQuoteForAssoc)

/-- The fields of an exact rule: key, template and condition. -/
def exactRow (rule : Abbr) : Option (List Text) :=
  if '{' ∈ rule.key ∨ rule.matchKind.isSome then none
  else do
    let template ← rule.expand.forShell .bash
    let conds ← bashConditions rule
    some [rule.key, template, conds]

/-- The fields of a `{number}` rule: prefix, suffix, template, unit and condition. -/
def patternRow (rule : Abbr) : Option (List Text) :=
  if rule.matchKind ≠ none then none
  else do
    let unit ← rule.number
    let (pre, suf) ← splitOnce numberPlaceholder rule.key
    let template ← rule.expand.forShell .bash
    let conds ← bashConditions rule
    some [pre, suf, template, unit, conds]

/-- The parts of a glob key around its first `*`, or the whole key. -/
def globParts (key : Text) : Text × Text := (splitOnce ['*'] key).getD (key, [])

/-- The fields of a glob rule: pattern, head, tail, template and condition. -/
def globRow (rule : Abbr) : Option (List Text) :=
  if rule.matchKind ≠ some .glob then none
  else do
    let template ← rule.expand.forShell .bash
    let conds ← bashConditions rule
    some [rule.key, (globParts rule.key).1, (globParts rule.key).2, template, conds]

/-- The body of a table: one line for each rule that has a row, in config order. -/
def tableLines (row : Abbr → Option (List Text)) (config : Config) : Text :=
  Text.join ((config.abbr.filterMap row).map tableLine)

def exactTableLines (config : Config) : Text := tableLines exactRow config

def patternTableLines (config : Config) : Text := tableLines patternRow config

def globTableLines (config : Config) : Text := tableLines globRow config

/-- A table body between the parentheses of its array. -/
def tableBlock (lines : Text) : Text := if lines = [] then [] else '\n' :: (lines ++ ['\n'])

/-- The non-ASCII characters `char::is_whitespace` accepts. -/
def multibyteWhitespace : List Char :=
  [0x85, 0xA0, 0x1680, 0x2000, 0x2001, 0x2002, 0x2003, 0x2004, 0x2005, 0x2006, 0x2007, 0x2008,
    0x2009, 0x200A, 0x2028, 0x2029, 0x202F, 0x205F, 0x3000].map Char.ofNat

/-- They are the words of a Bash array. -/
def bashMultibyteBlankWords : Text :=
  [' '].intercalate (multibyteWhitespace.map fun c => ['"', c, '"'])

/-- `__runex_cyg_is_blank`. -/
def isBlankFunction : List String := [
  "__runex_cyg_is_blank() \x7b",
  "    local rest=\"$\x7b1//[$'\\t\\n\\v\\f\\r ']/\x7d\" c",
  "    for c in \"$\x7b__runex_blank_multibyte[@]\x7d\"; do rest=\"$\x7brest//\"$c\"/\x7d\"; done",
  "    [ -z \"$rest\" ]",
  "\x7d"]

/-- `__runex_cyg_render`. -/
def renderFunction : List String := [
  "__runex_cyg_render() \x7b",
  "    local text=\"$1\" pos",
  "    pos=\"$\x7btext%%\\\x7b\\\x7d*\x7d\"",
  "    if [ \"$pos\" = \"$text\" ]; then",
  "        __runex_out=\"$text\"",
  "        __runex_cursor_off=\"\"",
  "    else",
  "        __runex_cursor_off=\"$\x7b#pos\x7d\"",
  "        __runex_out=\"$\x7bpos\x7d$\x7btext#*\\\x7b\\\x7d\x7d\"",
  "    fi",
  "    if __runex_cyg_is_blank \"$__runex_out\"; then",
  "        __runex_out=\"\"",
  "        __runex_cursor_off=\"\"",
  "        return 1",
  "    fi",
  "    __runex_hit=1",
  "\x7d"]

/-- `__runex_cyg_conds_met` and its memo. -/
def condsMetFunction : List String := [
  "declare -gA __runex_cmd_seen=()",
  "__runex_cyg_conds_met() \x7b",
  "    local conds=\"$1\" c",
  "    __runex_conds_met=1",
  "    [ -z \"$conds\" ] && return",
  "    local IFS=':'",
  "    for c in $conds; do",
  "        if [ -z \"$\x7b__runex_cmd_seen[$c]-\x7d\" ]; then",
  "            if type -P -- \"$c\" >/dev/null 2>&1; then __runex_cmd_seen[$c]=1; else __runex_cmd_seen[$c]=0; fi",
  "        fi",
  "        [ \"$\x7b__runex_cmd_seen[$c]\x7d\" = 1 ] || __runex_conds_met=0",
  "    done",
  "    IFS=$' \\t\\n'",
  "\x7d"]

/-- `__runex_cyg_lookup`. -/
def lookupFunction : List String := [
  "__runex_cyg_lookup() \x7b",
  "    local token=\"$1\" entry key template conds",
  "    __runex_out=\"\"",
  "    __runex_cursor_off=\"\"",
  "    for entry in \"$\x7b__runex_abbr_exact[@]\x7d\"; do",
  "        IFS=$'\\037' read -r key template conds <<<\"$entry\"",
  "        [ \"$key\" = \"$token\" ] || continue",
  "        [ \"$template\" = \"$key\" ] && continue",
  "        __runex_cyg_conds_met \"$conds\"",
  "        [ \"$__runex_conds_met\" -eq 1 ] || continue",
  "        __runex_cyg_render \"$template\" && return",
  "    done",
  "\x7d"]

/-- `__runex_cyg_pattern_lookup`. -/
def patternLookupFunction : List String := [
  "__runex_cyg_pattern_lookup() \x7b",
  "    local token=\"$1\" entry prefix suffix template unit conds rest digits n i repeated rendered",
  "    __runex_out=\"\"",
  "    __runex_cursor_off=\"\"",
  "    for entry in \"$\x7b__runex_abbr_patterns[@]\x7d\"; do",
  "        IFS=$'\\037' read -r prefix suffix template unit conds <<<\"$entry\"",
  "        if [ -n \"$prefix\" ] && [ \"$\x7btoken#\"$prefix\"\x7d\" = \"$token\" ]; then continue; fi",
  "        rest=\"$\x7btoken#\"$prefix\"\x7d\"",
  "        if [ -n \"$suffix\" ]; then",
  "            [ \"$\x7brest%\"$suffix\"\x7d\" = \"$rest\" ] && continue",
  "            rest=\"$\x7brest%\"$suffix\"\x7d\"",
  "        fi",
  "        [ -z \"$rest\" ] && continue",
  "        case \"$rest\" in (*[!0-9]*) continue ;; esac",
  "        digits=\"$\x7brest#\"$\x7brest%%[!0]*\x7d\"\x7d\"",
  "        [ -z \"$digits\" ] && continue",
  "        [ \"$\x7b#digits\x7d\" -gt 3 ] && continue",
  "        n=$((10#$digits))",
  "        [ \"$n\" -gt 128 ] && continue",
  "        __runex_cyg_conds_met \"$conds\"",
  "        [ \"$__runex_conds_met\" -eq 1 ] || continue",
  "        repeated=\"\"",
  "        for ((i=0; i<n; i++)); do repeated=\"$\x7brepeated\x7d$\x7bunit\x7d\"; done",
  "        __runex_cyg_byte_len \"$repeated\"",
  "        [ \"$__runex_len\" -gt 4096 ] && continue",
  "        rendered=\"$\x7btemplate//\"\x7bnumber\x7d\"/\"$repeated\"\x7d\"",
  "        __runex_cyg_byte_len \"$rendered\"",
  "        [ \"$__runex_len\" -gt 4096 ] && continue",
  "        __runex_cyg_render \"$rendered\" && return",
  "    done",
  "\x7d"]

/-- `__runex_cyg_byte_len`. -/
def byteLenFunction : List String := [
  "__runex_cyg_byte_len() \x7b",
  "    local LC_ALL=C",
  "    __runex_len=\"$\x7b#1\x7d\"",
  "\x7d"]

/-- `__runex_cyg_glob_lookup`. -/
def globLookupFunction : List String := [
  "__runex_cyg_glob_lookup() \x7b",
  "    local token=\"$1\" entry pattern head tail template conds rest left right",
  "    __runex_out=\"\"",
  "    __runex_cursor_off=\"\"",
  "    for entry in \"$\x7b__runex_abbr_globs[@]\x7d\"; do",
  "        IFS=$'\\037' read -r pattern head tail template conds <<<\"$entry\"",
  "        case \"$token\" in $pattern) ;; *) continue ;; esac",
  "        __runex_cyg_conds_met \"$conds\"",
  "        [ \"$__runex_conds_met\" -eq 1 ] || continue",
  "        rest=\"$\x7btoken#$head\x7d\"",
  "        rest=\"$\x7brest%$tail\x7d\"",
  "        if [[ \"$template\" == *\"\x7b\x7d\"* ]]; then",
  "            left=\"$\x7btemplate%%\"\x7b\x7d\"*\x7d\"",
  "            right=\"$\x7btemplate#*\"\x7b\x7d\"\x7d\"",
  "            left=\"$\x7bleft//\"\x7b*\x7d\"/\"$rest\"\x7d\"",
  "            right=\"$\x7bright//\"\x7b*\x7d\"/\"$rest\"\x7d\"",
  "            __runex_out=\"$\x7bleft\x7d$\x7bright\x7d\"",
  "            __runex_cursor_off=\"$\x7b#left\x7d\"",
  "        else",
  "            __runex_out=\"$\x7btemplate//\"\x7b*\x7d\"/\"$rest\"\x7d\"",
  "            __runex_cursor_off=\"\"",
  "        fi",
  "        __runex_cyg_byte_len \"$__runex_out\"",
  "        if [ \"$__runex_len\" -gt 4096 ]; then",
  "            __runex_out=\"\"",
  "            __runex_cursor_off=\"\"",
  "            continue",
  "        fi",
  "        if __runex_cyg_is_blank \"$__runex_out\" || [ \"$__runex_out\" = \"$token\" ]; then",
  "            __runex_out=\"\"",
  "            __runex_cursor_off=\"\"",
  "            continue",
  "        fi",
  "        __runex_hit=1",
  "        return",
  "    done",
  "\x7d"]

/-- `__runex_cyg_is_command_position`. -/
def isCommandPositionFunction : List String := [
  "__runex_cyg_is_command_position() \x7b",
  "    # Sets __runex_cmd_pos = 1 if $1 is a command-position prefix,",
  "    # 0 otherwise. Mirrors `domain::hook::is_command_position`:",
  "    #   - empty / whitespace-only prefix → command position",
  "    #   - ends with `&&` / `||` / `|` / `;` → command position",
  "    #   - ends with the word `sudo` whose prefix is itself command",
  "    #     position → command position",
  "    local prefix=\"$1\"",
  "    while [ \"$\x7bprefix: -1\x7d\" = \" \" ]; do",
  "        prefix=\"$\x7bprefix:0:$\x7b#prefix\x7d-1\x7d\"",
  "    done",
  "    if [ -z \"$prefix\" ]; then __runex_cmd_pos=1; return; fi",
  "    case \"$prefix\" in",
  "        *\"&&\"|*\"||\"|*\"|\"|*\";\") __runex_cmd_pos=1; return ;;",
  "    esac",
  "    local last_word=\"$\x7bprefix##* \x7d\"",
  "    local before_last",
  "    if [ \"$last_word\" = \"$prefix\" ]; then",
  "        before_last=\"\"",
  "    else",
  "        before_last=\"$\x7bprefix:0:$(($\x7b#prefix\x7d - $\x7b#last_word\x7d))\x7d\"",
  "    fi",
  "    if [ \"$last_word\" = \"sudo\" ]; then",
  "        while [ \"$\x7bbefore_last: -1\x7d\" = \" \" ]; do",
  "            before_last=\"$\x7bbefore_last:0:$\x7b#before_last\x7d-1\x7d\"",
  "        done",
  "        if [ -z \"$before_last\" ]; then __runex_cmd_pos=1; return; fi",
  "        case \"$before_last\" in",
  "            *\"&&\"|*\"||\"|*\"|\"|*\";\") __runex_cmd_pos=1; return ;;",
  "        esac",
  "    fi",
  "    __runex_cmd_pos=0",
  "\x7d"]

/-- `__runex_cyg_expand`. -/
def expandFunction : List String := [
  "__runex_cyg_expand() \x7b",
  "    local left right token prefix",
  "    left=\"$\x7bREADLINE_LINE:0:READLINE_POINT\x7d\"",
  "    right=\"$\x7bREADLINE_LINE:READLINE_POINT\x7d\"",
  "    if [ -n \"$right\" ] && [ \"$\x7bright:0:1\x7d\" != \" \" ]; then",
  "        READLINE_LINE=\"$\x7bleft\x7d $\x7bright\x7d\"",
  "        READLINE_POINT=$((READLINE_POINT + 1))",
  "        return",
  "    fi",
  "    token=\"$\x7bleft##* \x7d\"",
  "    if [ -z \"$token\" ]; then",
  "        READLINE_LINE=\"$\x7bleft\x7d $\x7bright\x7d\"",
  "        READLINE_POINT=$((READLINE_POINT + 1))",
  "        return",
  "    fi",
  "    # Substring slice for prefix (= avoid `$\x7bleft%$token\x7d` glob",
  "    # interpretation when the token contains `?`, `*`, or `[`).",
  "    prefix=\"$\x7bleft:0:$(($\x7b#left\x7d - $\x7b#token\x7d))\x7d\"",
  "    # Command-position check (issue #9): if the prefix is not a",
  "    # command position, fall back to a literal space insertion",
  "    # without consulting the abbreviation tables.",
  "    __runex_cyg_is_command_position \"$prefix\"",
  "    if [ \"$__runex_cmd_pos\" -eq 0 ]; then",
  "        READLINE_LINE=\"$\x7bleft\x7d $\x7bright\x7d\"",
  "        READLINE_POINT=$((READLINE_POINT + 1))",
  "        return",
  "    fi",
  "    __runex_cmd_seen=()",
  "    local restore_nocasematch=0",
  "    if shopt -q nocasematch; then",
  "        restore_nocasematch=1",
  "        shopt -u nocasematch",
  "    fi",
  "    __runex_hit=0",
  "    __runex_cyg_lookup \"$token\"",
  "    if [ \"$__runex_hit\" -eq 0 ]; then __runex_cyg_pattern_lookup \"$token\"; fi",
  "    if [ \"$__runex_hit\" -eq 0 ]; then __runex_cyg_glob_lookup \"$token\"; fi",
  "    if [ \"$restore_nocasematch\" -eq 1 ]; then shopt -s nocasematch; fi",
  "    if [ \"$__runex_hit\" -eq 0 ]; then",
  "        READLINE_LINE=\"$\x7bleft\x7d $\x7bright\x7d\"",
  "        READLINE_POINT=$((READLINE_POINT + 1))",
  "        return",
  "    fi",
  "    if [ -n \"$__runex_cursor_off\" ]; then",
  "        READLINE_LINE=\"$\x7bprefix\x7d$\x7b__runex_out\x7d$\x7bright\x7d\"",
  "        READLINE_POINT=$(( $\x7b#prefix\x7d + __runex_cursor_off ))",
  "    else",
  "        READLINE_LINE=\"$\x7bprefix\x7d$\x7b__runex_out\x7d $\x7bright\x7d\"",
  "        READLINE_POINT=$(( $\x7b#prefix\x7d + $\x7b#__runex_out\x7d + 1 ))",
  "    fi",
  "\x7d"]

/-- The functions of the block. -/
def dispatcherFunctions : Text := joinLines (
  isBlankFunction ++ renderFunction ++ condsMetFunction ++ lookupFunction ++
  patternLookupFunction ++ byteLenFunction ++ globLookupFunction ++
  isCommandPositionFunction ++ expandFunction ++ [""])

/-- The whole block, for the placeholder of the Bash template. -/
def generateCygwinDispatcher (config : Config) : Text :=
  "__runex_abbr_exact=(".toList ++ (tableBlock (exactTableLines config) ++
    (")\n__runex_abbr_patterns=(".toList ++ (tableBlock (patternTableLines config) ++
      (")\n__runex_abbr_globs=(".toList ++ (tableBlock (globTableLines config) ++
        (")\n__runex_blank_multibyte=(".toList ++ (bashMultibyteBlankWords ++
          (")\n".toList ++ dispatcherFunctions))))))))

end Runex
