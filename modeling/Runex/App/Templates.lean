import Runex.Lib.Placeholder

/-!
# Script templates

The integration script of each shell, and the three binding fragments of nu, line by line as in
`domain/templates/`, cut at their placeholders. A hole is a name in braces.
-/

namespace Runex

open Placeholder

def bashPieces : List Segment := [
  .text (joinLines [
    "# runex shell integration for bash",
    "# No-op when sourced by a non-interactive shell (`bash -c`, scripts, CI).",
    "case $- in",
    "  *i*) ;;",
    "  *) return 0 ;;",
    "esac",
    "# === Cygwin/MSYS (Git Bash) bake-mode dispatcher (issue #7) ================",
    "# In Git Bash spawning a Win32 .exe from inside the trigger handler causes",
    "# the next SIGINT to be lost. To avoid that, the cygwin path looks the",
    "# abbreviation up in a static table baked into this cache file. The block",
    "# below is generated by app::bash_static_dispatcher and is empty when",
    "# runex export bash is invoked without a config (legacy escape hatch).",
    ""]),
  .hole "BASH_CYG_DISPATCHER".toList,
  .text (joinLines [
    "",
    "# === Linux / WSL / generic bash exec dispatcher (legacy path) ==============",
    "__runex_exec_expand() \x7b",
    "    local out",
    "    if out=$("]),
  .hole "BASH_BIN".toList,
  .text (joinLines [
    " hook --shell bash --line=\"$READLINE_LINE\" --cursor \"$READLINE_POINT\" 2>/dev/null) && [ -n \"$out\" ]; then",
    "        eval \"$out\"",
    "    else",
    "        READLINE_LINE=\"$\x7bREADLINE_LINE:0:READLINE_POINT\x7d $\x7bREADLINE_LINE:READLINE_POINT\x7d\"",
    "        READLINE_POINT=$((READLINE_POINT + 1))",
    "    fi",
    "\x7d",
    "# === Public entry point ====================================================",
    "# The trigger handler invokes __runex_expand. Selection is done once at",
    "# source time because OSTYPE is immutable per session: under msys/cygwin",
    "# (Git Bash) we route to the bake path if it was emitted (config-driven),",
    "# otherwise we keep the exec path. The bake path is empty when",
    "# runex export bash was called without a config (legacy escape hatch),",
    "# so we fall back to exec by checking whether the bake function exists.",
    "case \"$\x7bOSTYPE-\x7d\" in",
    "    msys*|cygwin*)",
    "        if declare -F __runex_cyg_expand >/dev/null 2>&1; then",
    "            __runex_expand() \x7b __runex_cyg_expand; \x7d",
    "        else",
    "            __runex_expand() \x7b __runex_exec_expand; \x7d",
    "        fi",
    "        ;;",
    "    *)",
    "        __runex_expand() \x7b __runex_exec_expand; \x7d",
    "        ;;",
    "esac",
    "__runex_self_insert() \x7b",
    "    READLINE_LINE=\"$\x7bREADLINE_LINE:0:READLINE_POINT\x7d $\x7bREADLINE_LINE:READLINE_POINT\x7d\"",
    "    READLINE_POINT=$((READLINE_POINT + 1))",
    "\x7d",
    ""]),
  .hole "BASH_BIND_LINES".toList,
  .text (joinLines ["", ""]),
  .hole "BASH_SELF_INSERT_LINES".toList,
  .text (joinLines ["", ""])]

/-- The Bash integration script. -/
def bashTemplate : Text := bashPieces.flatMap (Segment.fill token)

def zshPieces : List Segment := [
  .text (joinLines [
    "# runex shell integration for zsh",
    "# No-op when sourced by a non-interactive shell (`zsh -c`, scripts, CI).",
    "[[ -o interactive ]] || return 0",
    "function __runex_expand() \x7b",
    "    local line=\"$LBUFFER$RBUFFER\"",
    "    local cursor=$\x7b#LBUFFER\x7d",
    "    local out",
    "    if out=$("]),
  .hole "ZSH_BIN".toList,
  .text (joinLines [
    " hook --shell zsh --line=\"$line\" --cursor \"$cursor\" 2>/dev/null) && [[ -n \"$out\" ]]; then",
    "        eval \"$out\"",
    "    else",
    "        LBUFFER+=\" \"",
    "    fi",
    "    zle redisplay",
    "\x7d",
    "",
    "function __runex_self_insert() \x7b",
    "    LBUFFER+=\" \"",
    "    zle redisplay",
    "\x7d",
    "",
    "zle -N __runex_expand",
    "zle -N __runex_self_insert",
    ""]),
  .hole "ZSH_BIND_LINES".toList,
  .text (joinLines ["", ""]),
  .hole "ZSH_SELF_INSERT_LINES".toList,
  .text (joinLines ["", ""])]

/-- The Zsh integration script. -/
def zshTemplate : Text := zshPieces.flatMap (Segment.fill token)

def pwshPieces : List Segment := [
  .text (joinLines [
    "# runex shell integration for PowerShell",
    "#",
    "# No-op when sourced by a non-interactive host (`pwsh -Command ...`,",
    "# scripts invoked from CI, etc.). PSReadLine bindings are meaningless",
    "# without an interactive REPL, and the side effects of registering",
    "# them (state in the running PSReadLine singleton) are best avoided.",
    "if ([Console]::IsInputRedirected -or [Console]::IsOutputRedirected) \x7b",
    "    return",
    "\x7d",
    "",
    "# Paste detection via PSReadLine internal key queue.",
    "# When a clipboard paste is processed, PSReadLine enqueues all pasted",
    "# characters at once — so when our Spacebar handler fires on the first space",
    "# inside a paste, there are still unread keys waiting in _queuedKeys. Manual",
    "# typing goes through the same queue but one key at a time, so the count is 0.",
    "#",
    "# We access _queuedKeys via reflection. If the probe fails (PSReadLine API",
    "# change, etc.) we fall back to 0 and expansion runs as normal — we never",
    "# crash the handler.",
    "#",
    "# This logic stays in pwsh (rather than being lifted into Rust) on purpose:",
    "# the only way to read _queuedKeys is to reach into the live PSReadLine",
    "# singleton inside the running pwsh process. A Rust subprocess can't see",
    "# that state. The state we care about gets forwarded to `runex hook` via",
    "# the `--paste-pending` flag once we've decided here.",
    "$Script:__runex_psrl_singleton_field = $null",
    "$Script:__runex_psrl_queued_keys_field = $null",
    "try \x7b",
    "    $__runex_psrl_type = [Microsoft.PowerShell.PSConsoleReadLine]",
    "    $__runex_bf = [System.Reflection.BindingFlags]'NonPublic,Static,Instance'",
    "    $Script:__runex_psrl_singleton_field   = $__runex_psrl_type.GetField('_singleton',   $__runex_bf)",
    "    $Script:__runex_psrl_queued_keys_field = $__runex_psrl_type.GetField('_queuedKeys', $__runex_bf)",
    "\x7d catch \x7b",
    "    # PSReadLine internals changed — fields stay null and we fall back gracefully.",
    "\x7d",
    "",
    "function __runex_queued_key_count \x7b",
    "    if ($null -eq $Script:__runex_psrl_singleton_field -or",
    "        $null -eq $Script:__runex_psrl_queued_keys_field) \x7b",
    "        return 0",
    "    \x7d",
    "    try \x7b",
    "        $inst = $Script:__runex_psrl_singleton_field.GetValue($null)",
    "        if ($null -eq $inst) \x7b return 0 \x7d",
    "        $q = $Script:__runex_psrl_queued_keys_field.GetValue($inst)",
    "        if ($null -eq $q) \x7b return 0 \x7d",
    "        [System.Threading.Monitor]::Enter($q)",
    "        try \x7b return $q.Count \x7d",
    "        finally \x7b [System.Threading.Monitor]::Exit($q) \x7d",
    "    \x7d catch \x7b",
    "        return 0",
    "    \x7d",
    "\x7d",
    "",
    "if (-not (Get-Command Set-PSReadLineKeyHandler -ErrorAction SilentlyContinue)) \x7b",
    "    Import-Module PSReadLine -ErrorAction SilentlyContinue",
    "\x7d",
    "",
    "function __runex_register_expand_handler \x7b",
    "    param([string]$chord, [string]$viMode)",
    "",
    "    $params = @\x7b",
    "        Chord = $chord",
    "        ScriptBlock = \x7b",
    "            param($key, $arg)",
    "",
    "            $line = $null",
    "            $cursor = $null",
    "            [Microsoft.PowerShell.PSConsoleReadLine]::GetBufferState([ref]$line, [ref]$cursor)",
    "",
    "            $pastePending = (__runex_queued_key_count) -gt 0",
    "",
    "            # The hook emits two lines: __RUNEX_LINE and __RUNEX_CURSOR.",
    "            # pwsh_double_quote_string produces a double-quoted literal",
    "            # with every quote, backtick, `$` and line break escaped, so",
    "            # the values are safe to Invoke-Expression and the buffer",
    "            # comes back character for character (a multi-line paste",
    "            # keeps its newline). On any failure we fall back to plain",
    "            # space insertion.",
    "            # The buffer travels as hex of its UTF-8 bytes because neither",
    "            # host passes raw text through: PowerShell rewrites a leading",
    "            # `~` in a native-command argument to $HOME even when the",
    "            # value comes from a variable (#18), and Windows PowerShell",
    "            # 5.1 re-splits an argument containing `\"` (#35). Either hands",
    "            # runex a buffer the cursor was not measured against. The",
    "            # value is joined to the option with `=` because 5.1 drops a",
    "            # separate empty argument, which would leave clap without one.",
    "            # See docs/decisions/0004-pwsh-hex-line-transport.md.",
    "            $out = $null",
    "            try \x7b",
    "                $hookArgs = @('hook', '--shell', 'pwsh', \"--line-hex=$([System.BitConverter]::ToString([System.Text.Encoding]::UTF8.GetBytes($line)) -replace '-','')\", '--cursor', \"$cursor\")",
    "                if ($pastePending) \x7b $hookArgs += '--paste-pending' \x7d",
    "                $out = & "]),
  .hole "PWSH_BIN".toList,
  .text (joinLines [
    " @hookArgs 2>$null",
    "            \x7d catch \x7b",
    "                $out = $null",
    "            \x7d",
    "",
    "            if ($out) \x7b",
    "                $__RUNEX_LINE = $null",
    "                $__RUNEX_CURSOR = $null",
    "                try \x7b",
    "                    Invoke-Expression ($out -join \"`n\")",
    "                \x7d catch \x7b",
    "                    $__RUNEX_LINE = $null",
    "                \x7d",
    "                if ($null -ne $__RUNEX_LINE -and $null -ne $__RUNEX_CURSOR) \x7b",
    "                    [Microsoft.PowerShell.PSConsoleReadLine]::Replace(0, $line.Length, $__RUNEX_LINE)",
    "                    [Microsoft.PowerShell.PSConsoleReadLine]::SetCursorPosition([int]$__RUNEX_CURSOR)",
    "                    return",
    "                \x7d",
    "            \x7d",
    "",
    "            [Microsoft.PowerShell.PSConsoleReadLine]::Insert(' ')",
    "        \x7d",
    "    \x7d",
    "",
    "    if ($viMode) \x7b $params.ViMode = $viMode \x7d",
    "    Set-PSReadLineKeyHandler @params",
    "\x7d",
    "",
    "if (Get-Command Set-PSReadLineKeyHandler -ErrorAction SilentlyContinue) \x7b",
    ""]),
  .hole "PWSH_REGISTER_LINES".toList,
  .text (joinLines ["", ""]),
  .hole "PWSH_SELF_INSERT_LINES".toList,
  .text (joinLines [
    "",
    "\x7d",
    ""])]

/-- The PowerShell integration script. -/
def pwshTemplate : Text := pwshPieces.flatMap (Segment.fill token)

def clinkPieces : List Segment := [
  .text (joinLines [
    "-- runex shell integration for clink",
    "",
    "local RUNEX_BIN = "]),
  .hole "CLINK_BIN".toList,
  .text (joinLines [
    "",
    "",
    "-- The only route from clink's lua to runex is io.popen, i.e. a cmd.exe",
    "-- command line, and cmd.exe cannot carry arbitrary buffer text inside an",
    "-- argument: `\"` toggles its quote state and has no escape (a `\\\"` in the",
    "-- buffer closed the argument early and turned `2>&1` into a runex",
    "-- argument, issues #22 and #23), `%VAR%` expands even inside quotes,",
    "-- `!VAR!` expands under delayed expansion, and C0 control characters",
    "-- truncate parsing. Instead of escaping each case, the buffer travels as",
    "-- hex of its UTF-8 bytes: the wire alphabet is [0-9A-F], which cmd.exe",
    "-- passes through untouched, and `runex hook --line-hex` decodes it.",
    "-- Rationale and alternatives: docs/decisions/0003-clink-hex-line-transport.md",
    "local function runex_hex(s)",
    "    return (s:gsub('.', function(c) return string.format('%02X', c:byte()) end))",
    "end",
    "",
    "-- cmd.exe's documented command-line limit is 8191 characters, but that",
    "-- counts the `cmd.exe /c ` prefix io.popen adds: measured through",
    "-- `cmd /c`, the longest string cmd.exe still runs is 8158 characters.",
    "-- Hex doubles the buffer, so the assembled command is measured before",
    "-- spawning and the trigger key falls back to a literal space when it",
    "-- would not fit. 8000 leaves headroom for a long %COMSPEC% path.",
    "local CMD_LINE_MAX = 8000",
    "",
    "-- cmd.exe quoting for the binary path: wrap in double quotes. POSIX",
    "-- single-quote wrapping would be interpreted literally by cmd.exe and",
    "-- fail (e.g. 'runex' would be treated as a file named \"'runex'\"). Only",
    "-- RUNEX_BIN goes through this; the buffer is hex-encoded instead.",
    "local function runex_shell_quote(s)",
    "    return '\"' .. s:gsub('\"', '\\\\\"') .. '\"'",
    "end",
    "",
    "local function runex_call_hook(line, cursor)",
    "    -- Nothing to expand in an empty buffer, and `--line-hex` with an",
    "    -- empty value would be collapsed by cmd.exe into a missing value.",
    "    -- Skip the spawn; the caller inserts the literal space.",
    "    if line == \"\" then return nil end",
    "    -- io.popen on Windows ultimately calls cmd.exe with the assembled",
    "    -- string. cmd.exe's quote handling (without /S) is heuristic: when the",
    "    -- string starts with `\"` AND ends with `\"`, cmd strips the outermost",
    "    -- pair before parsing the rest. So we wrap the entire command in an",
    "    -- extra pair of `\"` so the quoting around argv0 survives. argv0 is",
    "    -- quoted in case the binary path contains spaces (e.g. `Program",
    "    -- Files`). The layout is mirrored by",
    "    -- `hook_clink_cmd_exe_roundtrip_keeps_double_quote_in_buffer` in",
    "    -- runex/tests/cli_integration.rs, which runs it through a real cmd.exe.",
    "    local cmd = '\"' .. runex_shell_quote(RUNEX_BIN)",
    "        .. ' hook --shell clink --line-hex ' .. runex_hex(line)",
    "        .. ' --cursor ' .. tostring(cursor)",
    "        .. ' 2>&1\"'",
    "    if #cmd > CMD_LINE_MAX then return nil end",
    "    local handle = io.popen(cmd)",
    "    if not handle then return nil end",
    "    local out = handle:read(\"*a\")",
    "    handle:close()",
    "    if not out or out == \"\" then return nil end",
    "    -- The hook emits a `return \x7b line = \"...\", cursor = N \x7d` Lua literal.",
    "    local chunk, err = load(out, \"=runex_hook\", \"t\", \x7b\x7d)",
    "    if not chunk then return nil end",
    "    local ok, result = pcall(chunk)",
    "    if not ok or type(result) ~= \"table\" then return nil end",
    "    if type(result.line) ~= \"string\" or type(result.cursor) ~= \"number\" then",
    "        return nil",
    "    end",
    "    return result",
    "end",
    "",
    "function runex_expand(rl_buffer, line_state)",
    "    local line = rl_buffer:getbuffer()",
    "    local cursor = rl_buffer:getcursor()",
    "    -- clink's cursor is 1-based (position, not char offset); runex's Rust",
    "    -- side expects a 0-based char offset into `line` (app/hook.rs counts",
    "    -- chars for clink). Subtract 1.",
    "    local result = runex_call_hook(line, cursor - 1)",
    "    if result and result.line ~= line then",
    "        rl_buffer:beginundogroup()",
    "        rl_buffer:remove(1, rl_buffer:getlength() + 1)",
    "        rl_buffer:insert(result.line)",
    "        rl_buffer:setcursor(result.cursor + 1)",
    "        rl_buffer:endundogroup()",
    "    else",
    "        rl_buffer:insert(\" \")",
    "    end",
    "end",
    "",
    "rl.describemacro([[\"luafunc:runex_expand\"]], \"Expand a runex abbreviation and insert a space\")",
    ""]),
  .hole "CLINK_BINDING".toList,
  .text (joinLines ["", ""])]

/-- The Clink integration script. -/
def clinkTemplate : Text := clinkPieces.flatMap (Segment.fill token)

def nuPieces : List Segment := [
  .text (joinLines [
    "# runex shell integration for Nushell",
    "#",
    "# Known limitation (nu 0.111 / reedline): when a paste contains a",
    "# space that matches the configured trigger key, nu fires the runex",
    "# binding mid-paste. The `executehostcommand` event resets the",
    "# command line at fire time, so any paste content that arrives after",
    "# the triggering space is dropped. Workarounds:",
    "#",
    "#   1. (Recommended) Add a Ctrl+V paste binding that reads the system",
    "#      clipboard directly, sidestepping the per-keystroke trigger:",
    "#        [keybind.paste_intercept]",
    "#        nu = \"ctrl-v\"",
    "#      The runex binary's `paste-clipboard` subcommand pipes the",
    "#      clipboard text into `commandline edit --insert`, so the abbr",
    "#      trigger never sees individual space keystrokes inside a paste.",
    "#   2. Use a non-space trigger for nu:",
    "#        [keybind.trigger]",
    "#        nu = \"shift-space\"",
    "#   3. Quote/escape paste content, or paste it in pieces.",
    "#",
    "# This is upstream behaviour, not a runex regression — every keymap",
    "# binding nu invokes inside a paste sees only the prefix received so",
    "# far. The Ctrl+V workaround above is generated only when configured",
    "# in `[keybind.paste_intercept]`.",
    "",
    "# No-op when sourced by a non-interactive nu (`nu -c \"...\"`, script",
    "# files, plugin sandboxes). Mutating `$env.config.keybindings` in",
    "# those contexts has no effect on a REPL session anyway, but keeps",
    "# the side effect off the script's environment.",
    "if $nu.is-interactive \x7b",
    "    $env.config.keybindings = (",
    "        $env.config.keybindings",
    "        | where name != \"runex_expand\"",
    "        | where name != \"runex_self_insert\"",
    "        | where name != \"runex_paste\""]),
  .hole "NU_BINDINGS".toList,
  .hole "NU_PASTE_BINDING".toList,
  .hole "NU_SELF_INSERT_BINDINGS".toList,
  .text (joinLines [
    "",
    "    )",
    "\x7d",
    ""])]

/-- The Nushell integration script. -/
def nuTemplate : Text := nuPieces.flatMap (Segment.fill token)

def nuExpandBindingPieces : List Segment := [
  .text (joinLines [
    " | append \x7b",
    "    name: runex_expand",
    "    modifier: "]),
  .hole "NU_MODIFIER".toList,
  .text (joinLines ["", "    keycode: "]),
  .hole "NU_KEYCODE".toList,
  .text (joinLines [
    "",
    "    mode: [emacs vi_insert]",
    "    event: \x7b",
    "        send: executehostcommand",
    "        cmd: \"",
    "            let line = (commandline)",
    "            let cursor = (commandline get-cursor)",
    "            let out = ("]),
  .hole "NU_BIN".toList,
  .text (joinLines [
    " hook --shell nu $'--line=($line)' --cursor $cursor | complete | get stdout | str trim --right)",
    "            if ($out | is-empty) \x7b",
    "                commandline edit --insert ' '",
    "            \x7d else \x7b",
    "                let r = ($out | from json)",
    "                commandline edit --replace $r.line",
    "                commandline set-cursor $r.cursor",
    "            \x7d",
    "        \"",
    "    \x7d",
    "\x7d",
    ""])]

/-- The nu binding of the trigger key. -/
def nuExpandBinding : Text := nuExpandBindingPieces.flatMap (Segment.fill token)

def nuPasteBindingPieces : List Segment := [
  .text (joinLines [
    " | append \x7b",
    "    name: runex_paste",
    "    modifier: control",
    "    keycode: char_v",
    "    mode: [emacs vi_insert]",
    "    event: \x7b",
    "        send: executehostcommand",
    "        cmd: \"",
    "            let clip = ("]),
  .hole "NU_BIN".toList,
  .text (joinLines [
    " paste-clipboard | str join '')",
    "            if not ($clip | is-empty) \x7b",
    "                commandline edit --insert $clip",
    "            \x7d",
    "        \"",
    "    \x7d",
    "\x7d",
    ""])]

/-- The nu binding of the paste key. -/
def nuPasteBinding : Text := nuPasteBindingPieces.flatMap (Segment.fill token)

def nuSelfInsertBindingPieces : List Segment := [
  .text (joinLines [
    " | append \x7b",
    "    name: runex_self_insert",
    "    modifier: "]),
  .hole "NU_SI_MODIFIER".toList,
  .text (joinLines ["", "    keycode: "]),
  .hole "NU_SI_KEYCODE".toList,
  .text (joinLines [
    "",
    "    mode: [emacs vi_insert]",
    "    event: \x7b edit: insertchar, value: ' ' \x7d",
    "\x7d",
    ""])]

/-- The nu binding of the self-insert key. -/
def nuSelfInsertBinding : Text := nuSelfInsertBindingPieces.flatMap (Segment.fill token)

end Runex
