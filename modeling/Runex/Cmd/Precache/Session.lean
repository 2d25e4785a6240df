import Runex.App.Precache.HandOff
import Runex.Cmd.Hook.Widgets
import Runex.Main

/-!
# The precache over a session

`runex precache` prints a statement that the shell evaluates into an environment variable, and every
later key press reads it, in whatever shell inherits it. Nobody tells the variable when the search
path, the configuration or the installed commands change. What it does all the same is to remember
one fingerprint with the commands found then; a key press where the fingerprint is that one takes
these commands as installed.

## Main definitions

- `CacheEvent`, `runCache` — a session over the environment variable
- `Remembered`, `runRemembered` — the same over what it remembers

## Main results

- `precache_session` — the variable is a memory of one fingerprint and the commands found
- `precache_transparent` — while no remembered command is removed, it changes no key press
-/

namespace Runex

open ShellLiteral (isSmartSingleQuote)
open Text (byteLen)

section Session

variable {engine : RegexLite} (hash : Text → ℕ → Text → BitVec 64) (serde : SerdeJson)

/-- What `runex precache` prints: nothing without a configuration. -/
def precacheCommand (w : World engine) (shell : Shell) (resolved : Option Text) : Option Text :=
  w.config.map fun config => handlePrecache serde shell false resolved config.val
    (w.computePrecacheFingerprint hash shell) w.installed

/-- The variable after `eval "$(…)"`. What is no assignment leaves it as it is. -/
def evalPrecache (shell : Shell) (printed env : Option Text) : Option Text :=
  (printed.bind fun out => evalAssignment shell (commandSubstitution out)).or env

/-- What happens while the variable is around. -/
inductive CacheEvent (engine : RegexLite) where
  | change (w : World engine)
  | precache (shell : Shell) (resolved : Option Text)
  | press (shell : Shell) (line : Text) (cursor : ℕ) (pastePending : Bool)

/-- What the key presses of a session print. -/
def runCache (toJson : Text → Text) :
    List (CacheEvent engine) → World engine → Option Text → List (Option Text)
  | [], _, _ => []
  | .change w :: events, _, env => runCache toJson events w env
  | .precache shell resolved :: events, w, env =>
    runCache toJson events w (evalPrecache shell (precacheCommand hash serde w shell resolved) env)
  | .press shell line cursor pastePending :: events, w, env =>
    hookCommand hash serde toJson env w shell line cursor pastePending ::
      runCache toJson events w env

-- ════════════════════════════════════════════════════════════════════════
-- What the variable remembers
-- ════════════════════════════════════════════════════════════════════════

/-- One fingerprint and the commands found then. -/
structure Remembered where
  fingerprint : Text
  found : Text → Bool

/-- A remembered command, where the fingerprint is the one of now. -/
def recalls (memory : Option Remembered) (fingerprint cmd : Text) : Bool :=
  memory.any fun remembered => remembered.fingerprint = fingerprint && remembered.found cmd

namespace World

/-- What is found: by probing, or by the shell. -/
def answers (w : World engine) (resolved : Option Text) (cmd : Text) : Bool :=
  match resolved with
  | none => w.installed cmd
  | some answer => ((parseResolved answer).lookup cmd).getD false

/-- The cache that is built. -/
def cache (w : World engine) (config : Config) (shell : Shell) (resolved : Option Text) : CmdCache :=
  builtCache config (hash w.pathEnv w.configMtime (shellShortName shell)) (w.answers resolved)

/-- What is remembered after the precache of a shell. The statement for clink and a cache over the
    limits leave nothing that is read back. -/
def remember (w : World engine) (shell : Shell) (resolved : Option Text)
    (memory : Option Remembered) : Option Remembered :=
  match w.config with
  | none => memory
  | some config =>
    if shell ≠ .clink ∧
        byteLen (cacheToJson serde (w.cache hash config.val shell resolved)) ≤ maxCacheBytes ∧
        (collectUniqueCommands config.val).length ≤ maxCacheCommands then
      some ⟨w.computePrecacheFingerprint hash shell, fun cmd =>
        (collectUniqueCommands config.val).contains cmd && w.answers resolved cmd⟩
    else none

end World

/-- What the key presses of a session print, with the memory in place of the variable. -/
def runRemembered (toJson : Text → Text) :
    List (CacheEvent engine) → World engine → Option Remembered → List (Option Text)
  | [], _, _ => []
  | .change w :: events, _, memory => runRemembered toJson events w memory
  | .precache shell resolved :: events, w, memory =>
    runRemembered toJson events w (w.remember hash serde shell resolved memory)
  | .press shell line cursor pastePending :: events, w, memory =>
    handle engine toJson shell line cursor pastePending (w.config.map Subtype.val)
        (fun cmd => w.installed cmd || recalls memory (w.computePrecacheFingerprint hash shell) cmd) ::
      runRemembered toJson events w memory

/-- PowerShell reads four more characters as a single quote; its precache is only run for commands
    without them. -/
def CleanPrecache : List (CacheEvent engine) → World engine → Prop
  | [], _ => True
  | .change w :: events, _ => CleanPrecache events w
  | .precache shell _ :: events, w =>
    (shell = .pwsh → ∀ config, w.config = some config →
      ∀ cmd ∈ collectUniqueCommands config.val, ∀ c ∈ cmd, isSmartSingleQuote c = false) ∧
      CleanPrecache events w
  | .press .. :: events, w => CleanPrecache events w

end Session

-- ════════════════════════════════════════════════════════════════════════
-- One precache
-- ════════════════════════════════════════════════════════════════════════

section Precache

variable {engine : RegexLite} {hash : Text → ℕ → Text → BitVec 64} {serde : SerdeJson}
  {config : Config} {n : BitVec 64} {oracle : Text → Bool} {entries : List (Text × Bool)}
  {json : Text} {shell : Shell}

/-- No line ends within the statement. -/
theorem newline_not_mem_exportStatement (hquote : '\'' ∉ json) (h : '\n' ∉ json) :
    '\n' ∉ exportStatement (shellShortName shell) json := by
  by_cases hshell : shell = .clink
  · subst hshell
    have hopening : '\n' ∉ assignmentOpening .clink := by decide +kernel
    have hvalue : '\n' ∉ "\\\"".toList := by decide
    rw [exportStatement_clink, List.mem_append, not_or]
    exact ⟨hopening, fun hmem => (Search.mem_of_mem_replaceAll hmem).elim hvalue h⟩
  · have hopening : '\n' ∉ assignmentOpening shell := by cases shell <;> decide +kernel
    rw [exportStatement_quoted hshell hquote]
    simp [hopening, h]

theorem commandSubstitution_of_no_newline {out : Text} (h : '\n' ∉ out) :
    commandSubstitution (out ++ ['\n']) = out := by
  rw [commandSubstitution, List.rdropWhile_concat_pos _ _ _ (by decide),
    List.rdropWhile_eq_self_iff]
  intro hnil hlast
  exact h ((beq_iff_eq.mp hlast) ▸ List.getLast_mem hnil)

/-- The text of a cache has no line end. -/
theorem Written.newline_not_mem (h : Written config n oracle entries json) : '\n' ∉ json := by
  have hplain : ∀ c ∈ json, c ≠ '\n' := by
    rw [h.text]
    refine forall_mem_cacheJson (by decide +kernel) (fun c hc => ?_) fun entry hmem c hc => ?_
    · rintro rfl
      exact absurd (isFingerprintDigit_of_mem_hex16 hc).2.2.2.2.2.1 (by decide)
    · rintro rfl
      exact absurd (h.plain entry hmem '\n' hc).2.2 (by decide)
  exact fun hmem => hplain '\n' hmem rfl

/-- The text of a cache has the quotes of its commands only. -/
theorem Written.not_smart (h : Written config n oracle entries json)
    (hclean : ∀ cmd ∈ collectUniqueCommands config, ∀ c ∈ cmd, isSmartSingleQuote c = false) :
    ∀ c ∈ json, isSmartSingleQuote c = false := by
  rw [h.text]
  exact forall_mem_cacheJson (by decide +kernel) (fun _ => isSmartSingleQuote_of_mem_hex16)
    fun entry hmem => hclean _ ((h.names _).mp (List.mem_map_of_mem hmem))

/-- Reading back what was written: within the limits the cache, over them nothing. -/
theorem Written.parseCache_eq (hserde : serde.Documented)
    (h : Written config n oracle entries json) :
    parseCache serde json =
      if byteLen json ≤ maxCacheBytes ∧ (collectUniqueCommands config).length ≤ maxCacheCommands
      then some (builtCache config n oracle) else none := by
  have hcard : (builtCache config n oracle).commands.keys.card =
      (collectUniqueCommands config).length := by
    rw [builtCache, buildCache, Memo.keys_fill, List.map_id,
      List.toFinset_card_of_nodup (nodup_collectUniqueCommands config)]
  by_cases hbytes : byteLen json ≤ maxCacheBytes
  · by_cases hcount : (collectUniqueCommands config).length ≤ maxCacheCommands
    · have hlimit := hcard.le.trans hcount
      rw [h.commands] at hlimit
      have htext := h.text ▸ hbytes
      rw [if_pos ⟨hbytes, hcount⟩, h.text, parseCache_cacheJson hserde h.plain htext hlimit,
        ← h.commands]
      rfl
    · rw [if_neg fun hboth => hcount hboth.2, Option.eq_none_iff_forall_ne_some]
      intro cache hcache
      have hcommands := hcache
      rw [h.text] at hcommands
      have heq := eq_of_parseCache_cacheJson hserde (isJsonPlain_hex16 n) h.plain hcommands
      rw [← h.commands] at heq
      rw [parseCache] at hcache
      simp only [Option.ite_none_left_eq_some] at hcache
      obtain ⟨-, hcache⟩ := hcache
      split at hcache
      · cases hcache
      · simp only [Option.ite_none_left_eq_some, Option.some.injEq] at hcache
        obtain ⟨-, -, hfew, rfl⟩ := hcache
        rw [heq, hcard] at hfew
        exact hfew (by omega)
  · rw [if_neg fun hboth => hbytes hboth.1, parseCache, if_pos (by omega)]

end Precache

-- ════════════════════════════════════════════════════════════════════════
-- The variable and the memory
-- ════════════════════════════════════════════════════════════════════════

section Simulation

variable {engine : RegexLite} {hash : Text → ℕ → Text → BitVec 64} {serde : SerdeJson}
  {w : World engine} {env : Option Text} {memory : Option Remembered}

/-- The variable gives the hints that the memory has, and they are plain names. -/
structure Hints (serde : SerdeJson) (env : Option Text) (memory : Option Remembered) : Prop where
  lookup : ∀ fingerprint cmd,
    (((loadCache serde env fingerprint).map CmdCache.commands).bind fun h => h.lookup cmd) =
      some true ↔ recalls memory fingerprint cmd = true
  plain : ∀ fingerprint cmd, recalls memory fingerprint cmd = true →
    ¬ ('/' ∈ cmd ∨ '\\' ∈ cmd ∨ ':' ∈ cmd)

/-- A variable from which no cache is read, and nothing remembered. -/
theorem Hints.nothing (h : ∀ value, env = some value → parseCache serde value = none) :
    Hints serde env none := by
  refine ⟨fun fingerprint cmd => ?_, fun fingerprint cmd h => nomatch h⟩
  have hload : loadCache serde env fingerprint = none := by
    cases env with
    | none => rfl
    | some value => simp [loadCache, h value rfl]
  simp [hload, recalls]

theorem Hints.unset : Hints serde none none := .nothing fun _ hvalue => nomatch hvalue

/-- What a key press takes as installed. -/
theorem Hints.commandExists_eq (h : Hints serde env memory) (shell : Shell) :
    commandExists w.lookups w.pathPrepend
        ((loadCache serde env (w.computePrecacheFingerprint hash shell)).map CmdCache.commands) =
      fun cmd => w.installed cmd ||
        recalls memory (w.computePrecacheFingerprint hash shell) cmd := by
  funext cmd
  have hlookup := h.lookup (w.computePrecacheFingerprint hash shell) cmd
  by_cases hsep : '/' ∈ cmd ∨ '\\' ∈ cmd ∨ ':' ∈ cmd
  · have hnot : recalls memory (w.computePrecacheFingerprint hash shell) cmd = false :=
      Bool.eq_false_iff.mpr fun hrecall => h.plain _ _ hrecall hsep
    rw [World.installed, commandExists_of_separator hsep, commandExists_of_separator hsep, hnot]
    rfl
  · have hbeq : ((((loadCache serde env (w.computePrecacheFingerprint hash shell)).map
        CmdCache.commands).bind fun h => h.lookup cmd) == some true) =
        recalls memory (w.computePrecacheFingerprint hash shell) cmd := by
      rw [Bool.eq_iff_iff, beq_iff_eq]
      exact hlookup
    rw [World.installed, commandExists_of_name hsep, commandExists_of_name hsep, hbeq]
    simp [Bool.or_comm, Bool.or_left_comm]

/-- What a precache writes gives its commands as hints, where it is read back. -/
theorem Hints.written {config : Config} {n : BitVec 64} {oracle : Text → Bool}
    {entries : List (Text × Bool)} {json : Text} (hserde : serde.Documented)
    (haccepted : Accepted engine config) (h : Written config n oracle entries json) :
    Hints serde (some json)
      (if byteLen json ≤ maxCacheBytes ∧ (collectUniqueCommands config).length ≤ maxCacheCommands
        then some ⟨hex16 n, fun cmd => (collectUniqueCommands config).contains cmd && oracle cmd⟩
        else none) := by
  have hparse := h.parseCache_eq hserde
  split
  · next hlimits =>
    rw [if_pos hlimits] at hparse
    refine ⟨fun fingerprint cmd => ?_, fun fingerprint cmd hrecall => ?_⟩
    · have hload : loadCache serde (some json) fingerprint =
          if hex16 n ≠ fingerprint then none else some (builtCache config n oracle) := by
        simp only [loadCache, Option.bind_eq_bind, Option.bind_some, hparse]
        rfl
      have hlookup : (builtCache config n oracle).commands.lookup cmd = some true ↔
          cmd ∈ collectUniqueCommands config ∧ oracle cmd = true := by
        rw [builtCache, buildCache, Memo.lookup_fill_id]
        simp
      rw [hload]
      by_cases hfp : hex16 n = fingerprint
      · simp [hfp, recalls, hlookup]
      · simp [hfp, recalls]
    · simp only [recalls, Option.any_some, Bool.and_eq_true, decide_eq_true_eq,
        List.contains_iff_mem] at hrecall
      obtain ⟨-, -, -, -, -, -, ⟨hslash, hbackslash, hcolon⟩, -⟩ :=
        checkCmdEntry_eq_none.mp (haccepted.checkCmdEntry hrecall.2.1)
      simp [hslash, hbackslash, hcolon]
  · next hlimits =>
    rw [if_neg hlimits] at hparse
    exact .nothing fun _ hvalue => Option.some.inj hvalue ▸ hparse

/-- The statement that the command prints. -/
theorem precacheCommand_eq {config : {config : Config // Accepted engine config}}
    (hconfig : w.config = some config) (shell : Shell) (resolved : Option Text) :
    precacheCommand hash serde w shell resolved =
      some (exportStatement (shellShortName shell)
        (cacheToJson serde (w.cache hash config.val shell resolved)) ++ ['\n']) := by
  rw [precacheCommand, hconfig]
  cases resolved <;> rfl

/-- A precache leaves what it is to remember. -/
theorem Hints.precache (hserde : serde.Documented) (h : Hints serde env memory) (shell : Shell)
    (resolved : Option Text) (hclean : shell = .pwsh → ∀ config, w.config = some config →
      ∀ cmd ∈ collectUniqueCommands config.val, ∀ c ∈ cmd, isSmartSingleQuote c = false) :
    Hints serde (evalPrecache shell (precacheCommand hash serde w shell resolved) env)
      (w.remember hash serde shell resolved memory) := by
  rw [World.remember]
  cases hconfig : w.config with
  | none =>
    have hprinted : precacheCommand hash serde w shell resolved = none := by
      rw [precacheCommand, hconfig]
      rfl
    rw [hprinted]
    exact h
  | some config =>
    obtain ⟨entries, hwritten⟩ := exists_written config.property hserde
      (hash w.pathEnv w.configMtime (shellShortName shell)) (w.answers resolved)
    have hunquoted := hwritten.text ▸ hwritten.unquoted
    rw [precacheCommand_eq hconfig, evalPrecache, Option.bind_some, World.cache,
      commandSubstitution_of_no_newline
        (newline_not_mem_exportStatement hunquoted hwritten.newline_not_mem)]
    by_cases hshell : shell = .clink
    · subst hshell
      obtain ⟨value, heval⟩ : ∃ value, evalAssignment .clink (exportStatement
          (shellShortName .clink) (cacheToJson serde (builtCache config.val
            (hash w.pathEnv w.configMtime (shellShortName .clink)) (w.answers resolved)))) =
          some value := by
        rw [exportStatement_clink, evalAssignment, Search.stripPrefix?_append]
        exact ⟨_, rfl⟩
      have hnone := not_parsed_of_clink hserde (hwritten.text ▸ heval)
      simp only [heval, Option.some_or, ne_eq, not_true, false_and, if_false]
      exact .nothing fun _ hvalue => Option.some.inj hvalue ▸ hnone
    · have heval := evalAssignment_quoted hshell hunquoted fun hpwsh =>
        hwritten.not_smart (hclean hpwsh config hconfig)
      simp only [heval, Option.some_or, ne_eq, hshell, not_false_iff, true_and]
      exact .written hserde config.property hwritten

/-- A session over the variable is one over the memory. -/
theorem runCache_eq (hserde : serde.Documented) (toJson : Text → Text)
    (events : List (CacheEvent engine)) (hclean : CleanPrecache events w)
    (h : Hints serde env memory) :
    runCache hash serde toJson events w env = runRemembered hash serde toJson events w memory := by
  induction events generalizing w env memory with
  | nil => rfl
  | cons event events ih =>
    cases event with
    | change w' => exact ih hclean h
    | precache shell resolved =>
      exact ih hclean.2 (h.precache hserde shell resolved hclean.1)
    | press shell line cursor pastePending =>
      rw [runCache, runRemembered, hookCommand_eq, h.commandExists_eq, ih hclean h]

/-- While everything remembered is still installed, the memory does not show. -/
def StillInstalled (hash : Text → ℕ → Text → BitVec 64) (serde : SerdeJson) :
    List (CacheEvent engine) → World engine → Option Remembered → Prop
  | [], _, _ => True
  | .change w :: events, _, memory => StillInstalled hash serde events w memory
  | .precache shell resolved :: events, w, memory =>
    StillInstalled hash serde events w (w.remember hash serde shell resolved memory)
  | .press shell _ _ _ :: events, w, memory =>
    (∀ cmd, recalls memory (w.computePrecacheFingerprint hash shell) cmd = true →
      w.installed cmd = true) ∧ StillInstalled hash serde events w memory

/-- The session without its precaches. -/
def withoutPrecache (events : List (CacheEvent engine)) : List (CacheEvent engine) :=
  events.filter fun event =>
    match event with
    | .precache .. => false
    | .change _ | .press .. => true

theorem runRemembered_withoutPrecache (toJson : Text → Text) (events : List (CacheEvent engine))
    (h : StillInstalled hash serde events w memory) :
    runRemembered hash serde toJson events w memory =
      runRemembered hash serde toJson (withoutPrecache events) w none := by
  induction events generalizing w memory with
  | nil => rfl
  | cons event events ih =>
    cases event with
    | change w' => exact ih h
    | precache shell resolved => exact ih h
    | press shell line cursor pastePending =>
      have hinstalled : (fun cmd => w.installed cmd ||
            recalls memory (w.computePrecacheFingerprint hash shell) cmd) =
          fun cmd => w.installed cmd ||
            recalls none (w.computePrecacheFingerprint hash shell) cmd := by
        funext cmd
        cases hrecall : recalls memory (w.computePrecacheFingerprint hash shell) cmd with
        | false => rfl
        | true => rw [h.1 cmd hrecall, Bool.true_or, Bool.true_or]
      show runRemembered hash serde toJson (.press shell line cursor pastePending :: events) w
        memory = runRemembered hash serde toJson
          (.press shell line cursor pastePending :: withoutPrecache events) w none
      rw [runRemembered, runRemembered, hinstalled, ih h.2]

theorem cleanPrecache_withoutPrecache (events : List (CacheEvent engine)) :
    CleanPrecache (withoutPrecache events) w := by
  induction events generalizing w with
  | nil => exact trivial
  | cons event events ih =>
    cases event with
    | change w' => exact ih
    | precache shell resolved => exact ih
    | press shell line cursor pastePending => exact ih

end Simulation

/-- **The variable is a memory.** In every session of changes to the world, precaches and key presses
    in any shells that share the environment, each key press prints what it prints when a command is
    taken as installed that is, or that was found by the last precache handed on, where that one had
    the fingerprint of now. -/
theorem precache_session (engine : RegexLite) (hash : Text → ℕ → Text → BitVec 64)
    (serde : SerdeJson) (hserde : serde.Documented) (toJson : Text → Text)
    (events : List (CacheEvent engine)) (w : World engine) (hclean : CleanPrecache events w) :
    runCache hash serde toJson events w none =
      runRemembered hash serde toJson events w none :=
  runCache_eq hserde toJson events hclean .unset

/-- A world where every command exists, with one rule that asks for a command. -/
def cachedWorld : World default where
  config := some ⟨smartQuoteConfig, smartQuoteConfig_accepted⟩
  configMtime := 0
  pathEnv := []
  lookups := ⟨false, fun _ => false, fun _ => true⟩
  pathPrepend := none

theorem remember_cachedWorld :
    cachedWorld.remember (fun _ _ _ => 0) .reference .bash none none =
      some ⟨hex16 0, fun cmd =>
        (collectUniqueCommands smartQuoteConfig).contains cmd && cachedWorld.answers none cmd⟩ :=
  if_pos ⟨by decide, (smartQuoteConfig_small _).1, by decide +kernel⟩

/-- The command is removed after the precache. -/
def removedEvents : List (CacheEvent default) :=
  [.precache .bash none,
    .change { cachedWorld with lookups := ⟨false, fun _ => false, fun _ => false⟩ },
    .press .bash ['a'] 1 false]

/-- Its rule still fires. -/
theorem precache_session_removed :
    runCache (fun _ _ _ => 0) .reference ShellLiteral.jsonQuote removedEvents cachedWorld none =
      [some "READLINE_LINE='b '; READLINE_POINT=2".toList] := by
  refine (precache_session default (fun _ _ _ => 0) .reference SerdeJson.reference_documented
    ShellLiteral.jsonQuote removedEvents cachedWorld ⟨nofun, trivial⟩).trans ?_
  rw [removedEvents, runRemembered, remember_cachedWorld]
  decide +kernel

/-- **The precache changes no key press**, in any session in which the commands it found are still
    there at every key press with its fingerprint: commands may be installed, the configuration and
    the search path may change, and precaches may run at any time. -/
theorem precache_transparent (engine : RegexLite) (hash : Text → ℕ → Text → BitVec 64)
    (serde : SerdeJson) (hserde : serde.Documented) (toJson : Text → Text)
    (events : List (CacheEvent engine)) (w : World engine) (hclean : CleanPrecache events w)
    (hstill : StillInstalled hash serde events w none) :
    runCache hash serde toJson events w none =
      runCache hash serde toJson (withoutPrecache events) w none := by
  rw [runCache_eq hserde toJson events hclean .unset,
    runCache_eq hserde toJson _ (cleanPrecache_withoutPrecache events) .unset]
  exact runRemembered_withoutPrecache toJson events hstill

/-- The command stays. -/
def keptEvents : List (CacheEvent default) :=
  [.precache .bash none, .press .zsh ['a'] 1 false, .press .bash ['a'] 1 false]

theorem precache_transparent_kept :
    runCache (fun _ _ _ => 0) .reference ShellLiteral.jsonQuote keptEvents cachedWorld none =
    runCache (fun _ _ _ => 0) .reference ShellLiteral.jsonQuote
      [.press .zsh ['a'] 1 false, .press .bash ['a'] 1 false] cachedWorld none := by
  have hkept : ∀ fingerprint cmd, recalls (cachedWorld.remember (fun _ _ _ => 0) .reference .bash
      none none) fingerprint cmd = true → cachedWorld.installed cmd = true := by
    intro fingerprint cmd hrecall
    rw [remember_cachedWorld] at hrecall
    simp only [recalls, Option.any_some, Bool.and_eq_true] at hrecall
    exact hrecall.2.2
  exact precache_transparent default (fun _ _ _ => 0) .reference SerdeJson.reference_documented
    ShellLiteral.jsonQuote keptEvents cachedWorld ⟨nofun, trivial⟩ ⟨hkept _, hkept _, trivial⟩

end Runex
