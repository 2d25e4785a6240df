import Runex.App.Config.Issues
import Runex.Infra.IntegrationCheck
import Runex.Lib.ShellLiteral
import Runex.Util.Path

/-!
# The precache

Which of the commands that rules ask for exist, found out once and handed to later invocations in
an environment variable. The shell may do the finding: it is given the list of commands and answers
with a text.

## Main definitions

- `collectUniqueCommands` — the commands rules ask for
- `buildCache`, `buildCacheFromResolved` — the cache, probed or from the answer of the shell
- `SerdeJson` — the reader and the writer of JSON
- `parseCache` — a cache from the environment
- `exportStatement` — the statement that sets the variable
- `handlePrecache` — what the command prints
-/

namespace Runex

open Search Text

def cacheEnvVar : Text := "RUNEX_CMD_CACHE_V1".toList

def cacheVersion : ℕ := 1

def maxCacheBytes : ℕ := 256 * 1024

def maxCacheCommands : ℕ := 10000

def fingerprintLen : ℕ := 16

structure CmdCache where
  v : ℕ
  fingerprint : Text
  commands : CommandMap

/-- `format!("{:016x}", n)` for a `u64`. -/
def hex16 (n : BitVec 64) : Text :=
  (List.range 16).reverse.map fun i => Nat.digitChar (n.toNat / 16 ^ i % 16)

/-- A fingerprint of the search path, the time of the configuration and the shell. The hash is the
    standard library's, which does not say what it computes. -/
def computeFingerprint (hash : Text → ℕ → Text → BitVec 64) (pathEnv : Text) (configMtime : ℕ)
    (shell : Text) : Text :=
  hex16 (hash pathEnv configMtime shell)

/-- The commands not yet seen, each at its first occurrence. -/
def uniqueCommands (seen : List Text) : List Text → List Text
  | [] => []
  | cmd :: cmds =>
    if cmd ∈ seen then uniqueCommands seen cmds else cmd :: uniqueCommands (cmd :: seen) cmds

/-- The commands that the rules ask for, in every shell. -/
def collectUniqueCommands (config : Config) : List Text :=
  uniqueCommands [] (config.abbr.flatMap fun abbr =>
    abbr.whenCommandExists.toList.flatMap fun cmds => cmds.allValues.flatten)

/-- The cache of what is probed. -/
def buildCache (config : Config) (fingerprint : Text) (commandExists : Text → Bool) : CmdCache where
  v := cacheVersion
  fingerprint
  commands := Memo.fill id commandExists (collectUniqueCommands config)

/-- One `cmd=0` or `cmd=1`. -/
def parseEntry (entry : Text) : Option (Text × Bool) :=
  let entry := trim entry
  if entry = [] then none
  else (splitOnce ['='] entry).map fun (cmd, val) => (cmd, val = ['1'])

/-- The answer of the shell, `cmd1=1,cmd2=0,…`. -/
def parseResolved (resolved : Text) : CommandMap :=
  Memo.fill Prod.fst Prod.snd ((resolved.splitOn ',').filterMap parseEntry)

/-- The cache of what the shell answers. -/
def buildCacheFromResolved (config : Config) (fingerprint resolvedStr : Text) : CmdCache :=
  let resolved := parseResolved resolvedStr
  { v := cacheVersion
    fingerprint
    commands := Memo.fill id (fun cmd => (resolved.lookup cmd).getD false)
      (collectUniqueCommands config) }

/-- The commands as the shell is given them. -/
def commandList (config : Config) : Text := [','].intercalate (collectUniqueCommands config)

/-- `serde_json` at the type of the cache. -/
structure SerdeJson where
  toString : CmdCache → Text
  fromStr : Text → Option CmdCache

def cacheToJson (serde : SerdeJson) (cache : CmdCache) : Text := serde.toString cache

/-- A cache from the environment; `none` for any damage. -/
def parseCache (serde : SerdeJson) (json : Text) : Option CmdCache :=
  if byteLen json > maxCacheBytes then none
  else
    match serde.fromStr json with
    | none => none
    | some cache =>
      if cache.v ≠ cacheVersion then none
      else if byteLen cache.fingerprint ≠ fingerprintLen ∨
          ¬ cache.fingerprint.all fun c => (ShellLiteral.hexDigit? c).isSome then none
      else if cache.commands.keys.card > maxCacheCommands then none
      else some cache

/-- A cache that is set in the environment and fits the search path of now. -/
def loadCache (serde : SerdeJson) (env : Option Text) (expectedFingerprint : Text) :
    Option CmdCache := do
  let cache ← parseCache serde (← env)
  if cache.fingerprint ≠ expectedFingerprint then none else some cache

/-- The statement that sets the variable, for the name of a shell. -/
def exportStatement (shell : Text) (cacheJson : Text) : Text :=
  let posix := "export ".toList ++ cacheEnvVar ++ "='".toList ++
    replaceAll ['\''] "'\\''".toList cacheJson ++ ['\'']
  match String.ofList shell with
  | "bash" | "zsh" => posix
  | "pwsh" =>
    "$env:".toList ++ cacheEnvVar ++ "='".toList ++ replaceAll ['\''] "''".toList cacheJson ++ ['\'']
  | "nu" =>
    "$env.".toList ++ cacheEnvVar ++ " = '".toList ++ replaceAll ['\''] "''".toList cacheJson ++
      ['\'']
  | "clink" => "set ".toList ++ cacheEnvVar ++ ['='] ++ replaceAll ['"'] "\\\"".toList cacheJson
  | _ => posix

/-- What `runex precache` prints: the list of commands, or the statement for the answer of the
    shell or for what is probed. -/
def handlePrecache (serde : SerdeJson) (shell : Shell) (listCommands : Bool) (resolved : Option Text)
    (config : Config) (fingerprint : Text) (commandExists : Text → Bool) : Text :=
  if listCommands then
    -- With `path_only` the shell template is to probe by itself.
    if config.precache.pathOnly then [] else commandList config
  else
    let cache := match resolved with
      | some resolvedStr => buildCacheFromResolved config fingerprint resolvedStr
      | none => buildCache config fingerprint commandExists
    exportStatement (shellShortName shell) (cacheToJson serde cache) ++ ['\n']

-- ════════════════════════════════════════════════════════════════════════
-- The collected commands
-- ════════════════════════════════════════════════════════════════════════

theorem uniqueCommands_nil (seen : List Text) : uniqueCommands seen [] = [] := rfl

theorem uniqueCommands_cons (seen : List Text) (cmd : Text) (cmds : List Text) :
    uniqueCommands seen (cmd :: cmds) =
      if cmd ∈ seen then uniqueCommands seen cmds else cmd :: uniqueCommands (cmd :: seen) cmds :=
  rfl

theorem mem_uniqueCommands {seen cmds : List Text} {cmd : Text} :
    cmd ∈ uniqueCommands seen cmds ↔ cmd ∈ cmds ∧ cmd ∉ seen := by
  induction cmds generalizing seen with
  | nil => simp [uniqueCommands_nil]
  | cons c cmds ih =>
    rw [uniqueCommands_cons]
    split
    · next hseen =>
      rw [ih, List.mem_cons]
      constructor
      · exact fun h => ⟨Or.inr h.1, h.2⟩
      · rintro ⟨rfl | hmem, hnot⟩
        · exact absurd hseen hnot
        · exact ⟨hmem, hnot⟩
    · next hseen =>
      rw [List.mem_cons, ih, List.mem_cons, List.mem_cons, not_or]
      constructor
      · rintro (rfl | ⟨hmem, -, hnot⟩)
        · exact ⟨Or.inl rfl, hseen⟩
        · exact ⟨Or.inr hmem, hnot⟩
      · rintro ⟨rfl | hmem, hnot⟩
        · exact Or.inl rfl
        · by_cases hc : cmd = c
          · exact Or.inl hc
          · exact Or.inr ⟨hmem, hc, hnot⟩

theorem nodup_uniqueCommands (seen cmds : List Text) : (uniqueCommands seen cmds).Nodup := by
  induction cmds generalizing seen with
  | nil => exact List.nodup_nil
  | cons c cmds ih =>
    rw [uniqueCommands_cons]
    split
    · exact ih seen
    · refine List.nodup_cons.mpr ⟨fun hmem => ?_, ih _⟩
      exact (mem_uniqueCommands.mp hmem).2 (List.mem_cons_self ..)

theorem nodup_collectUniqueCommands (config : Config) : (collectUniqueCommands config).Nodup :=
  nodup_uniqueCommands [] _

/-- Validation has checked every collected command. -/
theorem Accepted.checkCmdEntry {engine : RegexLite} {config : Config} (h : Accepted engine config)
    {cmd : Text} (hcmd : cmd ∈ collectUniqueCommands config) : checkCmdEntry cmd = none := by
  obtain ⟨hmem, -⟩ := mem_uniqueCommands.mp hcmd
  obtain ⟨abbr, habbr, hmem⟩ := List.mem_flatMap.mp hmem
  obtain ⟨cmds, hcmds, hmem⟩ := List.mem_flatMap.mp hmem
  obtain ⟨list, hlist, hmem⟩ := List.mem_flatten.mp hmem
  exact ((h.rule habbr).cmds cmds (Option.mem_toList.mp hcmds) list hlist).2 cmd hmem

end Runex
