import Runex.App.Precache

/-!
# A precache from the answer of the shell

The shell is given the commands in one text and answers in one text. Validation keeps the two
delimiters out of a command, but not white space other than blank and tab, and the reader trims:
a command that starts with such white space is recorded as missing, and its answer can replace that
of another command.

## Main definitions

- `shellAnswer` — what a shell answers to the list of commands

## Main results

- `resolved_eq_probed_iff` — when the answer gives the cache of what is probed
-/

namespace Runex

open Search Text

/-- The answer of a shell in which `oracle` tells what exists. -/
def shellAnswer (oracle : Text → Bool) (printed : Text) : Text :=
  if printed = [] then []
  else [','].intercalate ((printed.splitOn ',').map fun name =>
    name ++ ['=', if oracle name then '1' else '0'])

variable {oracle : Text → Bool} {cmds : List Text} {cmd : Text}

-- ════════════════════════════════════════════════════════════════════════
-- Reading the answer
-- ════════════════════════════════════════════════════════════════════════

/-- What validation asks of a command that the reader relies on. -/
theorem delimiters_of_checkCmdEntry (h : checkCmdEntry cmd = none) :
    isBlank cmd = false ∧ ',' ∉ cmd ∧ '=' ∉ cmd := by
  obtain ⟨-, hblank, -, -, -, -, -, hmeta⟩ := checkCmdEntry_eq_none.mp h
  exact ⟨hblank, fun hc => hmeta ',' hc (by decide), fun hc => hmeta '=' hc (by decide)⟩

theorem trimStart_ne_nil (h : isBlank cmd = false) : trimStart cmd ≠ [] := by
  intro hnil
  have hall := List.dropWhile_eq_nil_iff.mp hnil
  have : isBlank cmd = true := List.all_eq_true.mpr hall
  simp [this] at h

/-- An entry that ends with its answer is only trimmed at its start. -/
theorem trim_answer {name : Text} (h : isBlank name = false) (val : Char)
    (hval : isWhitespace val = false) :
    trim (name ++ ['=', val]) = trimStart name ++ ['=', val] := by
  have hstart : trimStart (name ++ ['=', val]) = trimStart name ++ ['=', val] := by
    rw [trimStart, List.dropWhile_append, if_neg]
    · rfl
    · rw [List.isEmpty_iff]
      exact trimStart_ne_nil h
  rw [trim, hstart]
  refine trimEnd_eq_self_iff.mpr fun c hc => ?_
  obtain rfl : val = c := by simpa using hc
  exact hval

/-- Reading the entry of one command. -/
theorem parseEntry_answer (h : checkCmdEntry cmd = none) :
    parseEntry (cmd ++ ['=', if oracle cmd then '1' else '0']) =
      some (trimStart cmd, oracle cmd) := by
  obtain ⟨hblank, -, hequals⟩ := delimiters_of_checkCmdEntry h
  have hval : isWhitespace (if oracle cmd then '1' else '0') = false := by
    cases oracle cmd <;> rfl
  have hname : '=' ∉ trimStart cmd := fun hmem => hequals ((trimStart_suffix cmd).subset hmem)
  have hsplit : splitOnce ['='] (trimStart cmd ++ ['=', if oracle cmd then '1' else '0']) =
      some (trimStart cmd, [if oracle cmd then '1' else '0']) :=
    splitOnce_singleton_eq_some.mpr ⟨rfl, hname⟩
  rw [parseEntry, trim_answer hblank _ hval, if_neg (by simp), hsplit]
  cases oracle cmd <;> rfl

/-- The entries of an answer. -/
theorem parseResolved_shellAnswer (h : ∀ cmd ∈ cmds, checkCmdEntry cmd = none) :
    parseResolved (shellAnswer oracle ([','].intercalate cmds)) =
      Memo.fill trimStart oracle cmds := by
  by_cases hcmds : cmds = []
  · subst hcmds
    rfl
  · have hcomma : ∀ cmd ∈ cmds, ',' ∉ cmd := fun cmd hcmd =>
      (delimiters_of_checkCmdEntry (h cmd hcmd)).2.1
    have hprinted : ([','].intercalate cmds).splitOn ',' = cmds :=
      List.splitOn_intercalate ',' hcomma hcmds
    have hne : [','].intercalate cmds ≠ [] := by
      intro hnil
      rw [hnil, List.splitOn_nil] at hprinted
      have hempty := delimiters_of_checkCmdEntry (h [] (hprinted ▸ List.mem_singleton_self _))
      cases hempty.1
    have hanswers : ∀ entry ∈ cmds.map (fun name => name ++ ['=', if oracle name then '1' else '0']),
        ',' ∉ entry := by
      rintro _ hentry hmem
      obtain ⟨cmd, hcmd, rfl⟩ := List.mem_map.mp hentry
      have hval : ',' ≠ (if oracle cmd then '1' else '0') := by cases oracle cmd <;> decide
      simp [hcomma cmd hcmd, hval] at hmem
    have hread : (cmds.map fun name => name ++ ['=', if oracle name then '1' else '0']).filterMap
        parseEntry = cmds.map fun cmd => (trimStart cmd, oracle cmd) := by
      rw [List.filterMap_map, ← List.filterMap_eq_map]
      exact List.filterMap_congr fun cmd hcmd => parseEntry_answer (h cmd hcmd)
    rw [shellAnswer, if_neg hne, hprinted, parseResolved,
      List.splitOn_intercalate ',' hanswers (by simpa using hcmds), hread, Memo.fill, Memo.fill,
      List.foldl_map]

-- ════════════════════════════════════════════════════════════════════════
-- Commands that the reader confuses
-- ════════════════════════════════════════════════════════════════════════

/-- The last answer under the trimmed name `d`. -/
def lastAnswer (oracle : Text → Bool) (cmds : List Text) (d : Text) : Bool :=
  ((cmds.reverse.find? fun n => trimStart n = d).map oracle).getD false

theorem trimStart_trimStart (s : Text) : trimStart (trimStart s) = trimStart s :=
  List.dropWhile_idempotent ..

variable {d : Text}

/-- A trimmed name is what is looked up. -/
theorem trimStart_of_lastAnswer (h : lastAnswer oracle cmds d = true) : trimStart d = d := by
  unfold lastAnswer at h
  cases hfind : cmds.reverse.find? fun n => trimStart n = d with
  | none => simp [hfind] at h
  | some n =>
    obtain rfl : trimStart n = d := by simpa using List.find?_some hfind
    exact trimStart_trimStart n

/-- An earlier command does not change what is answered for a later one. -/
theorem lastAnswer_cons_of_mem {first : Text} (hd : d ∈ cmds) :
    lastAnswer oracle (first :: cmds) d = lastAnswer oracle cmds d := by
  unfold lastAnswer
  rw [List.reverse_cons, List.find?_append]
  cases hfind : cmds.reverse.find? fun n => trimStart n = d with
  | some n => rfl
  | none =>
    have hblank : trimStart d ≠ d := by
      simpa using List.find?_eq_none.mp hfind d (List.mem_reverse.mpr hd)
    have hfirst : trimStart first ≠ d := fun h => hblank (h ▸ trimStart_trimStart first)
    simp [hfirst]

/-- The answer for the first of distinct commands, where what exists starts with no white space. -/
theorem lastAnswer_cons_self {first : Text} (hfirst : first ∉ cmds)
    (hblank : ∀ n ∈ first :: cmds, oracle n = true → trimStart n = n) :
    lastAnswer oracle (first :: cmds) first = oracle first ↔
      ∀ n ∈ cmds, oracle first = true → trimStart n ≠ first := by
  unfold lastAnswer
  rw [List.reverse_cons, List.find?_append]
  cases hfind : cmds.reverse.find? fun n => trimStart n = first with
  | none =>
    have hnone : ∀ n ∈ cmds, trimStart n ≠ first := fun n hn => by
      simpa using List.find?_eq_none.mp hfind n (List.mem_reverse.mpr hn)
    simp only [Option.none_or, List.find?_singleton]
    refine iff_of_true ?_ fun n hn _ => hnone n hn
    cases hexists : oracle first with
    | true => simp [hblank first (by simp) hexists, hexists]
    | false => split <;> simp [hexists]
  | some n =>
    have hn : n ∈ cmds := List.mem_reverse.mp (List.mem_of_find?_eq_some hfind)
    have htrim : trimStart n = first := by simpa using List.find?_some hfind
    -- The command that answers for it is another one, so it does not exist.
    have hmissing : oracle n = false := by
      by_contra hexists
      have hself := hblank n (by simp [hn]) (by simpa using hexists)
      exact hfirst (htrim ▸ hself.symm ▸ hn)
    simp only [Option.some_or, Option.map_some, Option.getD_some, hmissing]
    constructor
    · intro h m _ hexists
      rw [hexists] at h
      cases h
    · intro h
      by_contra hexists
      exact h n hn (by simpa using Ne.symm hexists) htrim

/-- When every command gets its own answer. -/
theorem forall_lastAnswer_iff (hnodup : cmds.Nodup) :
    (∀ d ∈ cmds, lastAnswer oracle cmds d = oracle d) ↔
      (∀ d ∈ cmds, oracle d = true → trimStart d = d) ∧
        cmds.Pairwise fun d n => oracle d = true → trimStart n ≠ d := by
  have hblank : (∀ d ∈ cmds, lastAnswer oracle cmds d = oracle d) →
      ∀ d ∈ cmds, oracle d = true → trimStart d = d := fun h d hd hexists =>
    trimStart_of_lastAnswer ((h d hd).trans hexists)
  rw [← and_iff_right_of_imp hblank]
  refine and_congr_right fun hblank => ?_
  clear * - hnodup hblank
  induction cmds with
  | nil => simp
  | cons first cmds ih =>
    obtain ⟨hfirst, hnodup⟩ := List.nodup_cons.mp hnodup
    have htail : (∀ d ∈ cmds, lastAnswer oracle (first :: cmds) d = oracle d) ↔
        ∀ d ∈ cmds, lastAnswer oracle cmds d = oracle d :=
      forall₂_congr fun d hd => by rw [lastAnswer_cons_of_mem hd]
    rw [List.forall_mem_cons, htail, lastAnswer_cons_self hfirst hblank, List.pairwise_cons,
      ih hnodup fun d hd => hblank d (by simp [hd])]

/-- The cache of the shell's answer has the same commands as the probed one exactly when no
    command that starts with white space exists, and none follows its trimmed form where that one
    exists. -/
theorem resolved_eq_probed_iff (engine : RegexLite) (config : Config) (h : Accepted engine config)
    (fingerprint : Text) (oracle : Text → Bool) :
    (buildCacheFromResolved config fingerprint (shellAnswer oracle (commandList config))).commands =
        (buildCache config fingerprint oracle).commands ↔
      (∀ d ∈ collectUniqueCommands config, oracle d = true → trimStart d = d) ∧
        (collectUniqueCommands config).Pairwise fun d n => oracle d = true → trimStart n ≠ d := by
  rw [← forall_lastAnswer_iff (nodup_collectUniqueCommands config)]
  simp only [buildCacheFromResolved, buildCache, commandList, Memo.fill_id_eq_iff,
    parseResolved_shellAnswer fun cmd hcmd => h.checkCmdEntry hcmd, Memo.lookup_fill, lastAnswer]

/-- Rules for two commands. -/
def twoCommandsConfig : Config where
  version := 1
  abbr := [
    { key := ['a'], expand := .all ['b'], whenCommandExists := some (.all ["git".toList]) },
    { key := ['c'], expand := .all ['d'], whenCommandExists := some (.all ["foo".toList]) }]

theorem twoCommandsConfig_accepted : Accepted default twoCommandsConfig :=
  accepted_iff.mpr ⟨rfl, by decide, by decide +kernel⟩

/-- One of two commands exists. -/
theorem resolved_eq_probed_iff_git :
    (buildCacheFromResolved twoCommandsConfig []
      (shellAnswer (· == "git".toList) (commandList twoCommandsConfig))).commands =
      (buildCache twoCommandsConfig [] (· == "git".toList)).commands :=
  (resolved_eq_probed_iff default twoCommandsConfig twoCommandsConfig_accepted []
    (· == "git".toList)).mpr (by decide)

/-- Two rules for `foo`, with an ideographic space before it in the second. -/
def ideographicConfig : Config where
  version := 1
  abbr := [
    { key := ['a'], expand := .all ['b'], whenCommandExists := some (.all ["foo".toList]) },
    { key := ['c'], expand := .all ['d'], whenCommandExists := some (.all ["\u3000foo".toList]) }]

theorem ideographicConfig_accepted : Accepted default ideographicConfig :=
  accepted_iff.mpr ⟨rfl, by decide, by decide +kernel⟩

/-- A command that exists is recorded as missing when it starts with an ideographic space. -/
theorem resolved_ne_probed : ¬ ∀ (engine : RegexLite) (config : Config), Accepted engine config →
    ∀ (fingerprint : Text) (oracle : Text → Bool),
      (buildCacheFromResolved config fingerprint
        (shellAnswer oracle (commandList config))).commands =
        (buildCache config fingerprint oracle).commands := by
  intro h
  have heq := h default ideographicConfig ideographicConfig_accepted [] fun _ => true
  have hlookup := congrArg (Finmap.lookup "\u3000foo".toList) heq
  exact absurd hlookup (by decide +kernel)

end Runex
