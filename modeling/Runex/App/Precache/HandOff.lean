import Runex.App.Hook.EvalText
import Runex.App.Precache.Json
import Runex.Lib.ShellLiteral.Delimited

/-!
# The precache through the environment

The statement that `runex precache` prints is evaluated by the shell, and a later invocation reads
the variable. The JSON text has no ASCII single quote, so in Bash, Zsh and nu it stands between two
of them as it is. PowerShell reads four more characters as a single quote, which a command may
contain; and the statement for clink puts a backslash before each double quote, which `cmd.exe`
keeps.

## Main definitions

- `evalAssignment` — what the statement sets the variable to

## Main results

- `handOff_iff` — when the later invocation reads the cache
-/

namespace Runex

open ShellLiteral Search Text

-- ════════════════════════════════════════════════════════════════════════
-- Evaluating the statement
-- ════════════════════════════════════════════════════════════════════════

/-- The statement up to its value. -/
def assignmentOpening : Shell → Text
  | .bash | .zsh => "export ".toList ++ cacheEnvVar ++ ['=']
  | .pwsh => "$env:".toList ++ cacheEnvVar ++ ['=']
  | .nu => "$env.".toList ++ cacheEnvVar ++ " = ".toList
  | .clink => "set ".toList ++ cacheEnvVar ++ ['=']

/-- A text that is one literal. -/
def wholeLiteral {σ : Type} (M : Scanner σ Char Char) (start : σ) (s : Text) : Option Text := do
  let (value, rest) ← M.scan start s
  if rest = [] then some value else none

/-- The value the variable is set to. `cmd.exe` takes the rest of the line. -/
def evalAssignment (shell : Shell) (statement : Text) : Option Text := do
  let s ← stripPrefix? (assignmentOpening shell) statement
  match shell with
  | .bash | .zsh => wholeLiteral bashWord .bare s
  | .pwsh => wholeLiteral pwshSingle .start s
  | .nu => wholeLiteral nuSingle .start s
  | .clink => some (s.takeWhile (· != '\n'))

theorem wholeLiteral_eq_some {σ : Type} {M : Scanner σ Char Char} {start : σ} {s value : Text} :
    wholeLiteral M start s = some value ↔ M.scan start s = some (value, []) := by
  unfold wholeLiteral
  cases M.scan start s with
  | none => simp
  | some result => simp [Prod.ext_iff, and_comm]

variable {json : Text}

/-- Between single quotes nothing is escaped in a text that has none. -/
theorem exportStatement_quoted {shell : Shell} (hshell : shell ≠ .clink) (h : '\'' ∉ json) :
    exportStatement (shellShortName shell) json =
      assignmentOpening shell ++ '\'' :: (json ++ ['\'']) := by
  have habsent : ∀ value, replaceAll ['\''] value json = json := fun value =>
    replaceAll_of_absent (by rwa [List.singleton_infix_iff])
  cases shell with
  | clink => exact absurd rfl hshell
  | _ =>
    unfold exportStatement shellShortName assignmentOpening
    simp only [String.ofList_toList, habsent]
    simp

/-- The statement for clink. -/
theorem exportStatement_clink :
    exportStatement (shellShortName .clink) json =
      assignmentOpening .clink ++ replaceAll ['"'] "\\\"".toList json := by
  unfold exportStatement shellShortName assignmentOpening
  simp only [String.ofList_toList]

/-- A text between single quotes in a grammar that reads its characters as themselves. -/
theorem wholeLiteral_quoted {σ : Type} (M : Scanner σ Char Char) {start : σ} (inside closed : σ)
    (hopen : M.step start '\'' = .move inside [])
    (hinside : ∀ c ∈ json, M.step inside c = .move inside [c])
    (hclose : M.step inside '\'' = .move closed []) (haccepts : M.accepts closed = true) :
    wholeLiteral M start ('\'' :: (json ++ ['\''])) = some json := by
  have hdrive : ∀ {mode next : σ} {c : Char} {out : Text}, M.step mode c = .move next out →
      M.drive mode [c] = some (next, out) := by
    intro mode next c out hstep
    rw [Scanner.drive_cons hstep]
    simp
  have h : M.scan start (['\''] ++ (json.flatMap (fun c => [c]) ++ ['\'']) ++ []) =
      some (json.flatMap fun c => [c], []) :=
    Scanner.scan_delimited (hdrive hopen) (fun c hc => hdrive (hinside c hc)) (hdrive hclose)
      (by simp [Scanner.scan, haccepts])
  rw [List.flatMap_singleton', List.append_nil] at h
  exact wholeLiteral_eq_some.mpr h

/-- Without single quotes of its grammar the text is the value in every shell but clink. -/
theorem evalAssignment_quoted {shell : Shell} (hshell : shell ≠ .clink) (h : '\'' ∉ json)
    (hsmart : shell = .pwsh → ∀ c ∈ json, isSmartSingleQuote c = false) :
    evalAssignment shell (exportStatement (shellShortName shell) json) = some json := by
  have hne : ∀ c ∈ json, c ≠ '\'' := fun c hc hquote => h (hquote ▸ hc)
  have hbash : wholeLiteral bashWord .bare ('\'' :: (json ++ ['\''])) = some json :=
    wholeLiteral_quoted bashWord .single .bare rfl
      (fun c hc => by simp [bashWord, bashStep, hne c hc]) rfl rfl
  rw [exportStatement_quoted hshell h, evalAssignment, stripPrefix?_append]
  cases shell with
  | bash => exact hbash
  | zsh => exact hbash
  | pwsh =>
    exact wholeLiteral_quoted pwshSingle .inside .closing rfl
      (fun c hc => by simp [pwshSingle, pwshSingleStep, isPwshSingleQuote, hne c hc, hsmart rfl c hc])
      rfl rfl
  | nu =>
    exact wholeLiteral_quoted nuSingle .inside .done rfl
      (fun c hc => by simp [nuSingle, nuSingleStep, hne c hc]) rfl rfl
  | clink => exact absurd rfl hshell

-- ════════════════════════════════════════════════════════════════════════
-- The text of a cache
-- ════════════════════════════════════════════════════════════════════════

variable {serde : SerdeJson} {fingerprint value : Text} {entries : List (Text × Bool)}
  {entry : Text × Bool}

/-- The characters of the text that the fields do not bring in. -/
def jsonFixed : Text := jsonOpening ++ jsonMiddle ++ "\",:truefalse\x7d".toList

/-- The characters of a cache's text: fixed ones, and those of its fields. -/
theorem forall_mem_cacheJson {p : Char → Prop} (hfixed : ∀ c ∈ jsonFixed, p c)
    (hfingerprint : ∀ c ∈ fingerprint, p c)
    (hentries : ∀ entry ∈ entries, ∀ c ∈ entry.1, p c) : ∀ c ∈ cacheJson fingerprint entries, p c := by
  have hliteral : ∀ t : Text, t ⊆ "\",:truefalse\x7d".toList → ∀ c ∈ t, p c := fun t ht c hc =>
    hfixed c (List.mem_append_right _ (ht hc))
  have hentry : ∀ entry ∈ entries, ∀ c ∈ jsonEntry entry, p c := by
    intro entry hmem
    rw [jsonEntry, List.forall_mem_cons, List.forall_mem_append, List.forall_mem_cons]
    have hquote : p '"' := hliteral ['"'] (by decide) '"' (by simp)
    have hvalue : jsonValue entry.2 ⊆ "\",:truefalse\x7d".toList := by
      cases entry.2 <;> decide +kernel
    exact ⟨hquote, hentries entry hmem, hquote, hliteral _ hvalue⟩
  intro c hc
  simp only [cacheJson, entriesText, List.mem_append] at hc
  rcases hc with hc | hc | hc | hc | hc
  · exact hfixed c (List.mem_append_left _ (List.mem_append_left _ hc))
  · exact hfingerprint c hc
  · exact hfixed c (List.mem_append_left _ (List.mem_append_right _ hc))
  · rcases mem_of_mem_intercalate hc with hc | ⟨_, hmem, hc⟩
    · exact hliteral [','] (by decide) c hc
    · obtain ⟨entry, hentries', rfl⟩ := List.mem_map.mp hmem
      exact hentry entry hentries' c hc
  · exact hliteral _ (by decide +kernel) c hc

-- ════════════════════════════════════════════════════════════════════════
-- What PowerShell makes of it
-- ════════════════════════════════════════════════════════════════════════

/-- One entry is read with another name, or not at all. -/
theorem exists_entry_of_drive {rest : Text} {last : PwshSingleMode}
    (h : pwshSingle.drive .inside (jsonEntry entry ++ rest) = some (last, value)) :
    ∃ name after, pwshSingle.drive .inside entry.1 = some (.inside, name) ∧
      pwshSingle.drive .inside rest = some (last, after) ∧
      value = jsonEntry (name, entry.2) ++ after := by
  have hvalue : ∀ c ∈ jsonValue entry.2, isPwshSingleQuote c = false := by
    cases entry.2 <;> decide +kernel
  have hsplit : jsonEntry entry ++ rest =
      ['"'] ++ (entry.1 ++ '"' :: (jsonValue entry.2 ++ rest)) := by simp [jsonEntry]
  rw [hsplit] at h
  obtain ⟨_, hname, rfl⟩ := exists_of_drive_plain (by decide) h
  obtain ⟨name, _, hinside, hend, rfl⟩ := exists_of_drive_inside (by decide) hname
  obtain ⟨after, hafter, rfl⟩ := exists_of_drive_plain hvalue hend
  exact ⟨name, after, hinside, hafter, by simp [jsonEntry]⟩

/-- The entries are read with other names. -/
theorem exists_entries_of_drive
    (h : pwshSingle.drive .inside (entriesText entries) = some (.inside, value)) :
    ∃ read, value = entriesText read ∧ List.Forall₂ (fun entry entry' : Text × Bool =>
      pwshSingle.drive .inside entry.1 = some (.inside, entry'.1)) entries read := by
  have hend : ∀ c ∈ "\x7d\x7d".toList, isPwshSingleQuote c = false := by decide +kernel
  induction entries generalizing value with
  | nil =>
    rw [entriesText, List.map_nil, List.intercalate_nil, List.nil_append, drive_plain hend] at h
    simp only [Option.some.injEq, Prod.mk.injEq, true_and] at h
    exact ⟨[], by simp [entriesText, ← h], .nil⟩
  | cons entry entries ih =>
    rw [entriesText_cons] at h
    obtain ⟨name, after, hname, hafter, rfl⟩ := exists_entry_of_drive h
    split at hafter
    · next hnil =>
      rw [drive_plain hend] at hafter
      simp only [Option.some.injEq, Prod.mk.injEq, true_and] at hafter
      subst hnil
      exact ⟨[(name, entry.2)], by simp [entriesText_cons, ← hafter], .cons hname .nil⟩
    · next hne =>
      obtain ⟨tail, htail, rfl⟩ := exists_of_drive_plain (q := [',']) (by decide) hafter
      obtain ⟨read, rfl, hread⟩ := ih htail
      refine ⟨(name, entry.2) :: read, ?_, .cons hname hread⟩
      have hread' : read ≠ [] := by
        rintro rfl
        exact hne (List.forall₂_nil_right_iff.mp hread)
      simp [entriesText_cons, hread']

section Names

variable {names read : List Text}

/-- What PowerShell reads is shorter by half a character for each quote. -/
theorem sum_length_of_drive (h : List.Forall₂ (fun name name' : Text =>
      pwshSingle.drive .inside name = some (.inside, name')) names read) :
    2 * (read.map List.length).sum + (names.map (List.countP isPwshSingleQuote)).sum =
      2 * (names.map List.length).sum := by
  induction h with
  | nil => rfl
  | @cons name name' names read hname _ ih =>
    have hweight := total_of_drive (by decide) hname
    have hcount := total_pwshWeight_add_countP name
    simp only [PwshSingleMode.pending] at hweight
    simp only [List.map_cons, List.sum_cons]
    omega

/-- Names that PowerShell reads as the same names have no quote. -/
theorem no_quote_of_perm (h : List.Forall₂ (fun name name' : Text =>
      pwshSingle.drive .inside name = some (.inside, name')) names read) (hperm : read.Perm names) :
    ∀ name ∈ names, ∀ c ∈ name, isPwshSingleQuote c = false := by
  have hsum := sum_length_of_drive h
  have hlength : (read.map List.length).sum = (names.map List.length).sum :=
    (hperm.map List.length).sum_eq
  have hzero : (names.map (List.countP isPwshSingleQuote)).sum = 0 := by omega
  intro name hname c hc
  have hcount := List.sum_eq_zero_iff_forall_eq_nat.mp hzero _ (List.mem_map_of_mem hname)
  simpa using List.countP_eq_zero.mp hcount c hc

/-- Distinct names with as many names for the same set are those names in some order. -/
theorem perm_of_toFinset_eq (hnodup : names.Nodup) (hlength : read.length = names.length)
    (h : read.toFinset = names.toFinset) : read.Perm names := by
  have hsub : names ⊆ read := fun name hname => by
    rwa [← List.mem_toFinset, h, List.mem_toFinset]
  exact ((hnodup.subperm hsub).perm_of_length_le hlength.le).symm

end Names

-- ════════════════════════════════════════════════════════════════════════
-- The hand-off
-- ════════════════════════════════════════════════════════════════════════

/-- The text between the quotes of a PowerShell literal is consumed by itself. -/
theorem drive_of_wholeLiteral
    (h : wholeLiteral pwshSingle .start ('\'' :: (json ++ ['\''])) = some value) :
    pwshSingle.drive .inside json = some (.inside, value) := by
  obtain ⟨consumed, last, hall, hdrive, hlast⟩ :=
    Scanner.exists_drive_of_scan (wholeLiteral_eq_some.mp h)
  rw [List.append_nil] at hall
  subst hall
  obtain ⟨next, out, tail, hopen, hrest, rfl⟩ := Scanner.move_of_drive_cons hdrive
  obtain ⟨rfl, rfl⟩ : PwshSingleMode.inside = next ∧ [] = out := by
    simpa [pwshSingle, pwshSingleStep, isPwshSingleQuote] using hopen
  obtain ⟨mode, before, after, hjson, hclose, rfl⟩ := Scanner.exists_of_drive_append hrest
  obtain rfl : last = .closing := by simpa [pwshSingle] using hlast rfl
  cases mode with
  | start => exact absurd rfl (ne_start_of_drive (by decide) hjson)
  | inside =>
    obtain rfl : [] = after := by simpa [Scanner.drive, pwshSingle, pwshSingleStep,
      isPwshSingleQuote] using hclose
    simpa using hjson
  | closing =>
    simp [Scanner.drive, pwshSingle, pwshSingleStep, isPwshSingleQuote] at hclose

/-- What PowerShell reads has no character that the text has not. -/
theorem isJsonPlain_of_drive {read : List (Text × Bool)}
    (h : List.Forall₂ (fun entry entry' : Text × Bool =>
      pwshSingle.drive .inside entry.1 = some (.inside, entry'.1)) entries read)
    (hplain : ∀ entry ∈ entries, IsJsonPlain entry.1) : ∀ entry ∈ read, IsJsonPlain entry.1 := by
  induction h with
  | nil => simp
  | cons hname _ ih =>
    rw [List.forall_mem_cons] at hplain ⊢
    exact ⟨fun c hc => hplain.1 c (mem_of_drive hname hc), ih hplain.2⟩

/-- A fingerprint is ASCII. -/
theorem isSmartSingleQuote_of_mem_hex16 {n : BitVec 64} {c : Char} (hc : c ∈ hex16 n) :
    isSmartSingleQuote c = false := by
  have hascii := (isFingerprintDigit_of_mem_hex16 hc).2.2.2.2.2.2
  simp only [isSmartSingleQuote, Bool.and_eq_false_iff, decide_eq_false_iff_not]
  omega

/-- PowerShell hands the text of a cache on only when no name has one of its quotes. -/
theorem no_quote_of_evalAssignment (hserde : serde.Documented) {n : BitVec 64}
    (hplain : ∀ entry ∈ entries, IsJsonPlain entry.1) (hnodup : (entries.map Prod.fst).Nodup)
    (hquote : '\'' ∉ cacheJson (hex16 n) entries) {cache : CmdCache}
    (hcache : cache.commands = Memo.fill Prod.fst Prod.snd entries)
    (heval : evalAssignment .pwsh (exportStatement (shellShortName .pwsh)
      (cacheJson (hex16 n) entries)) = some value)
    (hparse : parseCache serde value = some cache) :
    ∀ name ∈ entries.map Prod.fst, ∀ c ∈ name, isPwshSingleQuote c = false := by
  rw [exportStatement_quoted (by decide) hquote, evalAssignment, stripPrefix?_append] at heval
  have hopening : ∀ c ∈ jsonOpening, isPwshSingleQuote c = false := by decide +kernel
  have hmiddle : ∀ c ∈ jsonMiddle, isPwshSingleQuote c = false := by decide +kernel
  have hdigits : ∀ c ∈ hex16 n, isPwshSingleQuote c = false := fun c hc => by
    have hne : c ≠ '\'' := (isFingerprintDigit_of_mem_hex16 hc).2.2.2.2.1
    rw [isPwshSingleQuote, isSmartSingleQuote_of_mem_hex16 hc, Bool.or_false]
    exact beq_eq_false_iff_ne.mpr hne
  obtain ⟨_, hfields, rfl⟩ := exists_of_drive_plain hopening (drive_of_wholeLiteral heval)
  obtain ⟨_, hafter, rfl⟩ := exists_of_drive_plain hdigits hfields
  obtain ⟨_, hentries, rfl⟩ := exists_of_drive_plain hmiddle hafter
  obtain ⟨read, rfl, hread⟩ := exists_entries_of_drive hentries
  have hcommands : cache.commands = Memo.fill Prod.fst Prod.snd read :=
    eq_of_parseCache_cacheJson hserde (isJsonPlain_hex16 n) (isJsonPlain_of_drive hread hplain) hparse
  have hkeys := congrArg Finmap.keys (hcommands.symm.trans hcache)
  rw [Memo.keys_fill, Memo.keys_fill] at hkeys
  have hnames : List.Forall₂ (fun name name' : Text =>
      pwshSingle.drive .inside name = some (.inside, name')) (entries.map Prod.fst)
      (read.map Prod.fst) := by
    rwa [List.forall₂_map_left_iff, List.forall₂_map_right_iff]
  exact no_quote_of_perm hnames (perm_of_toFinset_eq hnodup hnames.length_eq.symm hkeys)

/-- `cmd.exe` keeps the backslashes, and no JSON object starts with one. -/
theorem not_parsed_of_clink (hserde : serde.Documented)
    (heval : evalAssignment .clink (exportStatement (shellShortName .clink)
      (cacheJson fingerprint entries)) = some value) : parseCache serde value = none := by
  obtain ⟨rest, hrest⟩ : ∃ rest, cacheJson fingerprint entries = '{' :: '"' :: rest := ⟨_, rfl⟩
  have hbrace : ¬ ['"'] <+: '{' :: '"' :: rest := by
    rw [List.cons_prefix_cons]
    exact fun h => absurd h.1 (by decide)
  have hreplaced : replaceAll ['"'] "\\\"".toList ('{' :: '"' :: rest) =
      '{' :: '\\' :: '"' :: replaceAll ['"'] "\\\"".toList rest := by
    rw [replaceAll_cons hbrace]
    exact congrArg _ (replaceAll_pat_append (by simp) rest)
  rw [exportStatement_clink, evalAssignment, stripPrefix?_append, hrest, hreplaced] at heval
  obtain rfl := Option.some.inj heval
  rw [parseCache]
  split
  · rfl
  · rw [List.takeWhile_cons_of_pos (by decide), List.takeWhile_cons_of_pos (by decide),
      hserde.rejects]

section Built

variable {engine : RegexLite} {config : Config} {n : BitVec 64} {oracle : Text → Bool}

/-- A cache built from a configuration. Every cache is built with some oracle, the one from the
    answer of a shell as well. -/
def builtCache (config : Config) (n : BitVec 64) (oracle : Text → Bool) : CmdCache :=
  buildCache config (hex16 n) oracle

/-- The text that is written for a cache: its entries in some order. -/
structure Written (config : Config) (n : BitVec 64) (oracle : Text → Bool)
    (entries : List (Text × Bool)) (json : Text) : Prop where
  text : json = cacheJson (hex16 n) entries
  nodup : (entries.map Prod.fst).Nodup
  commands : (builtCache config n oracle).commands = Memo.fill Prod.fst Prod.snd entries
  names : ∀ name, name ∈ entries.map Prod.fst ↔ name ∈ collectUniqueCommands config
  plain : ∀ entry ∈ entries, IsJsonPlain entry.1
  unquoted : '\'' ∉ cacheJson (hex16 n) entries

theorem exists_written (h : Accepted engine config) (hserde : serde.Documented) (n : BitVec 64)
    (oracle : Text → Bool) :
    ∃ entries, Written config n oracle entries (cacheToJson serde (builtCache config n oracle)) := by
  have hkeys : (builtCache config n oracle).commands.keys =
      (collectUniqueCommands config).toFinset := by
    rw [builtCache, buildCache, Memo.keys_fill, List.map_id]
  obtain ⟨entries, hnodup, hfill, htext⟩ := hserde.writes (builtCache config n oracle) rfl
    (isJsonPlain_hex16 n) fun cmd hcmd =>
      (quotes_of_checkCmdEntry (h.checkCmdEntry (List.mem_toFinset.mp (hkeys ▸ hcmd)))).1
  have hnames : ∀ name, name ∈ entries.map Prod.fst ↔ name ∈ collectUniqueCommands config := by
    intro name
    rw [← hfill, Memo.keys_fill] at hkeys
    rw [← List.mem_toFinset, hkeys, List.mem_toFinset]
  have hentry : ∀ entry ∈ entries, IsJsonPlain entry.1 ∧ '\'' ∉ entry.1 := fun entry hmem =>
    quotes_of_checkCmdEntry (h.checkCmdEntry ((hnames _).mp (List.mem_map_of_mem hmem)))
  refine ⟨entries, htext, hnodup, hfill.symm, hnames, fun entry hmem => (hentry entry hmem).1,
    fun hmem => ?_⟩
  exact forall_mem_cacheJson (p := (· ≠ '\'')) (by decide +kernel)
    (fun c hc => (isFingerprintDigit_of_mem_hex16 hc).2.2.2.2.1)
    (fun entry hmem c hc hne => (hentry entry hmem).2 (hne ▸ hc)) _ hmem rfl

/-- Where the cache arrives: not in clink, and in PowerShell without its other single quotes. -/
theorem Written.of_parsed (hserde : serde.Documented) (h : Written config n oracle entries json)
    {shell : Shell} (hvalue : (evalAssignment shell (exportStatement (shellShortName shell) json)).bind
      (parseCache serde) = some (builtCache config n oracle)) :
    shell ≠ .clink ∧ (shell = .pwsh → ∀ cmd ∈ collectUniqueCommands config,
      ∀ c ∈ cmd, isSmartSingleQuote c = false) := by
  obtain ⟨value, heval, hparse⟩ := Option.bind_eq_some_iff.mp hvalue
  rw [h.text] at heval
  constructor
  · rintro rfl
    rw [not_parsed_of_clink hserde heval] at hparse
    cases hparse
  · rintro rfl cmd hcmd c hc
    have hnone := no_quote_of_evalAssignment hserde h.plain h.nodup h.unquoted h.commands heval
      hparse cmd ((h.names cmd).mpr hcmd) c hc
    exact (Bool.or_eq_false_iff.mp hnone).2

/-- There it arrives as it was built. -/
theorem Written.parsed (hserde : serde.Documented) (h : Written config n oracle entries json)
    (hbytes : byteLen json ≤ maxCacheBytes)
    (hcount : (builtCache config n oracle).commands.keys.card ≤ maxCacheCommands) {shell : Shell}
    (hshell : shell ≠ .clink) (hsmart : shell = .pwsh → ∀ cmd ∈ collectUniqueCommands config,
      ∀ c ∈ cmd, isSmartSingleQuote c = false) :
    (evalAssignment shell (exportStatement (shellShortName shell) json)).bind
      (parseCache serde) = some (builtCache config n oracle) := by
  have hsmartText : shell = .pwsh → ∀ c ∈ cacheJson (hex16 n) entries,
      isSmartSingleQuote c = false := by
    intro hpwsh
    exact forall_mem_cacheJson (by decide +kernel) (fun _ => isSmartSingleQuote_of_mem_hex16)
      fun entry hmem => hsmart hpwsh _ ((h.names _).mp (List.mem_map_of_mem hmem))
  have hcommands := h.commands
  rw [h.text] at hbytes
  rw [hcommands] at hcount
  rw [h.text, evalAssignment_quoted hshell h.unquoted hsmartText, Option.bind_some,
    parseCache_cacheJson hserde h.plain hbytes hcount, ← hcommands]
  rfl

end Built

/-- The later invocation reads exactly the cache that was built, unless the shell is clink, or it is
    PowerShell and a command contains one of its other single quotes. -/
theorem handOff_iff (engine : RegexLite) (config : Config) (h : Accepted engine config)
    (serde : SerdeJson) (hserde : serde.Documented) (hash : Text → ℕ → Text → BitVec 64)
    (pathEnv : Text) (configMtime : ℕ) (oracle : Text → Bool) (shell : Shell) (cache : CmdCache)
    (hcache : cache = buildCache config
      (computeFingerprint hash pathEnv configMtime (shellShortName shell)) oracle)
    (hbytes : byteLen (cacheToJson serde cache) ≤ maxCacheBytes)
    (hcount : cache.commands.keys.card ≤ maxCacheCommands) :
    (evalAssignment shell (exportStatement (shellShortName shell)
        (cacheToJson serde cache))).bind (parseCache serde) = some cache ↔
      shell ≠ .clink ∧ (shell = .pwsh → ∀ cmd ∈ collectUniqueCommands config,
        ∀ c ∈ cmd, isSmartSingleQuote c = false) := by
  subst hcache
  obtain ⟨entries, hwritten⟩ := exists_written h hserde
    (hash pathEnv configMtime (shellShortName shell)) oracle
  exact ⟨hwritten.of_parsed hserde, fun ⟨hshell, hsmart⟩ =>
    hwritten.parsed hserde hbytes hcount hshell hsmart⟩

/-- One rule for a command with a right quotation mark in its name. -/
def smartQuoteConfig : Config where
  version := 1
  abbr := [{ key := ['a'], expand := .all ['b'], whenCommandExists := some (.all ["a\u2019b".toList]) }]

theorem smartQuoteConfig_accepted : Accepted default smartQuoteConfig :=
  accepted_iff.mpr ⟨rfl, by decide, by decide +kernel⟩

/-- Its cache is far within the limits. -/
theorem smartQuoteConfig_small (oracle : Text → Bool) :
    byteLen (cacheToJson .reference (builtCache smartQuoteConfig 0 oracle)) ≤ maxCacheBytes ∧
      (builtCache smartQuoteConfig 0 oracle).commands.keys.card ≤ maxCacheCommands := by
  have hkeys : (builtCache smartQuoteConfig 0 oracle).commands.keys = {"a\u2019b".toList} := by
    rw [builtCache, buildCache, Memo.keys_fill]
    rfl
  constructor
  · have htext (cache : CmdCache) : cacheToJson .reference cache = cacheJson cache.fingerprint
        (cache.commands.keys.toList.map fun cmd => (cmd, (cache.commands.lookup cmd).getD false)) :=
      rfl
    have hsize (value : Bool) :
        byteLen (cacheJson (hex16 0) [("a\u2019b".toList, value)]) ≤ maxCacheBytes := by
      cases value <;> decide +kernel
    rw [htext, hkeys, Finset.toList_singleton, List.map_singleton]
    exact hsize _
  · rw [hkeys]
    decide

/-- Bash hands the cache of that rule on. -/
theorem handOff_iff_bash :
    (evalAssignment .bash (exportStatement (shellShortName .bash)
        (cacheToJson .reference (builtCache smartQuoteConfig 0 fun _ => true)))).bind
        (parseCache .reference) = some (builtCache smartQuoteConfig 0 fun _ => true) :=
  (handOff_iff default smartQuoteConfig smartQuoteConfig_accepted .reference
    SerdeJson.reference_documented (fun _ _ _ => 0) [] 0 (fun _ => true) .bash _ rfl
    (smartQuoteConfig_small _).1 (smartQuoteConfig_small _).2).mpr ⟨by decide, nofun⟩

/-- PowerShell does not: the quotation mark closes the literal. -/
theorem not_handedOff : ¬ ∀ (engine : RegexLite) (config : Config), Accepted engine config →
    ∀ serde : SerdeJson, serde.Documented → ∀ (hash : Text → ℕ → Text → BitVec 64)
      (pathEnv : Text) (configMtime : ℕ) (oracle : Text → Bool) (shell : Shell) (cache : CmdCache),
      cache = buildCache config
        (computeFingerprint hash pathEnv configMtime (shellShortName shell)) oracle →
      byteLen (cacheToJson serde cache) ≤ maxCacheBytes →
      cache.commands.keys.card ≤ maxCacheCommands →
      (evalAssignment shell (exportStatement (shellShortName shell)
        (cacheToJson serde cache))).bind (parseCache serde) = some cache := by
  intro h
  have hvalue := h default smartQuoteConfig smartQuoteConfig_accepted .reference
    SerdeJson.reference_documented (fun _ _ _ => 0) [] 0 (fun _ => true) .pwsh
    (builtCache smartQuoteConfig 0 fun _ => true) rfl (smartQuoteConfig_small _).1
    (smartQuoteConfig_small _).2
  obtain ⟨entries, hwritten⟩ := exists_written smartQuoteConfig_accepted
    SerdeJson.reference_documented 0 fun _ => true
  have hsmart := (hwritten.of_parsed SerdeJson.reference_documented hvalue).2 rfl
  exact absurd hsmart (by decide +kernel)

end Runex
