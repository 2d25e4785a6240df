import Runex.App.Config.PlainReader
import Runex.App.Config.Fallbacks

/-!
# Adding a rule

`runex add` validates the fields of the new rule one by one and the file as it is. It does not
validate the file there will be: a `{` in the key, a file the block makes too long, and rules in
another form than `[[abbr]]` tables leave a file that the next load rejects.

## Main definitions

- `Extends` — the file loads with one more rule at the end
- `Addable` — what `add` needs beyond its own checks

## Main results

- `add_extends_iff` — when the file loads with the new rule at the end
-/

namespace Runex

open FileSystem Toml
open Text (byteLen isAsciiControl)

/-- The file loads, and after the step it loads with one more rule at the end. -/
def Extends (engine : RegexLite) (reader : ConfigReader) (disk disk' : Disk) (path : Path)
    (rule : Abbr) : Prop :=
  ∃ config, Loads engine reader disk path config ∧
    Loads engine reader disk' path { config with abbr := config.abbr ++ [rule] }

/-- What `add` needs beyond its own checks: no `{` in the key, a file that stays within the cap,
    and no rules in another form than `[[abbr]]` tables. -/
structure Addable (reader : ConfigReader) (disk : Disk) (path : Path) (key expand : Text)
    (cmds : Option (List Text)) : Prop where
  no_brace : '{' ∉ key
  fits : ∀ s, disk.node path = .regular (encode s) →
    byteLen s + byteLen (abbrBlock key expand cmds) ≤ maxConfigFileBytes
  tables : ∀ s doc, disk.node path = .regular (encode s) → reader.toml s = .ok doc →
    (doc.tables "abbr".toList).isSome

/-- The checks of the fields pass. -/
structure Checked (key expand : Text) (cmds : Option (List Text)) : Prop where
  key : checkAbbrKey key = none
  expand : checkExpandValue expand = none
  cmds : ∀ list, cmds = some list →
    list.length ≤ maxCmdListLen ∧ ∀ cmd ∈ list, checkCmdEntry cmd = none

theorem rejectNew_eq_ok {field : Text} {reason : Option ValidationReason} :
    rejectNew field reason = .ok () ↔ reason = none := by
  cases reason <;> simp [rejectNew]

theorem bind_eq_ok {first second : Except ConfigError Unit} :
    (first >>= fun _ => second) = .ok () ↔ first = .ok () ∧ second = .ok () := by
  cases first <;> simp [bind, Except.bind]

theorem forM_rejectNew_eq_ok {field : Text} {cmds : List Text} :
    (cmds.forM fun cmd => rejectNew field (checkCmdEntry cmd)) = .ok () ↔
      ∀ cmd ∈ cmds, checkCmdEntry cmd = none := by
  induction cmds with
  | nil => simp [pure, Except.pure]
  | cons cmd cmds ih =>
    rw [List.forM_eq_forM] at ih ⊢
    rw [List.forM_cons, bind_eq_ok, rejectNew_eq_ok, ih, List.forall_mem_cons]

theorem checkNewRule_eq_ok {key expand : Text} {cmds : Option (List Text)} :
    checkNewRule key expand cmds = .ok () ↔ Checked key expand cmds := by
  unfold checkNewRule
  rw [bind_eq_ok, bind_eq_ok, rejectNew_eq_ok, rejectNew_eq_ok]
  cases cmds with
  | none =>
    simp only [pure, Except.pure, and_true]
    exact ⟨fun ⟨hkey, hexpand⟩ => ⟨hkey, hexpand, by simp⟩, fun h => ⟨h.key, h.expand⟩⟩
  | some list =>
    have hlength : (if list.length > maxCmdListLen then some ValidationReason.tooManyCmds else none) =
        none ↔ list.length ≤ maxCmdListLen := by
      split <;> simp <;> omega
    simp only [bind_eq_ok, rejectNew_eq_ok, hlength, forM_rejectNew_eq_ok]
    constructor
    · rintro ⟨hkey, hexpand, hcmds⟩
      exact ⟨hkey, hexpand, fun _ hsome => Option.some.inj hsome ▸ hcmds⟩
    · exact fun h => ⟨h.key, h.expand, h.cmds list rfl⟩

/-- A checked rule passes validation exactly when its key has no `{`: the new rule has no unit. -/
theorem Checked.ruleAccepted_iff {engine : RegexLite} {key expand : Text} {cmds : Option (List Text)}
    (h : Checked key expand cmds) : RuleAccepted engine (newRule key expand cmds) ↔ '{' ∉ key := by
  constructor
  · intro haccepted hbrace
    exact haccepted.number_of_placeholder (numberCount_pos haccepted rfl hbrace) rfl
  · intro hbrace
    have hhas : hasBrace (newRule key expand cmds) = false := by simp [hasBrace, newRule, hbrace]
    have hcount : numberCount (newRule key expand cmds) = 0 := by simp [numberCount, hhas]
    refine ⟨h.key, ?_, ?_, ?_, ?_, ?_, ?_, ?_, ?_⟩
    · simpa [newRule, PerShell.allValues] using h.expand
    · intro perShell hsome
      obtain ⟨list, hlist, rfl⟩ := Option.map_eq_some_iff.mp hsome
      simpa [PerShell.allValues] using h.cmds list hlist
    · simp [newRule]
    · simp [newRule]
    · simp [hhas]
    · simp [hcount]
    · simp [newRule]
    · simp [newRule]

/-- The entries of the new table. -/
def abbrEntries (key expand : Text) (cmds : Option (List Text)) : Table :=
  [("key".toList, .string key), ("expand".toList, .string expand)] ++
    cmds.toList.map fun list => ("when_command_exists".toList, .array (list.map .string))

theorem isControl_of_not_asciiControl {s : Text} (h : ∀ c ∈ s, isAsciiControl c = false) :
    ∀ c ∈ s, Toml.isControl c = false := by
  intro c hc
  have := h c hc
  simp only [isAsciiControl, Bool.or_eq_false_iff, decide_eq_false_iff_not, Toml.isControl] at this ⊢
  simp [this]

theorem printable_key {key : Text} (h : checkAbbrKey key = none) :
    ∀ c ∈ key, Toml.isControl c = false :=
  isControl_of_not_asciiControl (checkAbbrKey_eq_none.mp h).2.2.2.2.1

theorem printable_expand {expand : Text} (h : checkExpandValue expand = none) :
    ∀ c ∈ expand, Toml.isControl c = false :=
  isControl_of_not_asciiControl (checkExpandValue_eq_none.mp h).2.2.2.2.1

theorem printable_cmd {cmd : Text} (h : checkCmdEntry cmd = none) :
    ∀ c ∈ cmd, Toml.isControl c = false :=
  isControl_of_not_asciiControl (checkCmdEntry_eq_none.mp h).2.2.2.2.1

/-- What is checked has no control characters. -/
theorem Checked.printable {key expand : Text} {cmds : Option (List Text)}
    (h : Checked key expand cmds) :
    (∀ c ∈ key, Toml.isControl c = false) ∧ (∀ c ∈ expand, Toml.isControl c = false) ∧
      ∀ list, cmds = some list → ∀ cmd ∈ list, ∀ c ∈ cmd, Toml.isControl c = false :=
  ⟨printable_key h.key, printable_expand h.expand, fun list hlist cmd hcmd =>
    printable_cmd ((h.cmds list hlist).2 cmd hcmd)⟩

theorem Checked.readLine_abbrLines {key expand : Text} {cmds : Option (List Text)}
    (h : Checked key expand cmds) :
    (abbrLines key expand cmds).mapM readLine = some (abbrEntries key expand cmds) := by
  obtain ⟨hkey, hexpand, hcmds⟩ := h.printable
  have hkey : readLine (line "key".toList (quoted key)) = some ("key".toList, .string key) :=
    readLine_quoted (by decide) hkey
  have hexpand : readLine (line "expand".toList (quoted expand)) =
      some ("expand".toList, .string expand) := readLine_quoted (by decide) hexpand
  cases cmds with
  | none =>
    simp only [abbrLines, Option.toList_none, List.map_nil, List.append_nil, List.mapM_cons,
      List.mapM_nil, hkey, hexpand]
    rfl
  | some list =>
    have hcmds : readLine (line "when_command_exists".toList (quotedArray list)) =
        some ("when_command_exists".toList, .array (list.map .string)) :=
      readLine_quotedArray (by decide) (hcmds list rfl)
    simp only [abbrLines, Option.toList_some, List.map_cons, List.map_nil, List.cons_append,
      List.nil_append, List.mapM_cons, List.mapM_nil, hkey, hexpand, hcmds]
    rfl

/-- The lines of a checked rule have no line breaks of their own. -/
theorem Checked.newline_not_mem_abbrLines {key expand : Text} {cmds : Option (List Text)}
    (h : Checked key expand cmds) : ∀ line ∈ abbrLines key expand cmds, '\n' ∉ line := by
  obtain ⟨hkey, hexpand, hcmds⟩ := h.printable
  simp only [abbrLines, List.cons_append, List.nil_append, List.forall_mem_cons, List.forall_mem_map,
    Option.mem_toList]
  exact ⟨newline_not_mem_line (by decide) (newline_not_mem_quoted hkey),
    newline_not_mem_line (by decide) (newline_not_mem_quoted hexpand),
    fun list hlist => newline_not_mem_line (by decide) (newline_not_mem_quotedArray (hcmds list hlist))⟩

theorem nodup_abbrEntries (key expand : Text) (cmds : Option (List Text)) :
    ((abbrEntries key expand cmds).map Prod.fst).Nodup := by
  cases cmds <;> simp [abbrEntries]

theorem ConfigReader.ReadsRules.rule_abbrEntries {reader : ConfigReader} (h : reader.ReadsRules)
    (key expand : Text) (cmds : Option (List Text)) :
    reader.rule (.table (abbrEntries key expand cmds)) = .ok (newRule key expand cmds) := by
  refine h _ _ _ _ ?_ ?_ ?_ ?_ ?_ <;> cases cmds <;> rfl

variable {engine : RegexLite} {reader : ConfigReader} {path : Path} {key expand : Text}
  {cmds : Option (List Text)} {faults : Faults} {disk disk' : Disk}

/-- An `add` that returns has passed its checks, loaded the file and appended the block. -/
theorem appendAbbrToFile_eq_ok
    (h : exec (appendAbbrToFile engine reader path key expand cmds) faults disk = (.ok (), disk')) :
    Checked key expand cmds ∧ ∃ s config, disk.node path = .regular (encode s) ∧
      byteLen s ≤ maxConfigFileBytes ∧ reader.fromStr s = .ok config ∧ Accepted engine config ∧
      config.abbr.length + 1 ≤ maxAbbrRules ∧
      disk'.node path = .regular (encode (s ++ abbrBlock key expand cmds)) := by
  obtain ⟨⟨⟩, d₁, hcheck, hrest⟩ := exec_bind_eq_ok h
  rw [exec_ofExcept, Prod.mk.injEq, checkNewRule_eq_ok] at hcheck
  obtain ⟨hchecked, rfl⟩ := hcheck
  obtain ⟨config, d₂, hload, happend⟩ := exec_bind_eq_ok hrest
  obtain ⟨s, hnode, hsize, hread, haccepted, hdisk⟩ := loadConfig_eq_ok hload
  dsimp only at happend
  split at happend
  · simp [exec_bind] at happend
  · next hcount =>
    have hnode' := appendAbbrBlock_eq_ok (hdisk ▸ hnode) happend
    rw [← encode_append] at hnode'
    exact ⟨hchecked, s, config, hnode, hsize, hread, haccepted, Nat.le_of_not_lt hcount, hnode'⟩

/-- The text with the block reads as the configuration with the rule, unless the rules are in
    another form. -/
theorem fromStr_append_iff (htoml : ReadsBlocks reader.toml) (hrules : reader.ReadsRules) {s : Text}
    {config : Config} (hchecked : Checked key expand cmds) (hread : reader.fromStr s = .ok config) :
    reader.fromStr (s ++ abbrBlock key expand cmds) =
        .ok { config with abbr := config.abbr ++ [newRule key expand cmds] } ↔
      ∀ doc, reader.toml s = .ok doc → (doc.tables "abbr".toList).isSome := by
  obtain ⟨doc, htext, hdoc⟩ := ConfigReader.fromStr_eq_ok.mp hread
  rw [abbrBlock_eq, ConfigReader.fromStr_eq_ok]
  constructor
  · rintro ⟨doc', htext', -⟩ doc₂ hdoc₂
    obtain rfl := Except.ok.inj (htext.symm.trans hdoc₂)
    by_contra htables
    obtain ⟨message, herror⟩ : ∃ message, reader.toml
        (s ++ block "abbr".toList (abbrLines key expand cmds)) = .error message :=
      htoml.clash htext (by decide) (Option.not_isSome_iff_eq_none.mp htables)
    cases htext'.symm.trans herror
  · intro htables
    obtain ⟨tables, htables⟩ := Option.isSome_iff_exists.mp (htables doc htext)
    obtain ⟨doc', htext', htables', hother⟩ := htoml.push htext (by decide)
      hchecked.newline_not_mem_abbrLines hchecked.readLine_abbrLines
      (nodup_abbrEntries key expand cmds) htables
    obtain ⟨hversion, hkeybind, hprecache, habbr⟩ := ConfigReader.fromTable_eq_ok.mp hdoc
    refine ⟨doc', htext', ConfigReader.fromTable_eq_ok.mpr ⟨?_, ?_, ?_, ?_⟩⟩
    · rwa [hother _ (by decide)]
    · rwa [hother _ (by decide)]
    · rwa [hother _ (by decide)]
    · rw [ConfigReader.rules_of_tables htables] at habbr
      rw [ConfigReader.rules_of_tables htables', List.mapM_append, habbr, List.mapM_cons,
        hrules.rule_abbrEntries]
      rfl

/-- The configuration with the rule is accepted when the rule is. -/
theorem accepted_append_iff {config : Config} {rule : Abbr} (haccepted : Accepted engine config)
    (hcount : config.abbr.length + 1 ≤ maxAbbrRules) :
    Accepted engine { config with abbr := config.abbr ++ [rule] } ↔ RuleAccepted engine rule := by
  obtain ⟨hversion, hkeybind, -, hrules⟩ := accepted_iff_rules.mp haccepted
  rw [accepted_iff_rules]
  simp only [List.length_append, List.length_singleton, List.forall_mem_append,
    List.forall_mem_singleton]
  exact ⟨fun h => h.2.2.2.2, fun h => ⟨hversion, hkeybind, hcount, hrules, h⟩⟩

/-- An error of `add` that is not about the file access of the append itself leaves the file. -/
theorem appendAbbrToFile_error {e : ConfigError}
    (h : exec (appendAbbrToFile engine reader path key expand cmds) faults disk = (.error e, disk'))
    (hkind : (∀ message, e ≠ .io message) ∨
      (exec (loadConfig engine reader path) faults disk).1 = .error e) :
    disk'.node path = disk.node path := by
  rcases exec_bind_eq_error h with hcheck | ⟨⟨⟩, d₁, hcheck, hrest⟩ <;>
    rw [exec_ofExcept, Prod.mk.injEq] at hcheck <;> obtain ⟨-, rfl⟩ := hcheck
  · rfl
  have hkeeps := keeps_loadConfig engine reader path path faults disk
  rcases exec_bind_eq_error hrest with hload | ⟨config, d₂, hload, hrest⟩ <;> rw [hload] at hkeeps
  · exact hkeeps
  dsimp only at hrest
  split at hrest
  · rw [exec_bind] at hrest
    exact (congrArg (·.node path) (Prod.mk.inj hrest).2).symm.trans hkeeps
  · -- The append fails with an I/O error after a load that returned.
    obtain ⟨message, rfl⟩ := appendAbbrBlock_error hrest
    rcases hkind with hkind | hkind
    · exact absurd rfl (hkind message)
    · rw [hload] at hkind
      cases hkind

/-- When the file loads with the new rule at the end. -/
theorem extends_iff_addable (htoml : ReadsBlocks reader.toml) (hrules : reader.ReadsRules)
    (h : exec (appendAbbrToFile engine reader path key expand cmds) faults disk = (.ok (), disk')) :
    Extends engine reader disk disk' path (newRule key expand cmds) ↔
      Addable reader disk path key expand cmds := by
  obtain ⟨hchecked, s, config, hnode, hsize, hread, haccepted, hcount, hnode'⟩ :=
    appendAbbrToFile_eq_ok h
  have hafter : Loads engine reader disk' path
      { config with abbr := config.abbr ++ [newRule key expand cmds] } ↔
      byteLen s + byteLen (abbrBlock key expand cmds) ≤ maxConfigFileBytes ∧
        (∀ doc, reader.toml s = .ok doc → (doc.tables "abbr".toList).isSome) ∧ '{' ∉ key := by
    rw [loads_iff, ← Text.byteLen_append, ← fromStr_append_iff htoml hrules hchecked hread,
      ← hchecked.ruleAccepted_iff, ← accepted_append_iff haccepted hcount]
    constructor
    · rintro ⟨t, hnode'', hsize, hread, haccepted⟩
      obtain rfl := encode_inj.mp (Node.regular.inj (hnode'.symm.trans hnode''))
      exact ⟨hsize, hread, haccepted⟩
    · exact fun ⟨hsize, hread, haccepted⟩ => ⟨_, hnode', hsize, hread, haccepted⟩
  have hbefore : Loads engine reader disk path config :=
    loads_iff.mpr ⟨s, hnode, hsize, hread, haccepted⟩
  have htext : ∀ t, disk.node path = .regular (encode t) → t = s := fun t ht =>
    encode_inj.mp (Node.regular.inj (ht.symm.trans hnode))
  constructor
  · rintro ⟨old, hold, hnew⟩
    obtain rfl := Except.ok.inj (hold.symm.trans hbefore)
    obtain ⟨hfits, htables, hbrace⟩ := hafter.mp hnew
    exact ⟨hbrace, fun t ht => htext t ht ▸ hfits, fun t doc ht => htext t ht ▸ htables doc⟩
  · intro h
    exact ⟨config, hbefore, hafter.mpr
      ⟨h.fits s hnode, fun doc => h.tables s doc hnode, h.no_brace⟩⟩

/-- When an `add` that returns leaves a file that loads with the rule at the end, and what an `add`
    that fails leaves. -/
theorem add_extends_iff (engine : RegexLite) (reader : ConfigReader)
    (htoml : ReadsBlocks reader.toml) (hrules : reader.ReadsRules) (path : Path) (key expand : Text)
    (cmds : Option (List Text)) (faults : Faults) (disk disk' : Disk) :
    (exec (appendAbbrToFile engine reader path key expand cmds) faults disk = (.ok (), disk') →
      (Extends engine reader disk disk' path (newRule key expand cmds) ↔
        Addable reader disk path key expand cmds)) ∧
    ∀ e, exec (appendAbbrToFile engine reader path key expand cmds) faults disk = (.error e, disk') →
      ((∀ message, e ≠ .io message) ∨
        (exec (loadConfig engine reader path) faults disk).1 = .error e) →
      disk'.node path = disk.node path :=
  ⟨extends_iff_addable htoml hrules, fun _ h hkind => appendAbbrToFile_error h hkind⟩

/-- `runex add` on a file without rules. -/
def addToFile (key : Text) : Except ConfigError Unit × Disk :=
  exec (appendAbbrToFile default plainReader configPath key "ls -l".toList none) noFaults
    (oneFile "version = 1\n".toList)

theorem add_extends_iff_plain :
    Extends default plainReader (oneFile "version = 1\n".toList) (addToFile "ll".toList).2
      configPath (newRule "ll".toList "ls -l".toList none) := by
  have hrun : addToFile "ll".toList = (.ok (), (addToFile "ll".toList).2) :=
    Prod.ext (by decide +kernel) rfl
  refine ((add_extends_iff default plainReader Lines.readsBlocks plainReader_readsRules configPath
    "ll".toList "ls -l".toList none noFaults _ _).1 hrun).mpr ⟨by decide, fun s hs => ?_,
      fun s doc hs hdoc => ?_⟩
  · rw [oneFile_eq hs]
    decide +kernel
  · rw [oneFile_eq hs] at hdoc
    obtain rfl := Except.ok.inj hdoc
    decide +kernel

/-- A brace in the key is accepted, and the file no longer loads. -/
theorem add_breaks_config :
    ¬ ∀ (engine : RegexLite) (reader : ConfigReader), ReadsBlocks reader.toml → reader.ReadsRules →
      ∀ (path : Path) (key expand : Text) (cmds : Option (List Text)) (faults : Faults)
        (disk disk' : Disk),
        exec (appendAbbrToFile engine reader path key expand cmds) faults disk = (.ok (), disk') →
        Extends engine reader disk disk' path (newRule key expand cmds) := by
  intro h
  have hrun : addToFile "\x7bx".toList = (.ok (), (addToFile "\x7bx".toList).2) :=
    Prod.ext (by decide +kernel) rfl
  have hextends := h default plainReader Lines.readsBlocks plainReader_readsRules _ _ _ _ _ _ _ hrun
  have haddable := (extends_iff_addable Lines.readsBlocks plainReader_readsRules hrun).mp hextends
  exact haddable.no_brace (by decide)

end Runex
