import Runex.Infra.ConfigStore
import Runex.App.Config.Issues

/-!
# Loading and editing the configuration

## Main definitions

- `ConfigReader` — how a TOML document becomes a configuration
- `loadConfig` — read and validate
- `appendAbbrToFile`, `removeAbbrFromFile` — `runex add` and `runex remove`
-/

namespace Runex

open FileSystem Toml

/-- Reading TOML and deserializing the values of the fields of a configuration. A field that is
    absent is `none`. -/
structure ConfigReader where
  toml : Text → Except Text Table
  version : Option Item → Except Text ℕ
  keybind : Option Item → Except Text KeybindConfig
  precache : Option Item → Except Text PrecacheConfig
  rule : Item → Except Text Abbr
  invalidType : Item → Text

namespace ConfigReader

variable (reader : ConfigReader)

/-- The rules: none by default. -/
def rules : Option Item → Except Text (List Abbr)
  | none => .ok []
  | some item =>
    match item.elements with
    | some items => items.mapM reader.rule
    | none => .error (reader.invalidType item)

/-- Deserialize the table of a document. -/
def fromTable (doc : Table) : Except Text Config := do
  let version ← reader.version (doc.get "version".toList)
  let keybind ← reader.keybind (doc.get "keybind".toList)
  let precache ← reader.precache (doc.get "precache".toList)
  let abbr ← reader.rules (doc.get "abbr".toList)
  return { version, keybind, precache, abbr }

/-- `toml::from_str::<Config>`. -/
def fromStr (s : Text) : Except Text Config := reader.toml s >>= reader.fromTable

end ConfigReader

/-- The rule `runex add` stands for. -/
def newRule (key expand : Text) (cmds : Option (List Text)) : Abbr where
  key := key
  expand := .all expand
  whenCommandExists := cmds.map .all

/-- What is assumed of the deserializer: a rule is made of the fields of its table. -/
def ConfigReader.ReadsRules (reader : ConfigReader) : Prop :=
  ∀ (entries : Table) (key expand : Text) (cmds : Option (List Text)),
    entries.get "key".toList = some (.string key) →
    entries.get "expand".toList = some (.string expand) →
    entries.get "when_command_exists".toList = cmds.map (fun list => .array (list.map .string)) →
    entries.get "number".toList = none → entries.get "match".toList = none →
    reader.rule (.table entries) = .ok (newRule key expand cmds)

/-- What is assumed of the deserializer: the key of a rule is that of its table. -/
def ConfigReader.ReadsKeys (reader : ConfigReader) : Prop :=
  ∀ (entries : Table) (rule : Abbr), reader.rule (.table entries) = .ok rule →
    entries.get "key".toList = some (.string rule.key)

variable (engine : RegexLite) (reader : ConfigReader)

/-- Load the configuration from a file. -/
def loadConfig (path : Path) : FileM ConfigError Config := do
  let content ← readConfigSource path
  MonadExcept.ofExcept (parseConfig engine reader.fromStr content)

/-- A failed check of a field of the new rule, which has the number 0. -/
def rejectNew (field : Text) (reason : Option ValidationReason) : Except ConfigError Unit :=
  match reason with
  | some reason => .error (ValidationIssue.rule 0 field reason).toConfigError
  | none => .ok ()

/-- Validate the fields of the new rule. -/
def checkNewRule (key expand : Text) (whenCommandExists : Option (List Text)) :
    Except ConfigError Unit := do
  rejectNew "key".toList (checkAbbrKey key)
  rejectNew "expand".toList (checkExpandValue expand)
  match whenCommandExists with
  | some cmds =>
    rejectNew "when_command_exists".toList
      (if cmds.length > maxCmdListLen then some .tooManyCmds else none)
    cmds.forM fun cmd => rejectNew "when_command_exists".toList (checkCmdEntry cmd)
  | none => return ()

/-- Append a rule to a file, after validating it and the number of rules there will be. -/
def appendAbbrToFile (path : Path) (key expand : Text) (whenCommandExists : Option (List Text)) :
    FileM ConfigError Unit := do
  MonadExcept.ofExcept (checkNewRule key expand whenCommandExists)
  let existing ← loadConfig engine reader path
  if existing.abbr.length + 1 > maxAbbrRules then
    throw (ValidationIssue.config .tooManyRules).toConfigError
  appendAbbrBlock path key expand whenCommandExists

/-- Remove the rules with a key from a file that loads. -/
def removeAbbrFromFile (editor : Editor) (path : Path) (key : Text) : FileM ConfigError ℕ := do
  let _ ← loadConfig engine reader path
  removeAbbrBlock editor path key

variable {engine reader}

theorem ConfigReader.fromTable_eq_ok {doc : Table} {config : Config} :
    reader.fromTable doc = .ok config ↔
      reader.version (doc.get "version".toList) = .ok config.version ∧
      reader.keybind (doc.get "keybind".toList) = .ok config.keybind ∧
      reader.precache (doc.get "precache".toList) = .ok config.precache ∧
      reader.rules (doc.get "abbr".toList) = .ok config.abbr := by
  unfold ConfigReader.fromTable
  cases reader.version (doc.get "version".toList) <;>
    cases reader.keybind (doc.get "keybind".toList) <;>
    cases reader.precache (doc.get "precache".toList) <;>
    cases reader.rules (doc.get "abbr".toList) <;>
    simp [bind, Except.bind, pure, Except.pure, Config.ext_iff]

theorem ConfigReader.fromStr_eq_ok {s : Text} {config : Config} :
    reader.fromStr s = .ok config ↔
      ∃ doc, reader.toml s = .ok doc ∧ reader.fromTable doc = .ok config := by
  unfold ConfigReader.fromStr
  cases reader.toml s <;> simp [bind, Except.bind]

/-- The rules of a document with `[[abbr]]` tables only. -/
theorem ConfigReader.rules_of_tables {doc : Table} {tables : List Table}
    (h : doc.tables "abbr".toList = some tables) :
    reader.rules (doc.get "abbr".toList) = tables.mapM fun table => reader.rule (.table table) := by
  rcases Table.tables_eq_some.mp h with ⟨hget, rfl⟩ | hget
  · rw [hget]
    rfl
  · rw [hget, ConfigReader.rules, Item.elements]
    exact List.mapM_map

/-- The file at `path` loads as this configuration, if no call fails. -/
def Loads (engine : RegexLite) (reader : ConfigReader) (disk : Disk) (path : Path) (config : Config) :
    Prop :=
  (exec (loadConfig engine reader path) noFaults disk).1 = .ok config

theorem exec_ofExcept {ε α : Type} (result : Except ε α) (faults : Faults) (disk : Disk) :
    exec (MonadExcept.ofExcept result : FileM ε α) faults disk = (result, disk) := by
  cases result <;> rfl

theorem keeps_ofExcept {ε α : Type} (other : Path) (result : Except ε α) :
    Keeps other (MonadExcept.ofExcept result : FileM ε α) := fun faults disk => by
  rw [exec_ofExcept]

theorem keeps_loadConfig (engine : RegexLite) (reader : ConfigReader) (path other : Path) :
    Keeps other (loadConfig engine reader path) :=
  (keeps_readConfigSource path other).bind fun _ => keeps_ofExcept other _

/-- What a load that returns has read. -/
theorem loadConfig_eq_ok {path : Path} {faults : Faults} {disk disk' : Disk} {config : Config}
    (h : exec (loadConfig engine reader path) faults disk = (.ok config, disk')) :
    ∃ s, disk.node path = .regular (encode s) ∧ Text.byteLen s ≤ maxConfigFileBytes ∧
      reader.fromStr s = .ok config ∧ Accepted engine config ∧ disk'.node = disk.node := by
  obtain ⟨s, d₁, hread, hparse⟩ := exec_bind_eq_ok h
  obtain ⟨hnode, hsize, hdisk⟩ := readConfigSource_eq_ok hread
  rw [exec_ofExcept, Prod.mk.injEq] at hparse
  obtain ⟨hparse, rfl⟩ := hparse
  rw [size_encode] at hsize
  exact ⟨s, hnode, hsize, (parseConfig_eq_ok.mp hparse).1, ⟨_, _, hparse⟩, hdisk⟩

theorem loads_iff {path : Path} {disk : Disk} {config : Config} :
    Loads engine reader disk path config ↔
      ∃ s, disk.node path = .regular (encode s) ∧ Text.byteLen s ≤ maxConfigFileBytes ∧
        reader.fromStr s = .ok config ∧ Accepted engine config := by
  constructor
  · intro h
    obtain ⟨s, hnode, hsize, hread, haccepted, -⟩ := loadConfig_eq_ok (Prod.ext h rfl)
    exact ⟨s, hnode, hsize, hread, haccepted⟩
  · rintro ⟨s, hnode, hsize, hread, haccepted⟩
    have hsource := readConfigSource_noFaults hnode (by rwa [size_encode])
    have hparse := parseConfig_eq_ok.mpr ⟨hread, accepted_iff.mp haccepted⟩
    rw [Loads, loadConfig, exec_bind_of_ok (Prod.ext hsource rfl), exec_ofExcept, hparse]

end Runex
