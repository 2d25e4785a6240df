import Runex.App.Config.Files
import Runex.Lib.Serde

/-!
# Deserializing the configuration

The readers that are derived for the structs of the configuration, and the deserializer they make.
A field that a struct has not is ignored.

## Main definitions

- `readAbbr`, `readKeybindConfig`, … — the derived reader of each struct
- `derivedReader` — the deserializer

## Main results

- `SchemaPlace` — the places of the tables that are read as structs, with the fields read there
- `SchemaPlace.ignores_iff` — the ignored keys are those that name no field of the struct
-/

namespace Runex

open Toml Serde

/-- What the libraries behind the deserializer do: reading the text of a document, the name in a
    unit that is written as a table, and the text of an error. -/
structure TomlFormat where
  parse : Text → Except Text Table
  unit : Table → Option Text
  message : Text

variable (format : TomlFormat)

/-- `rename_all = "kebab-case"`. -/
def triggerKeyNames : List (Text × TriggerKey) :=
  [("space".toList, .space), ("tab".toList, .tab), ("alt-space".toList, .altSpace),
    ("shift-space".toList, .shiftSpace), ("ctrl-v".toList, .ctrlV)]

/-- `rename_all = "lowercase"`. -/
def matchKindNames : List (Text × MatchKind) := [("glob".toList, .glob), ("regex".toList, .regex)]

def readTriggerKey : Item → Option TriggerKey := enumeration format.unit triggerKeyNames

def readMatchKind : Item → Option MatchKind := enumeration format.unit matchKindNames

def perShellKeyBody (source : Source) : Option PerShellKey := do
  let default ← optionalField (readTriggerKey format) source "default".toList 0
  let bash ← optionalField (readTriggerKey format) source "bash".toList 1
  let zsh ← optionalField (readTriggerKey format) source "zsh".toList 2
  let pwsh ← optionalField (readTriggerKey format) source "pwsh".toList 3
  let nu ← optionalField (readTriggerKey format) source "nu".toList 4
  return { default, bash, zsh, pwsh, nu }

def readPerShellKey : Item → Option PerShellKey := struct (perShellKeyBody format)

def keybindConfigBody (source : Source) : Option KeybindConfig := do
  let trigger ← withDefault {} (readPerShellKey format) source "trigger".toList 0
  let selfInsert ← withDefault {} (readPerShellKey format) source "self_insert".toList 1
  let pasteIntercept ← withDefault {} (readPerShellKey format) source "paste_intercept".toList 2
  return { trigger, selfInsert, pasteIntercept }

def readKeybindConfig : Item → Option KeybindConfig := struct (keybindConfigBody format)

def precacheConfigBody (source : Source) : Option PrecacheConfig := do
  let pathOnly ← withDefault false boolean source "path_only".toList 0
  return { pathOnly }

def readPrecacheConfig : Item → Option PrecacheConfig := struct precacheConfigBody

/-- The variant `ByShell`. -/
def byShellBody {α : Type} (read : Item → Option α) (source : Source) : Option (PerShell α) := do
  let default ← optionalField read source "default".toList 0
  let bash ← optionalField read source "bash".toList 1
  let zsh ← optionalField read source "zsh".toList 2
  let pwsh ← optionalField read source "pwsh".toList 3
  let nu ← optionalField read source "nu".toList 4
  return .byShell default bash zsh pwsh nu

/-- An untagged enumeration: the first variant that reads. -/
def readPerShell {α : Type} (read : Item → Option α) (item : Item) : Option (PerShell α) :=
  ((read item).map .all).or (mapStruct (byShellBody read) item)

def readPerShellString : Item → Option PerShellString := readPerShell string

def readPerShellCmds : Item → Option PerShellCmds := readPerShell (seqOf string)

def abbrBody (source : Source) : Option Abbr := do
  let key ← required string source "key".toList 0
  let expand ← required readPerShellString source "expand".toList 1
  let whenCommandExists ← optionalField readPerShellCmds source "when_command_exists".toList 2
  let number ← optionalDefault string source "number".toList 3
  let matchKind ← optionalDefault (readMatchKind format) source "match".toList 4
  return { key, expand, whenCommandExists, number, matchKind }

def readAbbr : Item → Option Abbr := struct (abbrBody format)

def configBody (source : Source) : Option Config := do
  let version ← required (unsigned 32) source "version".toList 0
  let keybind ← withDefault {} (readKeybindConfig format) source "keybind".toList 1
  let precache ← withDefault {} readPrecacheConfig source "precache".toList 2
  let abbr ← withDefault [] (seqOf (readAbbr format)) source "abbr".toList 3
  return { version, keybind, precache, abbr }

def readConfig : Item → Option Config := struct (configBody format)

-- ════════════════════════════════════════════════════════════════════════
-- The fields
-- ════════════════════════════════════════════════════════════════════════

def perShellFields : List Text :=
  ["default".toList, "bash".toList, "zsh".toList, "pwsh".toList, "nu".toList]

def keybindFields : List Text := ["trigger".toList, "self_insert".toList, "paste_intercept".toList]

def precacheFields : List Text := ["path_only".toList]

def abbrFields : List Text :=
  ["key".toList, "expand".toList, "when_command_exists".toList, "number".toList, "match".toList]

def configFields : List Text :=
  ["version".toList, "keybind".toList, "precache".toList, "abbr".toList]

theorem hasFields_perShellKey :
    HasFields (fun table => readPerShellKey format (.table table)) perShellFields :=
  have hkey : ∀ name place, HasFields (fun table =>
      optionalField (readTriggerKey format) (.named table) name place) [name] := fun name place =>
    hasFields_optionalField name place fun _ => rfl
  hasFields_struct <| .bind (hkey _ 0) fun _ => .bind (hkey _ 1) fun _ => .bind (hkey _ 2) fun _ =>
    .bind (hkey _ 3) fun _ => .bind (hkey _ 4) fun _ => .pure _

theorem hasFields_keybindConfig :
    HasFields (fun table => readKeybindConfig format (.table table)) keybindFields :=
  have hkey : ∀ name place, HasFields (fun table =>
      withDefault {} (readPerShellKey format) (.named table) name place) [name] := fun name place =>
    hasFields_withDefault name place _ fun _ => rfl
  hasFields_struct <| .bind (hkey _ 0) fun _ => .bind (hkey _ 1) fun _ => .bind (hkey _ 2) fun _ =>
    .pure _

theorem hasFields_precacheConfig :
    HasFields (fun table => readPrecacheConfig (.table table)) precacheFields :=
  hasFields_struct <| .bind (hasFields_withDefault _ 0 false fun _ => rfl) fun _ => .pure _

theorem hasFields_byShell {α : Type} {read : Item → Option α}
    (hread : ∀ literal, read (.float literal) = none) :
    HasFields (fun table => byShellBody read (.named table)) perShellFields :=
  have hkey : ∀ name place, HasFields (fun table =>
      optionalField read (.named table) name place) [name] := fun name place =>
    hasFields_optionalField name place hread
  .bind (hkey _ 0) fun _ => .bind (hkey _ 1) fun _ => .bind (hkey _ 2) fun _ =>
    .bind (hkey _ 3) fun _ => .bind (hkey _ 4) fun _ => .pure _

/-- A table is a value per shell if it is not a value itself. -/
theorem hasFields_perShell {α : Type} {read : Item → Option α}
    (hread : ∀ literal, read (.float literal) = none)
    (htable : ∀ table, read (.table table) = none) :
    HasFields (fun table => readPerShell read (.table table)) perShellFields := by
  have hvariant : (fun table : Table => readPerShell read (.table table)) =
      fun table => byShellBody read (.named table) := by
    funext table
    rw [readPerShell, htable, Option.map_none, Option.none_or]
    rfl
  rw [hvariant]
  exact hasFields_byShell hread

theorem hasFields_abbr : HasFields (fun table => readAbbr format (.table table)) abbrFields :=
  hasFields_struct <| .bind (hasFields_required _ 0 fun _ => rfl) fun _ =>
    .bind (hasFields_required _ 1 fun _ => rfl) fun _ =>
      .bind (hasFields_optionalField _ 2 fun _ => rfl) fun _ =>
        .bind (hasFields_optionalDefault _ 3 fun _ => rfl) fun _ =>
          .bind (hasFields_optionalDefault _ 4 fun _ => rfl) fun _ => .pure _

theorem hasFields_config : HasFields (fun table => readConfig format (.table table)) configFields :=
  hasFields_struct <| .bind (hasFields_required _ 0 fun _ => rfl) fun _ =>
    .bind (hasFields_withDefault _ 1 _ fun _ => rfl) fun _ =>
      .bind (hasFields_withDefault _ 2 _ fun _ => rfl) fun _ =>
        .bind (hasFields_withDefault _ 3 _ fun _ => rfl) fun _ => .pure _

-- ════════════════════════════════════════════════════════════════════════
-- The places
-- ════════════════════════════════════════════════════════════════════════

theorem reads_keybind :
    Reads (readConfig format) [.key "keybind".toList] (readKeybindConfig format) :=
  reads_struct <| .tail (hasFields_required _ 0 fun _ => rfl) (by decide) fun _ =>
    .head (readsKey_withDefault _ 1 _ _)
      (fun _ => .bind (hasFields_withDefault _ 2 _ fun _ => rfl) fun _ =>
        .bind (hasFields_withDefault _ 3 _ fun _ => rfl) fun _ => .pure _) (by decide)

theorem reads_precache : Reads (readConfig format) [.key "precache".toList] readPrecacheConfig :=
  reads_struct <| .tail (hasFields_required _ 0 fun _ => rfl) (by decide) fun _ =>
    .tail (hasFields_withDefault _ 1 _ fun _ => rfl) (by decide) fun _ =>
      .head (readsKey_withDefault _ 2 _ _)
        (fun _ => .bind (hasFields_withDefault _ 3 _ fun _ => rfl) fun _ => .pure _) (by decide)

theorem reads_rules : Reads (readConfig format) [.key "abbr".toList] (seqOf (readAbbr format)) :=
  reads_struct <| .tail (hasFields_required _ 0 fun _ => rfl) (by decide) fun _ =>
    .tail (hasFields_withDefault _ 1 _ fun _ => rfl) (by decide) fun _ =>
      .tail (hasFields_withDefault _ 2 _ fun _ => rfl) (by decide) fun _ =>
        .head (readsKey_withDefault _ 3 _ _) (fun _ => .pure _) (by decide)

theorem reads_abbr (i : ℕ) :
    Reads (readConfig format) [.key "abbr".toList, .index i] (readAbbr format) :=
  (reads_rules format).append (reads_seqOf _ i)

/-- The three tables of bindings. -/
theorem reads_binding {name : Text} (h : name ∈ keybindFields) :
    Reads (readConfig format) [.key "keybind".toList, .key name] (readPerShellKey format) := by
  have hkey : ∀ name place, HasFields (fun table =>
      withDefault {} (readPerShellKey format) (.named table) name place) [name] := fun name place =>
    hasFields_withDefault name place _ fun _ => rfl
  refine (reads_keybind format).append ?_
  simp only [keybindFields, List.mem_cons, List.not_mem_nil, or_false] at h
  rcases h with rfl | rfl | rfl
  · exact reads_struct <| .head (readsKey_withDefault _ 0 _ _)
      (fun _ => .bind (hkey _ 1) fun _ => .bind (hkey _ 2) fun _ => .pure _) (by decide)
  · exact reads_struct <| .tail (hkey _ 0) (by decide) fun _ =>
      .head (readsKey_withDefault _ 1 _ _) (fun _ => .bind (hkey _ 2) fun _ => .pure _) (by decide)
  · exact reads_struct <| .tail (hkey _ 0) (by decide) fun _ =>
      .tail (hkey _ 1) (by decide) fun _ => .head (readsKey_withDefault _ 2 _ _) (fun _ => .pure _) (by decide)

theorem reads_expand (i : ℕ) : Reads (readConfig format)
    [.key "abbr".toList, .index i, .key "expand".toList] readPerShellString :=
  (reads_abbr format i).append <| reads_struct <|
    .tail (hasFields_required _ 0 fun _ => rfl) (by decide) fun _ =>
      .head (readsKey_required _ 1 _)
        (fun _ => .bind (hasFields_optionalField _ 2 fun _ => rfl) fun _ =>
          .bind (hasFields_optionalDefault _ 3 fun _ => rfl) fun _ =>
            .bind (hasFields_optionalDefault _ 4 fun _ => rfl) fun _ => .pure _) (by decide)

theorem reads_whenCommandExists (i : ℕ) : Reads (readConfig format)
    [.key "abbr".toList, .index i, .key "when_command_exists".toList] readPerShellCmds :=
  (reads_abbr format i).append <| reads_struct <|
    .tail (hasFields_required _ 0 fun _ => rfl) (by decide) fun _ =>
      .tail (hasFields_required _ 1 fun _ => rfl) (by decide) fun _ =>
        .head (readsKey_optionalField _ 2 _)
          (fun _ => .bind (hasFields_optionalDefault _ 3 fun _ => rfl) fun _ =>
            .bind (hasFields_optionalDefault _ 4 fun _ => rfl) fun _ => .pure _) (by decide)

/-- The same three tables, where `keybind` is an array. -/
theorem reads_placedBinding {place : ℕ} (h : place < 3) :
    Reads (readConfig format) [.key "keybind".toList, .index place] (readPerShellKey format) := by
  refine (reads_keybind format).append (reads_struct_placed ?_)
  rcases (by omega : place = 0 ∨ place = 1 ∨ place = 2) with rfl | rfl | rfl
  · exact .head readsPlace_withDefault fun _ => .bind (ignoresPlace_withDefault (by decide)) fun _ =>
      .bind (ignoresPlace_withDefault (by decide)) fun _ => .pure _ _
  · exact .tail (ignoresPlace_withDefault (by decide)) fun _ =>
      .head readsPlace_withDefault fun _ => .bind (ignoresPlace_withDefault (by decide)) fun _ =>
        .pure _ _
  · exact .tail (ignoresPlace_withDefault (by decide)) fun _ =>
      .tail (ignoresPlace_withDefault (by decide)) fun _ =>
        .head readsPlace_withDefault fun _ => .pure _ _

/-- The values per shell of a rule that is an array. -/
theorem reads_placedExpand (i : ℕ) : Reads (readConfig format)
    [.key "abbr".toList, .index i, .index 1] readPerShellString :=
  (reads_abbr format i).append <| reads_struct_placed <|
    .tail (ignoresPlace_required (by decide)) fun _ =>
      .head readsPlace_required fun _ => .bind (ignoresPlace_optionalField (by decide)) fun _ =>
        .bind (ignoresPlace_optionalDefault (by decide)) fun _ =>
          .bind (ignoresPlace_optionalDefault (by decide)) fun _ => .pure _ _

theorem reads_placedWhenCommandExists (i : ℕ) : Reads (readConfig format)
    [.key "abbr".toList, .index i, .index 2] readPerShellCmds :=
  (reads_abbr format i).append <| reads_struct_placed <|
    .tail (ignoresPlace_required (by decide)) fun _ =>
      .tail (ignoresPlace_required (by decide)) fun _ =>
        .head readsPlace_optionalField fun _ =>
          .bind (ignoresPlace_optionalDefault (by decide)) fun _ =>
            .bind (ignoresPlace_optionalDefault (by decide)) fun _ => .pure _ _

/-- The places of the tables of a configuration, with the fields that are read there. A struct above
    a table may be written as a table or as an array. -/
inductive SchemaPlace : List Step → List Text → Prop where
  | config : SchemaPlace [] configFields
  | keybind : SchemaPlace [.key "keybind".toList] keybindFields
  | binding {name : Text} (h : name ∈ keybindFields) :
    SchemaPlace [.key "keybind".toList, .key name] perShellFields
  | precache : SchemaPlace [.key "precache".toList] precacheFields
  | abbr (i : ℕ) : SchemaPlace [.key "abbr".toList, .index i] abbrFields
  | expand (i : ℕ) :
    SchemaPlace [.key "abbr".toList, .index i, .key "expand".toList] perShellFields
  | whenCommandExists (i : ℕ) :
    SchemaPlace [.key "abbr".toList, .index i, .key "when_command_exists".toList] perShellFields
  | placedBinding {place : ℕ} (h : place < 3) :
    SchemaPlace [.key "keybind".toList, .index place] perShellFields
  | placedExpand (i : ℕ) : SchemaPlace [.key "abbr".toList, .index i, .index 1] perShellFields
  | placedWhenCommandExists (i : ℕ) :
    SchemaPlace [.key "abbr".toList, .index i, .index 2] perShellFields

/-- A table of the schema is read by a reader with these fields. -/
theorem SchemaPlace.exists_reads {path : List Step} {fields : List Text}
    (h : SchemaPlace path fields) : ∃ (α : Type) (part : Item → Option α),
      Reads (readConfig format) path part ∧ HasFields (fun table => part (.table table)) fields := by
  cases h with
  | config => exact ⟨_, _, .nil _, hasFields_config format⟩
  | keybind => exact ⟨_, _, reads_keybind format, hasFields_keybindConfig format⟩
  | binding h => exact ⟨_, _, reads_binding format h, hasFields_perShellKey format⟩
  | precache => exact ⟨_, _, reads_precache format, hasFields_precacheConfig⟩
  | abbr i => exact ⟨_, _, reads_abbr format i, hasFields_abbr format⟩
  | expand i =>
    exact ⟨_, _, reads_expand format i, hasFields_perShell (fun _ => rfl) fun _ => rfl⟩
  | whenCommandExists i =>
    exact ⟨_, _, reads_whenCommandExists format i, hasFields_perShell (fun _ => rfl) fun _ => rfl⟩
  | placedBinding h => exact ⟨_, _, reads_placedBinding format h, hasFields_perShellKey format⟩
  | placedExpand i =>
    exact ⟨_, _, reads_placedExpand format i, hasFields_perShell (fun _ => rfl) fun _ => rfl⟩
  | placedWhenCommandExists i =>
    exact ⟨_, _, reads_placedWhenCommandExists format i,
      hasFields_perShell (fun _ => rfl) fun _ => rfl⟩

/-- In a document that deserializes, the ignored keys of a table are those that name no field. -/
theorem SchemaPlace.ignores_iff {path : List Step} {fields : List Text} {doc table : Table}
    {name : Text} (h : SchemaPlace path fields)
    (htable : follow path (.table doc) = some (.table table))
    (hok : (readConfig format (.table doc)).isSome) :
    Ignores (readConfig format) (.table doc) path name ↔ name ∉ fields := by
  obtain ⟨_, part, hreads, hfields⟩ := h.exists_reads format
  exact Serde.ignores_iff hreads hfields htable hok

-- ════════════════════════════════════════════════════════════════════════
-- The deserializer
-- ════════════════════════════════════════════════════════════════════════

def TomlFormat.result {α : Type} (found : Option α) : Except Text α :=
  found.elim (.error format.message) .ok

/-- The deserializer of the configuration. -/
def derivedReader : ConfigReader where
  toml := format.parse
  version item := format.result (item.bind (unsigned 32))
  keybind item := format.result (item.elim (some {}) (readKeybindConfig format))
  precache item := format.result (item.elim (some {}) readPrecacheConfig)
  rule item := format.result (readAbbr format item)
  invalidType _ := format.message

variable {format}

theorem TomlFormat.result_eq_ok {α : Type} {found : Option α} {a : α} :
    format.result found = .ok a ↔ found = some a := by
  cases found <;> simp [TomlFormat.result]

theorem mapM_result {α : Type} (read : Item → Option α) (items : List Item) :
    (items.mapM fun item => format.result (read item)) = format.result (items.mapM read) := by
  induction items with
  | nil => rfl
  | cons item items ih =>
    rw [List.mapM_cons, List.mapM_cons, ih]
    cases read item with
    | none => rfl
    | some a => cases items.mapM read <;> rfl

/-- The rules of a document. -/
theorem derivedReader_rules_eq_ok {item : Option Item} {rules : List Abbr} :
    (derivedReader format).rules item = .ok rules ↔
      item.elim (some []) (seqOf (readAbbr format)) = some rules := by
  cases item with
  | none => simp [ConfigReader.rules]
  | some item =>
    rw [ConfigReader.rules, Option.elim_some, seqOf]
    cases item.elements with
    | none => simp
    | some items =>
      show items.mapM (fun item => format.result (readAbbr format item)) = .ok rules ↔ _
      rw [mapM_result, TomlFormat.result_eq_ok, Option.bind_some]

/-- The deserializer reads the struct of the configuration. -/
theorem derivedReader_fromTable_eq_ok {doc : Table} {config : Config} :
    (derivedReader format).fromTable doc = .ok config ↔
      readConfig format (.table doc) = some config := by
  have hdefault : ∀ {α : Type} (default : α) (read : Item → Option α) (name : Text) (place : ℕ),
      withDefault default read (.named doc) name place =
        (doc.get name).elim (some default) read := fun default read name place => by
    cases h : doc.get name <;> simp [withDefault, Source.value, h]
  have hread : readConfig format (.table doc) = some config ↔
      ((doc.get "version".toList).bind (unsigned 32) = some config.version ∧
        (doc.get "keybind".toList).elim (some {}) (readKeybindConfig format) = some config.keybind ∧
        (doc.get "precache".toList).elim (some {}) readPrecacheConfig = some config.precache ∧
        (doc.get "abbr".toList).elim (some []) (seqOf (readAbbr format)) = some config.abbr) := by
    show configBody format (.named doc) = some config ↔ _
    simp only [configBody, hdefault, required, Source.value, Option.bind_eq_bind,
      Option.bind_eq_some_iff, Option.pure_def, Option.some.injEq]
    constructor
    · rintro ⟨_, hversion, _, hkeybind, _, hprecache, _, habbr, rfl⟩
      exact ⟨hversion, hkeybind, hprecache, habbr⟩
    · rintro ⟨hversion, hkeybind, hprecache, habbr⟩
      exact ⟨_, hversion, _, hkeybind, _, hprecache, _, habbr, rfl⟩
  rw [ConfigReader.fromTable_eq_ok, derivedReader_rules_eq_ok, hread]
  simp only [derivedReader, TomlFormat.result_eq_ok]

theorem mapM_string (values : List Text) : (values.map Item.string).mapM string = some values := by
  induction values with
  | nil => rfl
  | cons s values ih => simp [ih, string]

/-- It is made of the fields of the table of a rule. -/
theorem derivedReader_readsRules : (derivedReader format).ReadsRules := by
  intro entries key expand cmds hkey hexpand hcmds hnumber hmatch
  refine TomlFormat.result_eq_ok.mpr ?_
  show abbrBody format (.named entries) = _
  have hlist : ∀ list : List Text, readPerShellCmds (.array (list.map .string)) =
      some (.all list) := fun list => by
    rw [readPerShellCmds, readPerShell, seqOf, Item.elements, Option.bind_some, mapM_string]
    rfl
  have hcmds : optionalField readPerShellCmds (.named entries) "when_command_exists".toList 2 =
      some (cmds.map .all) := by
    simp only [optionalField, optionalDefault, withDefault, Source.value, hcmds]
    cases cmds with
    | none => rfl
    | some list => simp only [Option.map_some, hlist]
  simp only [abbrBody, required, optionalDefault, withDefault, Source.value, hkey, hexpand, hnumber,
    hmatch, hcmds, Option.bind_eq_bind, Option.bind_some]
  rfl

/-- The key of a rule is that of its table. -/
theorem derivedReader_readsKeys : (derivedReader format).ReadsKeys := by
  intro entries rule h
  have hread : abbrBody format (.named entries) = some rule := TomlFormat.result_eq_ok.mp h
  obtain ⟨key, hkey, hread⟩ := Option.bind_eq_some_iff.mp hread
  obtain ⟨item, hitem, hstring⟩ := Option.bind_eq_some_iff.mp hkey
  have hrule : rule.key = key := by
    obtain ⟨expand, -, hread⟩ := Option.bind_eq_some_iff.mp hread
    obtain ⟨cmds, -, hread⟩ := Option.bind_eq_some_iff.mp hread
    obtain ⟨number, -, hread⟩ := Option.bind_eq_some_iff.mp hread
    obtain ⟨matchKind, -, hread⟩ := Option.bind_eq_some_iff.mp hread
    rw [← Option.some.inj hread]
  rw [hrule, ← string_eq_some.mp hstring]
  exact hitem

end Runex
