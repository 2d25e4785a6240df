import Runex.App.Config.Deserialize
import Runex.App.Doctor
import Runex.App.Doctor.Suggest

/-!
# The doctor's check for unknown fields

The keys of the tables of a configuration are compared with lists of known keys. What the
deserializer reads is said by the structs. The two agree on every table but those of the values per
shell of a rule and those inside a struct that is written as an array, which are not looked at, and
on every key but `paste_intercept`.

## Main definitions

- `unknownFields`, `checkUnknownFields` — what is reported
- `Reports` — a key is reported at a place
- `UncheckedPlace` — the tables of the schema that are not looked at

## Main results

- `mem_unknownFields` — which keys are reported
- `checkUnknownFields_matches_schema` — when the reported keys are the ignored ones
-/

namespace Runex

open Toml Serde

def knownTopLevelKeys : List Text :=
  ["version".toList, "keybind".toList, "precache".toList, "abbr".toList]

def knownAbbrKeys : List Text :=
  ["key".toList, "expand".toList, "when_command_exists".toList, "number".toList, "match".toList]

def knownKeybindKeys : List Text := ["trigger".toList, "self_insert".toList]

def knownKeybindSubKeys : List Text :=
  ["default".toList, "bash".toList, "zsh".toList, "pwsh".toList, "nu".toList]

def knownPrecacheKeys : List Text := ["path_only".toList]

/-- The tables whose keys are compared. -/
inductive CheckedTable where
  | topLevel
  | keybind
  | keybindTable (name : Text)
  | precache
  | abbr (i : ℕ)
  deriving DecidableEq

namespace CheckedTable

def path : CheckedTable → List Step
  | topLevel => []
  | keybind => [.key "keybind".toList]
  | keybindTable name => [.key "keybind".toList, .key name]
  | precache => [.key "precache".toList]
  | abbr i => [.key "abbr".toList, .index i]

def known : CheckedTable → List Text
  | topLevel => knownTopLevelKeys
  | keybind => knownKeybindKeys
  | keybindTable _ => knownKeybindSubKeys
  | precache => knownPrecacheKeys
  | abbr _ => knownAbbrKeys

/-- What stands before the key in the name of a check. -/
def label : CheckedTable → Text
  | topLevel => []
  | keybind => "keybind.".toList
  | keybindTable name => "keybind.".toList ++ (name ++ ['.'])
  | precache => "precache.".toList
  | abbr i => "abbr[".toList ++ (decimal i ++ "].".toList)

/-- The detail of a check of a key. Rules are counted from 1 here. -/
def detail (table : CheckedTable) (key : Text) : Text :=
  match table with
  | topLevel => "unknown top-level field '".toList ++ (key ++ ['\''])
  | keybind => "unknown keybind field '".toList ++ (key ++ ['\''])
  | keybindTable name =>
    "unknown keybind.".toList ++ (name ++ (" field '".toList ++ (key ++ ['\''])))
  | precache => "unknown precache field '".toList ++ (key ++ ['\''])
  | abbr i =>
    "unknown field '".toList ++ (key ++ ("' in abbr[".toList ++ (decimal (i + 1) ++ [']'])))

end CheckedTable

def didYouMean : Option Text → Text
  | some s => " (did you mean '".toList ++ (s ++ "'?)".toList)
  | none => []

/-- The warning about a key. -/
def unknownFieldCheck (table : CheckedTable) (key : Text) : Check where
  name := "strict.unknown_field.".toList ++ (table.label ++ sanitizeForDisplay key)
  status := .warn
  detail := table.detail (sanitizeForDisplay key) ++ didYouMean (suggestSimilar key table.known)

def keysOf (table : Table) : List Text := table.map Prod.fst

/-- The keys of a table that are not known. -/
def unknownKeys (checked : CheckedTable) (table : Table) : List (CheckedTable × Text) :=
  ((keysOf table).filter (· ∉ checked.known)).map fun key => (checked, key)

/-- `if let Some(Value::Table(table))`. -/
def ifTable {β : Type} (item : Option Item) (body : Table → List β) : List β :=
  match item with
  | some (.table table) => body table
  | _ => []

/-- The loop over `[keybind]`: a known key leads to a table of its own. -/
def unknownKeybindKeys (kb : Table) : List (CheckedTable × Text) :=
  (keysOf kb).flatMap fun key =>
    if key ∉ knownKeybindKeys then [(.keybind, key)]
    else ifTable (kb.get key) (unknownKeys (.keybindTable key))

/-- The loop over the rules. -/
def unknownAbbrKeys (abbrs : List Item) : List (CheckedTable × Text) :=
  abbrs.zipIdx.flatMap fun (entry, i) => ifTable (some entry) (unknownKeys (.abbr i))

/-- The unknown keys of a document, each with its table. -/
def unknownFields (doc : Table) : List (CheckedTable × Text) :=
  unknownKeys .topLevel doc ++
  (ifTable (doc.get "keybind".toList) unknownKeybindKeys ++
  (ifTable (doc.get "precache".toList) (unknownKeys .precache) ++
  match (doc.get "abbr".toList).bind Item.elements with
  | some abbrs => unknownAbbrKeys abbrs
  | none => []))

/-- What is reported of a text. A text that is not TOML is left to another check. -/
def reportedFields (parse : Text → Except Text Table) (configSource : Text) :
    List (CheckedTable × Text) :=
  match parse configSource with
  | .ok table => unknownFields table
  | .error _ => []

def checkUnknownFields (parse : Text → Except Text Table) (configSource : Text) : List Check :=
  (reportedFields parse configSource).map fun (table, key) => unknownFieldCheck table key

/-- A key of the table at a place is reported. -/
def Reports (parse : Text → Except Text Table) (configSource : Text) (path : List Step)
    (key : Text) : Prop :=
  ∃ table, (table, key) ∈ reportedFields parse configSource ∧ table.path = path

-- ════════════════════════════════════════════════════════════════════════
-- What is reported
-- ════════════════════════════════════════════════════════════════════════

variable {doc table : Table} {checked : CheckedTable} {key : Text}

theorem mem_unknownKeys {found : CheckedTable} :
    (found, key) ∈ unknownKeys checked table ↔
      found = checked ∧ key ∈ keysOf table ∧ key ∉ checked.known := by
  simp only [unknownKeys, List.mem_map, List.mem_filter, decide_eq_true_eq, Prod.mk.injEq]
  constructor
  · rintro ⟨_, h, rfl, rfl⟩
    exact ⟨rfl, h⟩
  · rintro ⟨rfl, h⟩
    exact ⟨key, h, rfl, rfl⟩

theorem mem_keysOf_of_get {item : Item} (h : table.get key = some item) : key ∈ keysOf table := by
  obtain ⟨before, after, rfl, -⟩ := List.lookup_eq_some_iff.mp h
  simp [keysOf]

theorem mem_ifTable {β : Type} {item : Option Item} {body : Table → List β} {b : β} :
    b ∈ ifTable item body ↔ ∃ table : Table, item = some (.table table) ∧ b ∈ body table := by
  unfold ifTable
  split
  · simp
  · next hne => simpa using fun table htable => absurd htable (hne table)

theorem mem_unknownKeybindKeys {kb : Table} : (checked, key) ∈ unknownKeybindKeys kb ↔
    checked = .keybind ∧ key ∈ keysOf kb ∧ key ∉ knownKeybindKeys ∨
    ∃ name ∈ knownKeybindKeys, ∃ sub : Table, kb.get name = some (.table sub) ∧
      checked = .keybindTable name ∧ key ∈ keysOf sub ∧ key ∉ knownKeybindSubKeys := by
  rw [unknownKeybindKeys, List.mem_flatMap]
  constructor
  · rintro ⟨name, hname, hmem⟩
    split at hmem
    · next hunknown =>
      obtain ⟨rfl, rfl⟩ := Prod.mk.inj (List.mem_singleton.mp hmem)
      exact Or.inl ⟨rfl, hname, hunknown⟩
    · next hknown =>
      obtain ⟨sub, hsub, hmem⟩ := mem_ifTable.mp hmem
      exact Or.inr ⟨name, not_not.mp hknown, sub, hsub, mem_unknownKeys.mp hmem⟩
  · rintro (⟨rfl, hkey, hunknown⟩ | ⟨name, hknown, sub, hsub, hmem⟩)
    · exact ⟨key, hkey, by rw [if_pos hunknown]; exact List.mem_singleton_self _⟩
    · refine ⟨name, mem_keysOf_of_get hsub, ?_⟩
      rw [if_neg (not_not.mpr hknown)]
      exact mem_ifTable.mpr ⟨sub, hsub, mem_unknownKeys.mpr hmem⟩

theorem mem_unknownAbbrKeys {abbrs : List Item} : (checked, key) ∈ unknownAbbrKeys abbrs ↔
    ∃ i, ∃ table : Table, abbrs[i]? = some (.table table) ∧ checked = .abbr i ∧
      key ∈ keysOf table ∧ key ∉ knownAbbrKeys := by
  rw [unknownAbbrKeys, List.mem_flatMap]
  constructor
  · rintro ⟨⟨entry, i⟩, hentry, hmem⟩
    obtain ⟨table, htable, hmem⟩ := mem_ifTable.mp hmem
    obtain rfl := Option.some.inj htable
    exact ⟨i, table, List.mem_zipIdx_iff_getElem?.mp hentry, mem_unknownKeys.mp hmem⟩
  · rintro ⟨i, table, hentry, hmem⟩
    exact ⟨(.table table, i), List.mem_zipIdx_iff_getElem?.mpr hentry,
      mem_ifTable.mpr ⟨table, rfl, mem_unknownKeys.mpr hmem⟩⟩

/-- The tables the check looks at: of those under `[keybind]` the known ones. -/
def CheckedTable.IsVisited : CheckedTable → Prop
  | keybindTable name => name ∈ knownKeybindKeys
  | _ => True

theorem follow_rule {i : ℕ} :
    follow [.key "abbr".toList, .index i] (.table doc) = some (.table table) ↔
    ∃ abbrs, (doc.get "abbr".toList).bind Item.elements = some abbrs ∧
      abbrs[i]? = some (.table table) := by
  simp only [follow, Item.child, Option.bind_eq_some_iff, Option.some.injEq]
  constructor
  · rintro ⟨rules, hrules, _, ⟨abbrs, habbrs, hget⟩, rfl⟩
    exact ⟨abbrs, ⟨rules, hrules, habbrs⟩, hget⟩
  · rintro ⟨abbrs, ⟨rules, hrules, habbrs⟩, hget⟩
    exact ⟨rules, hrules, _, ⟨abbrs, habbrs, hget⟩, rfl⟩

theorem mem_rules : ((checked, key) ∈ match (doc.get "abbr".toList).bind Item.elements with
      | some abbrs => unknownAbbrKeys abbrs
      | none => []) ↔
    ∃ i, checked = .abbr i ∧ ∃ table : Table,
      follow [.key "abbr".toList, .index i] (.table doc) = some (.table table) ∧
        key ∈ keysOf table ∧ key ∉ knownAbbrKeys := by
  simp only [follow_rule]
  cases (doc.get "abbr".toList).bind Item.elements with
  | none => simp only [List.not_mem_nil, reduceCtorEq, false_and, exists_false, and_false]
  | some abbrs =>
    simp only [mem_unknownAbbrKeys, Option.some.injEq, exists_eq_left']
    constructor
    · rintro ⟨i, table, hget, hchecked, hkey⟩
      exact ⟨i, hchecked, table, hget, hkey⟩
    · rintro ⟨i, hchecked, table, hget, hkey⟩
      exact ⟨i, table, hget, hchecked, hkey⟩

/-- The unknown keys of the tables that are looked at are reported. -/
theorem mem_unknownFields : (checked, key) ∈ unknownFields doc ↔
    checked.IsVisited ∧ ∃ table : Table, follow checked.path (.table doc) = some (.table table) ∧
      key ∈ keysOf table ∧ key ∉ checked.known := by
  simp only [unknownFields, List.mem_append, mem_unknownKeys, mem_ifTable, mem_unknownKeybindKeys,
    mem_rules]
  cases checked with
  | topLevel =>
    simp only [CheckedTable.IsVisited, CheckedTable.path, CheckedTable.known, follow, reduceCtorEq,
      false_and, and_false, exists_false, or_false, true_and, Option.some.injEq, Item.table.injEq,
      exists_eq_left']
  | keybind =>
    simp only [CheckedTable.IsVisited, CheckedTable.path, CheckedTable.known, follow_key_eq_some,
      reduceCtorEq, false_and, and_false, exists_false, or_false, false_or, true_and,
      Item.table.injEq, exists_eq_left']
  | keybindTable name =>
    simp only [CheckedTable.IsVisited, CheckedTable.path, CheckedTable.known, follow_keys_eq_some,
      reduceCtorEq, false_and, and_false, exists_false, or_false, false_or,
      CheckedTable.keybindTable.injEq]
    constructor
    · rintro ⟨kb, hkb, _, hknown, sub, hsub, rfl, hkey⟩
      exact ⟨hknown, sub, ⟨kb, hkb, hsub⟩, hkey⟩
    · rintro ⟨hknown, sub, ⟨kb, hkb, hsub⟩, hkey⟩
      exact ⟨kb, hkb, name, hknown, sub, hsub, rfl, hkey⟩
  | precache =>
    simp only [CheckedTable.IsVisited, CheckedTable.path, CheckedTable.known, follow_key_eq_some,
      reduceCtorEq, false_and, and_false, exists_false, or_false, false_or, true_and,
      Item.table.injEq, exists_eq_left']
  | abbr i =>
    simp only [CheckedTable.IsVisited, CheckedTable.path, CheckedTable.known,
      reduceCtorEq, false_and, and_false, exists_false, or_false, false_or, true_and,
      CheckedTable.abbr.injEq, exists_eq_left']

-- ════════════════════════════════════════════════════════════════════════
-- What is reported and what is ignored
-- ════════════════════════════════════════════════════════════════════════

theorem CheckedTable.path_injective : Function.Injective CheckedTable.path := by
  intro a b h
  cases a <;> cases b <;> simp_all [CheckedTable.path]

variable {format : TomlFormat} {source : Text} {path : List Step} {fields : List Text}

/-- At a place the check visits the unknown keys are reported. -/
theorem reports_iff (checked : CheckedTable) (hparse : format.parse source = .ok doc)
    (htable : follow checked.path (.table doc) = some (.table table)) (hkey : key ∈ keysOf table) :
    Reports format.parse source checked.path key ↔ checked.IsVisited ∧ key ∉ checked.known := by
  have hreported : reportedFields format.parse source = unknownFields doc := by
    simp only [reportedFields, hparse]
  rw [Reports, hreported]
  constructor
  · rintro ⟨found, hmem, hpath⟩
    obtain rfl := CheckedTable.path_injective hpath
    obtain ⟨hvisited, _, _, _, hunknown⟩ := mem_unknownFields.mp hmem
    exact ⟨hvisited, hunknown⟩
  · rintro ⟨hvisited, hunknown⟩
    exact ⟨checked, mem_unknownFields.mpr ⟨hvisited, table, htable, hkey, hunknown⟩, rfl⟩

/-- At a place of no table that is compared nothing is reported. -/
theorem not_reports (h : ∀ checked : CheckedTable, checked.path ≠ path) :
    ¬ Reports format.parse source path key := by
  rintro ⟨found, -, hpath⟩
  exact h found hpath

/-- The tables of the schema that are never looked at: the values per shell of a rule, and the
    tables inside a `keybind` or a rule that is written as an array. -/
inductive UncheckedPlace : List Step → Prop where
  | perShell (i : ℕ) {name : Text} (h : name ∈ ["expand".toList, "when_command_exists".toList]) :
    UncheckedPlace [.key "abbr".toList, .index i, .key name]
  | placedBinding {place : ℕ} (h : place < 3) :
    UncheckedPlace [.key "keybind".toList, .index place]
  | placedPerShell (i : ℕ) {place : ℕ} (h : place = 1 ∨ place = 2) :
    UncheckedPlace [.key "abbr".toList, .index i, .index place]

/-- What has to be so in a document for the check to report what is ignored: no binding for paste,
    and only the shells in the tables that are not looked at. -/
structure SchemaCovered (doc : Table) : Prop where
  no_paste : ∀ kb : Table, doc.get "keybind".toList = some (.table kb) →
    "paste_intercept".toList ∉ keysOf kb
  shells : ∀ path, UncheckedPlace path → ∀ table : Table,
    follow path (.table doc) = some (.table table) → ∀ key ∈ keysOf table, key ∈ perShellFields

/-- The check reports exactly the ignored keys of the tables of the schema. -/
def ReportsIgnored (format : TomlFormat) (source : Text) (doc : Table) : Prop :=
  ∀ path fields, SchemaPlace path fields → ∀ table : Table,
    follow path (.table doc) = some (.table table) → ∀ key ∈ keysOf table,
      (Reports format.parse source path key ↔ Ignores (readConfig format) (.table doc) path key)

theorem mem_keybindFields {name : Text} :
    name ∈ keybindFields ↔ name ∈ knownKeybindKeys ∨ name = "paste_intercept".toList := by
  have hfields : keybindFields = knownKeybindKeys ++ ["paste_intercept".toList] := rfl
  rw [hfields, List.mem_append, List.mem_singleton]

theorem UncheckedPlace.path_ne (h : UncheckedPlace path) (checked : CheckedTable) :
    checked.path ≠ path := by
  cases h <;> cases checked <;> simp [CheckedTable.path]

theorem UncheckedPlace.schemaPlace (h : UncheckedPlace path) : SchemaPlace path perShellFields := by
  cases h with
  | perShell i h =>
    rcases List.mem_cons.mp h with rfl | h
    · exact .expand i
    · obtain rfl := List.mem_singleton.mp h
      exact .whenCommandExists i
  | placedBinding h => exact .placedBinding h
  | placedPerShell i h =>
    rcases h with rfl | rfl
    · exact .placedExpand i
    · exact .placedWhenCommandExists i

theorem SchemaCovered.reportsIgnored (h : SchemaCovered doc) (hparse : format.parse source = .ok doc)
    (hok : (readConfig format (.table doc)).isSome) :
    ReportsIgnored format source doc := by
  intro path fields hplace table htable key hkey
  rw [hplace.ignores_iff format htable hok]
  have hsame : ∀ checked : CheckedTable, checked.path = path → checked.IsVisited →
      (key ∈ checked.known ↔ key ∈ fields) →
        (Reports format.parse source path key ↔ key ∉ fields) := by
    rintro checked rfl hvisited hknown
    rw [reports_iff checked hparse htable hkey, hknown]
    exact and_iff_right hvisited
  have hnone : UncheckedPlace path → fields = perShellFields →
      (Reports format.parse source path key ↔ key ∉ fields) := by
    rintro hunchecked rfl
    exact iff_of_false (not_reports hunchecked.path_ne)
      (not_not.mpr (h.shells path hunchecked table htable key hkey))
  cases hplace with
  | config => exact hsame .topLevel rfl trivial Iff.rfl
  | keybind =>
    obtain ⟨_, hdoc, hkb⟩ := follow_key_eq_some.mp htable
    obtain rfl := Item.table.inj hdoc
    have hpaste : key ≠ "paste_intercept".toList := by
      rintro rfl
      exact h.no_paste table hkb hkey
    exact hsame .keybind rfl trivial (by rw [mem_keybindFields, or_iff_left hpaste]; rfl)
  | @binding name hname =>
    obtain ⟨kb, hkb, hsub⟩ := follow_keys_eq_some.mp htable
    have hpaste : name ≠ "paste_intercept".toList := by
      rintro rfl
      exact h.no_paste kb hkb (mem_keysOf_of_get hsub)
    exact hsame (.keybindTable name) rfl ((mem_keybindFields.mp hname).resolve_right hpaste) Iff.rfl
  | precache => exact hsame .precache rfl trivial Iff.rfl
  | abbr i => exact hsame (.abbr i) rfl trivial Iff.rfl
  | expand i => exact hnone (.perShell i List.mem_cons_self) rfl
  | whenCommandExists i =>
    exact hnone (.perShell i (List.mem_cons_of_mem _ List.mem_cons_self)) rfl
  | placedBinding h => exact hnone (.placedBinding h) rfl
  | placedExpand i => exact hnone (.placedPerShell i (.inl rfl)) rfl
  | placedWhenCommandExists i => exact hnone (.placedPerShell i (.inr rfl)) rfl

theorem ReportsIgnored.schemaCovered (h : ReportsIgnored format source doc)
    (hparse : format.parse source = .ok doc) (hok : (readConfig format (.table doc)).isSome) :
    SchemaCovered doc := by
  constructor
  · intro kb hkb hpaste
    have htable : follow [.key "keybind".toList] (.table doc) = some (.table kb) :=
      follow_key_eq_some.mpr ⟨doc, rfl, hkb⟩
    have hreports := (reports_iff .keybind hparse htable hpaste).mpr ⟨trivial, by decide⟩
    have hignores := (h _ _ .keybind kb htable _ hpaste).mp hreports
    exact (SchemaPlace.keybind.ignores_iff format htable hok).mp hignores (by decide)
  · intro path hunchecked table htable key hkey
    have hplace := hunchecked.schemaPlace
    by_contra hforeign
    have hignores := (hplace.ignores_iff format htable hok).mpr hforeign
    exact not_reports hunchecked.path_ne ((h _ _ hplace table htable key hkey).mpr hignores)

/-- For a document that deserializes the reported keys are the ignored ones exactly if `[keybind]`
    has no `paste_intercept` and the tables that are not looked at name no other shell. -/
theorem checkUnknownFields_matches_schema (format : TomlFormat) {source : Text} {config : Config}
    (h : (derivedReader format).fromStr source = .ok config) :
    ∃ doc, format.parse source = .ok doc ∧
      (ReportsIgnored format source doc ↔ SchemaCovered doc) := by
  obtain ⟨doc, hparse, hread⟩ := ConfigReader.fromStr_eq_ok.mp h
  have hok : (readConfig format (.table doc)).isSome := by
    rw [derivedReader_fromTable_eq_ok.mp hread]
    rfl
  exact ⟨doc, hparse, fun hreports => hreports.schemaCovered hparse hok,
    fun hcovered => hcovered.reportsIgnored hparse hok⟩

/-- Two typing errors. -/
example :
    let doc : Table := [("abr".toList, .boolean true),
      ("abbr".toList, .array [.table [("expad".toList, .string "x".toList)]])]
    checkUnknownFields (fun _ => .ok doc) [] =
      [{ name := "strict.unknown_field.abr".toList
         status := .warn
         detail := "unknown top-level field 'abr' (did you mean 'abbr'?)".toList },
       { name := "strict.unknown_field.abbr[0].expad".toList
         status := .warn
         detail := "unknown field 'expad' in abbr[1] (did you mean 'expand'?)".toList }] := by
  decide +kernel

/-- A format that knows one text. -/
def formatOf (source : Text) (doc : Table) : TomlFormat where
  parse text := if text = source then .ok doc else .error "TOML parse error".toList
  unit _ := none
  message := "invalid type".toList

theorem parse_formatOf (source : Text) (doc : Table) :
    (formatOf source doc).parse source = .ok doc := by
  simp only [formatOf, if_true]

theorem formatOf_reads {source : Text} {doc : Table} {config : Config}
    (h : readConfig (formatOf source doc) (.table doc) = some config) :
    (derivedReader (formatOf source doc)).fromStr source = .ok config :=
  ConfigReader.fromStr_eq_ok.mpr ⟨doc, parse_formatOf source doc, derivedReader_fromTable_eq_ok.mpr h⟩

def typoSource : Text := "version = 1\nabr = true\n".toList

def typoDoc : Table := [("version".toList, .integer 1), ("abr".toList, .boolean true)]

def placedSource : Text :=
  "version = 1\nkeybind = [\x7b default = \"tab\", bsh = \"space\" \x7d]\n".toList

def placedDoc : Table :=
  [("version".toList, .integer 1), ("keybind".toList, .array
    [.table [("default".toList, .string "tab".toList), ("bsh".toList, .string "space".toList)]])]

/-- A misspelt top-level key is reported and ignored, and nothing else is; in a `keybind` that is
    written as an array a misspelt shell is ignored and not reported. -/
theorem checkUnknownFields_matches_schema_typo :
    ReportsIgnored (formatOf typoSource typoDoc) typoSource typoDoc ∧
      ¬ ReportsIgnored (formatOf placedSource placedDoc) placedSource placedDoc := by
  constructor
  · obtain ⟨doc, hparse, hiff⟩ := checkUnknownFields_matches_schema _
      (@formatOf_reads typoSource typoDoc _ rfl)
    obtain rfl := Except.ok.inj ((parse_formatOf _ _).symm.trans hparse)
    refine hiff.mpr ⟨nofun, fun path hunchecked table htable => ?_⟩
    cases hunchecked <;> cases htable
  · obtain ⟨doc, hparse, hiff⟩ := checkUnknownFields_matches_schema _
      (@formatOf_reads placedSource placedDoc _ rfl)
    obtain rfl := Except.ok.inj ((parse_formatOf _ _).symm.trans hparse)
    intro hreports
    have hshells := (hiff.mp hreports).shells _ (@UncheckedPlace.placedBinding 0 (by decide)) _ rfl
    exact absurd (hshells "bsh".toList (by decide)) (by decide)

def pasteSource : Text := "version = 1\n[keybind.paste_intercept]\nnu = \"ctrl-v\"\n".toList

def pasteDoc : Table :=
  [("version".toList, .integer 1), ("keybind".toList, .table
    [("paste_intercept".toList, .table [("nu".toList, .string "ctrl-v".toList)])])]

/-- A binding that is read is called unknown. -/
theorem paste_intercept_called_unknown : ¬ ∀ (format : TomlFormat) (source : Text) (config : Config),
    (derivedReader format).fromStr source = .ok config →
      ∀ doc, format.parse source = .ok doc → ReportsIgnored format source doc := by
  intro hall
  have hparse := parse_formatOf pasteSource pasteDoc
  have hreports := hall _ pasteSource _ (@formatOf_reads pasteSource pasteDoc _ rfl) pasteDoc hparse
  have hcovered := hreports.schemaCovered hparse rfl
  exact hcovered.no_paste _ rfl (by decide)

end Runex
