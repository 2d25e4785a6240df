import Mathlib.Data.List.Forall2
import Runex.App.Config.PlainReader

/-!
# Removing rules

`runex remove` loads the file, edits it in place and replaces it. The loader reads the rules in any
form TOML has for an array; the editor looks at `[[abbr]]` tables only.

## Main definitions

- `RemovesExactly` — the rules with the key are gone, and nothing else changed
- `Removable` — the rules are where the editor looks

## Main results

- `remove_exact_iff` — when the rules with the key are removed
-/

namespace Runex

open FileSystem Toml
open Text (byteLen)

/-- The file loads without the rules that have the key, `n` of them, and is as it was when there are
    none. -/
def RemovesExactly (engine : RegexLite) (reader : ConfigReader) (disk disk' : Disk) (path : Path)
    (key : Text) (n : ℕ) : Prop :=
  ∀ config, Loads engine reader disk path config →
    Loads engine reader disk' path { config with abbr := config.abbr.filter (·.key ≠ key) } ∧
    n = config.abbr.countP (·.key = key) ∧ (n = 0 → disk'.node = disk.node)

/-- The rules are written as `[[abbr]]` tables, or none of them has the key. -/
def Removable (reader : ConfigReader) (disk : Disk) (path : Path) (key : Text) : Prop :=
  ∀ s doc config, disk.node path = .regular (encode s) → reader.toml s = .ok doc →
    reader.fromTable doc = .ok config →
    (doc.tables "abbr".toList).isSome ∨ ∀ rule ∈ config.abbr, rule.key ≠ key

section Lists

variable {ε α β : Type} {f : α → Except ε β} {p : α → Bool} {q : β → Bool}

theorem mapM_eq_ok {l : List α} {values : List β} :
    l.mapM f = .ok values ↔ List.Forall₂ (fun a b => f a = .ok b) l values := by
  induction l generalizing values with
  | nil => cases values <;> simp [pure, Except.pure]
  | cons a l ih =>
    rw [List.mapM_cons]
    cases hfirst : f a with
    | error e => cases values <;> simp [bind, Except.bind, hfirst]
    | ok b =>
      cases hrest : l.mapM f with
      | error e => cases values <;> simp [bind, Except.bind, ← ih, hfirst, hrest]
      | ok rest =>
        cases values <;> simp [bind, Except.bind, pure, Except.pure, ← ih, hfirst, hrest]

/-- What is kept of a list is read as what is kept of the values. -/
theorem mapM_filter_eq_ok {l : List α} {values : List β} (hmap : l.mapM f = .ok values)
    (h : ∀ a b, f a = .ok b → p a = q b) : (l.filter p).mapM f = .ok (values.filter q) :=
  mapM_eq_ok.mpr (List.rel_filter (fun a b hab => by simp [h a b hab]) (mapM_eq_ok.mp hmap))

end Lists

variable {engine : RegexLite} {reader : ConfigReader} {editor : Editor} {path : Path} {key : Text}
  {faults : Faults} {disk disk' : Disk}

/-- A table matches when its rule has the key. -/
theorem tableMatches_eq (hkeys : reader.ReadsKeys) {table : editor.TableText} {rule : Abbr}
    (h : reader.rule (.table (editor.entries table)) = .ok rule) :
    tableMatches editor key table = decide (rule.key = key) := by
  rw [tableMatches, hkeys _ _ h]
  simp [beq_eq_decide]

/-- A configuration without some of its rules is accepted. -/
theorem Accepted.filter {config : Config} (h : Accepted engine config) (p : Abbr → Bool) :
    Accepted engine { config with abbr := config.abbr.filter p } := by
  obtain ⟨hversion, hkeybind, hcount, hrules⟩ := accepted_iff_rules.mp h
  refine accepted_iff_rules.mpr ⟨hversion, hkeybind, ?_, ?_⟩
  · exact (List.length_filter_le p config.abbr).trans hcount
  · exact fun rule hmem => hrules rule (List.mem_of_mem_filter hmem)

/-- What the loop keeps: the tables whose rules do not have the key. -/
theorem removeLoop_zero (key : Text) (arr : List editor.TableText) :
    removeLoop editor key arr 0 = arr.filter fun table => !tableMatches editor key table := by
  rw [removeLoop_eq, List.take_zero, List.drop_zero, List.nil_append]

/-- A `remove` that returns has loaded the file, and counted and removed the matching tables of the
    edited document, if it has any. -/
theorem removeAbbrFromFile_eq_ok {n : ℕ}
    (h : exec (removeAbbrFromFile engine reader editor path key) faults disk = (.ok n, disk')) :
    ∃ s config document, disk.node path = .regular (encode s) ∧
      byteLen s ≤ maxConfigFileBytes ∧ reader.fromStr s = .ok config ∧ Accepted engine config ∧
      editor.parse s = some document ∧
      match editor.arrayOfTables document "abbr".toList with
      | none => n = 0 ∧ disk'.node = disk.node
      | some texts =>
        let kept := removeLoop editor key texts 0
        n = texts.length - kept.length ∧ (n = 0 → disk'.node = disk.node) ∧
          (n ≠ 0 → disk'.node path = .regular
            (encode (editor.print (editor.setTables document "abbr".toList kept)))) := by
  obtain ⟨config, d₁, hload, hremove⟩ := exec_bind_eq_ok h
  obtain ⟨s, hnode, hsize, hread, haccepted, hdisk⟩ := loadConfig_eq_ok hload
  obtain ⟨t, d₂, hsource, hedit⟩ := exec_bind_eq_ok hremove
  obtain ⟨hnode₂, -, hdisk₂⟩ := readConfigSource_eq_ok hsource
  obtain rfl : t = s := encode_inj.mp (Node.regular.inj (by rw [← hnode₂, hdisk, hnode]))
  cases hparse : editor.parse t with
  | none => simp [hparse] at hedit
  | some document =>
    refine ⟨t, config, document, hnode, hsize, hread, haccepted, hparse, ?_⟩
    have hsame : d₂.node = disk.node := hdisk₂.trans hdisk
    simp only [hparse] at hedit
    cases htables : editor.arrayOfTables document "abbr".toList with
    | none =>
      simp only [htables, exec_pure, Prod.mk.injEq, Except.ok.injEq] at hedit
      obtain ⟨rfl, rfl⟩ := hedit
      exact ⟨rfl, hsame⟩
    | some texts =>
      simp only [htables] at hedit ⊢
      split at hedit
      · next hremoved =>
        obtain ⟨⟨⟩, d₃, hwrite, hreturn⟩ := exec_bind_eq_ok hedit
        simp only [exec_pure, Prod.mk.injEq, Except.ok.injEq] at hreturn
        obtain ⟨rfl, rfl⟩ := hreturn
        exact ⟨rfl, fun hzero => absurd hzero (Nat.ne_of_gt hremoved),
          fun _ => atomicallyWriteConfig_eq_ok hwrite⟩
      · next hremoved =>
        have hreturn := (Prod.mk.injEq _ _ _ _).mp hedit
        obtain ⟨hn, rfl⟩ := hreturn
        obtain rfl := Except.ok.inj hn
        exact ⟨rfl, fun _ => hsame, fun hne => absurd (Nat.pos_of_ne_zero hne) hremoved⟩

/-- Nothing but the rename changes the file. -/
theorem keepsOnError_removeAbbrFromFile (engine : RegexLite) (reader : ConfigReader)
    (editor : Editor) (path : Path) (key : Text) :
    KeepsOnError path (removeAbbrFromFile engine reader editor path key) := by
  refine (keeps_loadConfig engine reader path path).bindOnError fun _ _ =>
    (keeps_readConfigSource path path).bindOnError fun s _ => ?_
  split
  · exact (keeps_throw _).onError
  · split
    · exact (keeps_pure _).onError
    · dsimp only
      split
      · exact (keepsOnError_atomicallyWriteConfig path _).bindPure _
      · exact (keeps_pure _).onError

/-- A file no call has changed loads as before. -/
theorem Loads.of_node_eq {config : Config} (h : Loads engine reader disk path config)
    (hnode : disk'.node = disk.node) : Loads engine reader disk' path config := by
  rw [loads_iff] at h ⊢
  rwa [hnode]

/-- Without a rule that has the key there is nothing to remove. -/
theorem removesExactly_zero {config : Config} (hload : Loads engine reader disk path config)
    (hnode : disk'.node = disk.node) (h : ∀ rule ∈ config.abbr, rule.key ≠ key) :
    RemovesExactly engine reader disk disk' path key 0 := by
  intro config' hload'
  obtain rfl : config = config' := Except.ok.inj (hload.symm.trans hload')
  have hfilter : config.abbr.filter (·.key ≠ key) = config.abbr :=
    List.filter_eq_self.mpr fun rule hmem => by simpa using h rule hmem
  have hcount : config.abbr.countP (·.key = key) = 0 :=
    List.countP_eq_zero.mpr fun rule hmem => by simpa using h rule hmem
  rw [hfilter, hcount]
  exact ⟨hload.of_node_eq hnode, rfl, fun _ => hnode⟩

/-- The tables that are kept, and how many are not. -/
theorem rules_of_kept (key : Text) (hkeys : reader.ReadsKeys) {texts : List editor.TableText}
    {rules : List Abbr}
    (h : (texts.map editor.entries).mapM (fun table => reader.rule (.table table)) = .ok rules) :
    ((removeLoop editor key texts 0).map editor.entries).mapM
        (fun table => reader.rule (.table table)) = .ok (rules.filter (·.key ≠ key)) ∧
      texts.length - (removeLoop editor key texts 0).length = rules.countP (·.key = key) := by
  rw [List.mapM_map] at h ⊢
  have hkept : (removeLoop editor key texts 0).mapM
      ((fun table => reader.rule (.table table)) ∘ editor.entries) =
        .ok (rules.filter (·.key ≠ key)) := by
    rw [removeLoop_zero]
    refine mapM_filter_eq_ok h fun table rule hrule => ?_
    rw [tableMatches_eq hkeys hrule]
    simp
  refine ⟨hkept, ?_⟩
  have hlength := (mapM_eq_ok.mp h).length_eq
  have hlength' := (mapM_eq_ok.mp hkept).length_eq
  have hcount : rules.length = rules.countP (·.key = key) + rules.countP (·.key ≠ key) := by
    simpa using List.length_eq_countP_add_countP (l := rules) (fun rule => decide (rule.key = key))
  rw [hlength, hlength', ← List.countP_eq_length_filter]
  omega

/-- The file printed without the matching tables loads without their rules. -/
theorem loads_without (heditor : editor.Lawful reader.toml) {s : Text} {doc : Table}
    {document : editor.Document} {config : Config} {texts kept : List editor.TableText}
    (hsize : byteLen s ≤ maxConfigFileBytes) (haccepted : Accepted engine config)
    (htext : reader.toml s = .ok doc) (hdoc : reader.fromTable doc = .ok config)
    (hparse : editor.parse s = some document)
    (hedit : editor.arrayOfTables document "abbr".toList = some texts)
    (hsublist : kept.Sublist texts) (hne : kept ≠ texts)
    (hkept : (kept.map editor.entries).mapM (fun table => reader.rule (.table table)) =
      .ok (config.abbr.filter (·.key ≠ key)))
    (hnode : disk'.node path = .regular
      (encode (editor.print (editor.setTables document "abbr".toList kept)))) :
    Loads engine reader disk' path { config with abbr := config.abbr.filter (·.key ≠ key) } := by
  obtain ⟨hversion, hkeybind, hprecache, -⟩ := ConfigReader.fromTable_eq_ok.mp hdoc
  obtain ⟨⟨doc', hprinted, htables', hother⟩, hlength⟩ :=
    heditor.remove htext hparse hedit hsublist hne
  have hdoc' : reader.fromTable doc' =
      .ok { config with abbr := config.abbr.filter (·.key ≠ key) } := by
    refine ConfigReader.fromTable_eq_ok.mpr ⟨?_, ?_, ?_, ?_⟩
    · rwa [hother _ (by decide)]
    · rwa [hother _ (by decide)]
    · rwa [hother _ (by decide)]
    · rwa [ConfigReader.rules_of_tables htables']
  exact loads_iff.mpr ⟨_, hnode, hlength.trans hsize,
    ConfigReader.fromStr_eq_ok.mpr ⟨doc', hprinted, hdoc'⟩, haccepted.filter _⟩

/-- What is removable in a file that is read. -/
theorem removable_iff {s : Text} {doc : Table} {config : Config}
    (hnode : disk.node path = .regular (encode s)) (htext : reader.toml s = .ok doc)
    (hdoc : reader.fromTable doc = .ok config) :
    Removable reader disk path key ↔
      (doc.tables "abbr".toList).isSome ∨ ∀ rule ∈ config.abbr, rule.key ≠ key := by
  refine ⟨fun h => h s doc config hnode htext hdoc, fun h t doc' config' hnode' htext' hdoc' => ?_⟩
  obtain rfl : t = s := encode_inj.mp (Node.regular.inj (hnode'.symm.trans hnode))
  obtain rfl : doc' = doc := Except.ok.inj (htext'.symm.trans htext)
  obtain rfl : config' = config := Except.ok.inj (hdoc'.symm.trans hdoc)
  exact h

/-- Nothing is removed where the editor finds no tables: right only if no rule has the key. -/
theorem removesExactly_iff_of_hidden {doc : Table} {config : Config}
    (hload : Loads engine reader disk path config) (hdoc : reader.fromTable doc = .ok config)
    (hhidden : doc.arrayOfTables "abbr".toList = none) (hsame : disk'.node = disk.node) :
    RemovesExactly engine reader disk disk' path key 0 ↔
      (doc.tables "abbr".toList).isSome ∨ ∀ rule ∈ config.abbr, rule.key ≠ key := by
  constructor
  · intro hexact
    have hcount := (hexact config hload).2.1.symm
    exact Or.inr fun rule hmem => by simpa using List.countP_eq_zero.mp hcount rule hmem
  · intro hor
    refine removesExactly_zero hload hsame ?_
    rcases hor with hsome | hkey
    · obtain ⟨tables, hsome⟩ := Option.isSome_iff_exists.mp hsome
      rcases Table.tables_eq_some.mp hsome with ⟨hget, -⟩ | hget
      · have habbr := (ConfigReader.fromTable_eq_ok.mp hdoc).2.2.2
        rw [hget] at habbr
        simp [← Except.ok.inj habbr]
      · rw [Table.arrayOfTables_eq_some.mpr hget] at hhidden
        cases hhidden
    · exact hkey

/-- The rules are removed where the editor finds the tables. -/
theorem removesExactly_of_tables (heditor : editor.Lawful reader.toml) (hkeys : reader.ReadsKeys)
    {s : Text} {doc : Table} {document : editor.Document} {config : Config}
    {texts : List editor.TableText} {n : ℕ} (hload : Loads engine reader disk path config)
    (hsize : byteLen s ≤ maxConfigFileBytes) (haccepted : Accepted engine config)
    (htext : reader.toml s = .ok doc) (hdoc : reader.fromTable doc = .ok config)
    (hparse : editor.parse s = some document)
    (hedit : editor.arrayOfTables document "abbr".toList = some texts)
    (htables : doc.tables "abbr".toList = some (texts.map editor.entries))
    (hn : n = texts.length - (removeLoop editor key texts 0).length)
    (hzero : n = 0 → disk'.node = disk.node)
    (hrewritten : n ≠ 0 → disk'.node path = .regular (encode (editor.print
      (editor.setTables document "abbr".toList (removeLoop editor key texts 0))))) :
    RemovesExactly engine reader disk disk' path key n := by
  have habbr := (ConfigReader.fromTable_eq_ok.mp hdoc).2.2.2
  rw [ConfigReader.rules_of_tables htables] at habbr
  obtain ⟨hkept, hcount⟩ := rules_of_kept key hkeys habbr
  rw [hcount] at hn
  intro config' hload'
  obtain rfl : config = config' := Except.ok.inj (hload.symm.trans hload')
  refine ⟨?_, hn, hzero⟩
  by_cases hnone : n = 0
  · have hkey : ∀ rule ∈ config.abbr, rule.key ≠ key := fun rule hmem => by
      simpa using List.countP_eq_zero.mp (hn.symm.trans hnone) rule hmem
    exact (removesExactly_zero hload (hzero hnone) hkey config hload).1
  · have hne : removeLoop editor key texts 0 ≠ texts := by
      intro heq
      rw [heq, Nat.sub_self] at hcount
      exact hnone (hn.trans hcount.symm)
    have hsublist : (removeLoop editor key texts 0).Sublist texts := by
      rw [removeLoop_zero]
      exact List.filter_sublist
    exact loads_without heditor hsize haccepted htext hdoc hparse hedit hsublist hne hkept
      (hrewritten hnone)

/-- When the rules with the key are removed. -/
theorem removesExactly_iff_removable (heditor : editor.Lawful reader.toml) (hkeys : reader.ReadsKeys)
    {n : ℕ}
    (h : exec (removeAbbrFromFile engine reader editor path key) faults disk = (.ok n, disk')) :
    RemovesExactly engine reader disk disk' path key n ↔ Removable reader disk path key := by
  obtain ⟨s, config, document, hnode, hsize, hread, haccepted, hparse, hrun⟩ :=
    removeAbbrFromFile_eq_ok h
  have hload : Loads engine reader disk path config :=
    loads_iff.mpr ⟨s, hnode, hsize, hread, haccepted⟩
  obtain ⟨doc, htext, hdoc⟩ := ConfigReader.fromStr_eq_ok.mp hread
  obtain ⟨document', hparse', htables⟩ := heditor.agree htext
  obtain rfl : document = document' := Option.some.inj (hparse.symm.trans hparse')
  have htables := htables "abbr".toList
  rw [removable_iff hnode htext hdoc]
  cases hedit : editor.arrayOfTables document "abbr".toList with
  | none =>
    rw [hedit] at hrun htables
    obtain ⟨rfl, hsame⟩ := hrun
    exact removesExactly_iff_of_hidden hload hdoc htables.symm hsame
  | some texts =>
    rw [hedit] at hrun htables
    obtain ⟨hn, hzero, hrewritten⟩ := hrun
    have hsome : doc.tables "abbr".toList = some (texts.map editor.entries) :=
      Table.tables_eq_some.mpr (Or.inr (Table.arrayOfTables_eq_some.mp htables.symm))
    have hexact := removesExactly_of_tables heditor hkeys hload hsize haccepted htext hdoc hparse
      hedit hsome hn hzero hrewritten
    exact iff_of_true hexact (Or.inl (by rw [hsome]; rfl))

/-- When a `remove` that returns has removed the rules with the key and nothing else, and what a
    `remove` that fails leaves. -/
theorem remove_exact_iff (engine : RegexLite) (reader : ConfigReader) (editor : Editor)
    (heditor : editor.Lawful reader.toml) (hkeys : reader.ReadsKeys) (path : Path) (key : Text)
    (faults : Faults) (disk disk' : Disk) :
    (∀ n, exec (removeAbbrFromFile engine reader editor path key) faults disk = (.ok n, disk') →
      (RemovesExactly engine reader disk disk' path key n ↔ Removable reader disk path key)) ∧
    ∀ e, exec (removeAbbrFromFile engine reader editor path key) faults disk = (.error e, disk') →
      disk'.node path = disk.node path :=
  ⟨fun _ h => removesExactly_iff_removable heditor hkeys h,
    fun e h =>
      keepsOnError_removeAbbrFromFile engine reader editor path key faults disk e disk' h⟩

/-- `runex remove` on a file. -/
def removeFromFile (contents key : Text) : Except ConfigError ℕ × Disk :=
  exec (removeAbbrFromFile default plainReader Lines.editor configPath key) noFaults
    (oneFile contents)

def twoTables : Text :=
  "version = 1\n[[abbr]]\nkey = \"x\"\nexpand = \"y\"\n\n[[abbr]]\nkey = \"xx\"\nexpand = \"y\"\n".toList

theorem remove_exact_iff_twoTables :
    RemovesExactly default plainReader (oneFile twoTables) (removeFromFile twoTables "x".toList).2
      configPath "x".toList 1 := by
  have hrun : removeFromFile twoTables "x".toList =
      (.ok 1, (removeFromFile twoTables "x".toList).2) := Prod.ext (by decide +kernel) rfl
  refine ((remove_exact_iff default plainReader Lines.editor Lines.editor_lawful
    plainReader_readsKeys configPath "x".toList noFaults _ _).1 1 hrun).mpr
      fun s doc config hs hdoc _ => Or.inl ?_
  rw [oneFile_eq hs] at hdoc
  obtain rfl := Except.ok.inj hdoc
  decide +kernel

/-- An inline array of rules is loaded, and the editor does not see it. -/
def inlineArray : Text := "version = 1\nabbr = [\x7b key = \"x\", expand = \"y\" \x7d]\n".toList

def inlineDoc : Table :=
  [("version".toList, .integer 1), ("abbr".toList, .array [.table
    [("key".toList, .string "x".toList), ("expand".toList, .string "y".toList)]])]

theorem remove_leaves_rule :
    ¬ ∀ (engine : RegexLite) (reader : ConfigReader) (editor : Editor), editor.Lawful reader.toml →
      reader.ReadsKeys →
      ∀ (path : Path) (key : Text) (faults : Faults) (disk disk' : Disk) (n : ℕ),
        exec (removeAbbrFromFile engine reader editor path key) faults disk = (.ok n, disk') →
        RemovesExactly engine reader disk disk' path key n := by
  intro h
  have hrun : removeFromFile inlineArray "x".toList =
      (.ok 0, (removeFromFile inlineArray "x".toList).2) := Prod.ext (by decide +kernel) rfl
  have hexact := h default plainReader Lines.editor Lines.editor_lawful plainReader_readsKeys
    _ _ _ _ _ _ hrun
  have hremovable := (removesExactly_iff_removable Lines.editor_lawful plainReader_readsKeys
    hrun).mp hexact
  have hdoc : Lines.parse inlineArray = .ok inlineDoc := rfl
  have hconfig : plainReader.fromTable inlineDoc =
      .ok { version := 1, abbr := [newRule "x".toList "y".toList none] } := by decide +kernel
  rcases hremovable inlineArray inlineDoc _ rfl hdoc hconfig with hsome | hnone
  · revert hsome
    decide +kernel
  · exact hnone _ (List.mem_singleton_self _) rfl

end Runex
