import Runex.Lib.Search
import Runex.Lib.Text

/-!
# TOML documents

The data of a TOML document, and the part of the notation that a program writing key/value lines
needs: basic strings and arrays of them. A reader and an editor of whole documents are parameters,
with what TOML says of them as laws.

## Main definitions

- `Toml.Item`, `Toml.Table` — values and tables; an array of tables is told from an inline array
- `Toml.readLine` — `key = value` for the values above
- `Toml.ReadsBlocks` — a reader puts a `[[name]]` block at the end where TOML puts it
- `Toml.Editor`, `Toml.Editor.Lawful` — an editor that keeps the text of what it does not remove

## Main results

- `Toml.readLine_quoted`, `Toml.readLine_quotedArray` — quoted values are read back
-/

namespace Toml

open Search

/-- A value, or what a table header stands for. -/
inductive Item where
  | string (s : Text)
  | integer (n : ℤ)
  | float (literal : Text)
  | boolean (b : Bool)
  | datetime (literal : Text)
  /-- `[a, b]`. -/
  | array (items : List Item)
  /-- A table in any form: inline, with a header, or from dotted keys. -/
  | table (entries : List (Text × Item))
  /-- `[[name]]`, once for each table. -/
  | arrayOfTables (tables : List (List (Text × Item)))

abbrev Table := List (Text × Item)

def Table.get (table : Table) (name : Text) : Option Item := table.lookup name

/-- The elements of an array, in either form. -/
def Item.elements : Item → Option (List Item)
  | .array items => some items
  | .arrayOfTables tables => some (tables.map .table)
  | _ => none

/-- The tables `[[name]]`, where the name has such. -/
def Table.arrayOfTables (doc : Table) (name : Text) : Option (List Table) :=
  match doc.get name with
  | some (.arrayOfTables tables) => some tables
  | _ => none

/-- The tables `[[name]]`: none of them where the name is free, and `none` where it is taken by
    something else. -/
def Table.tables (doc : Table) (name : Text) : Option (List Table) :=
  if (doc.get name).isNone then some [] else doc.arrayOfTables name

theorem Table.arrayOfTables_eq_some {doc : Table} {name : Text} {tables : List Table} :
    doc.arrayOfTables name = some tables ↔ doc.get name = some (.arrayOfTables tables) := by
  unfold Table.arrayOfTables
  cases doc.get name with
  | none => simp
  | some item => cases item <;> simp

theorem Table.tables_eq_some {doc : Table} {name : Text} {tables : List Table} :
    doc.tables name = some tables ↔
      (doc.get name = none ∧ tables = []) ∨ doc.get name = some (.arrayOfTables tables) := by
  unfold Table.tables
  cases hget : doc.get name with
  | none => simp [eq_comm]
  | some item => simp [arrayOfTables_eq_some, hget]

theorem Table.get_cons_self (name : Text) (item : Item) (doc : Table) :
    Table.get ((name, item) :: doc) name = some item := by
  simp [Table.get]

theorem Table.get_filter {name other : Text} (h : other ≠ name) (doc : Table) :
    Table.get (doc.filter (·.1 ≠ name)) other = doc.get other := by
  unfold Table.get
  induction doc with
  | nil => rfl
  | cons entry doc ih =>
    obtain ⟨entryName, entryItem⟩ := entry
    by_cases hname : entryName = name
    · have hother : (other == entryName) = false := by simpa [hname] using h
      rw [List.filter_cons_of_neg (by simpa using hname), List.lookup_cons, hother]
      exact ih
    · rw [List.filter_cons_of_pos (by simpa using hname), List.lookup_cons, List.lookup_cons, ih]

theorem Table.get_cons_filter {name other : Text} (h : other ≠ name) (item : Item) (doc : Table) :
    Table.get ((name, item) :: doc.filter (·.1 ≠ name)) other = doc.get other := by
  have hne : (other == name) = false := by simpa using h
  rw [← Table.get_filter h doc, Table.get, List.lookup_cons, hne]
  rfl

/-- What TOML does not let stand in a basic string. -/
def isControl (c : Char) : Bool := (c.toNat < 0x20 && c != '\t') || c.toNat == 0x7F

/-- The value of a basic string after its opening quote, and the text after it. Of the escapes only
    those of the quote and the backslash are read. -/
def readBasic : Text → Option (Text × Text)
  | [] => none
  | '"' :: s => some ([], s)
  | '\\' :: c :: s =>
    if c = '"' ∨ c = '\\' then (readBasic s).map fun (value, rest) => (c :: value, rest) else none
  | c :: s =>
    if isControl c then none else (readBasic s).map fun (value, rest) => (c :: value, rest)

def readString (s : Text) : Option (Text × Text) :=
  match s with
  | '"' :: s => readBasic s
  | _ => none

/-- The strings of an array up to its closing bracket, at most `fuel` of them. -/
def readStrings : ℕ → Text → Option (List Text)
  | 0, _ => none
  | fuel + 1, s => do
    let (value, rest) ← readString s
    if rest = [']'] then some [value]
    else do
      let rest ← stripPrefix? ", ".toList rest
      let values ← readStrings fuel rest
      some (value :: values)

def readArray (s : Text) : Option (List Text) :=
  if s = [']'] then some [] else readStrings s.length s

/-- A basic string, an array of them, or a decimal number. -/
def readValue (s : Text) : Option Item :=
  match s with
  | '"' :: s => (readBasic s).bind fun (value, rest) => if rest = [] then some (.string value) else none
  | '[' :: s => (readArray s).map fun values => .array (values.map .string)
  | s =>
    if s ≠ [] ∧ s.all Text.isAsciiDigit then
      some (.integer (s.foldl (fun n c => 10 * n + (c.toNat - '0'.toNat)) 0 : ℕ))
    else none

/-- The characters of a bare key. -/
def isBare (c : Char) : Bool := c.isAlphanum || c == '_' || c == '-'

def IsBareKey (name : Text) : Prop := name ≠ [] ∧ ∀ c ∈ name, isBare c = true

instance (name : Text) : Decidable (IsBareKey name) := inferInstanceAs (Decidable (_ ∧ _))

/-- `key = value`. -/
def readLine (line : Text) : Option (Text × Item) := do
  let (before, after) ← splitOnce ['='] line
  let key ← stripSuffix? [' '] before
  let value ← stripPrefix? [' '] after
  if IsBareKey key then do
    let item ← readValue value
    some (key, item)
  else none

def escape (c : Char) : Text := if c = '"' ∨ c = '\\' then ['\\', c] else [c]

/-- A basic string. -/
def quoted (s : Text) : Text := '"' :: (s.flatMap escape ++ ['"'])

/-- An array of basic strings. -/
def quotedArray (values : List Text) : Text :=
  '[' :: (", ".toList.intercalate (values.map quoted) ++ [']'])

theorem newline_not_mem_quoted {s : Text} (h : ∀ c ∈ s, isControl c = false) : '\n' ∉ quoted s := by
  simp only [quoted, List.mem_cons, List.mem_append, List.mem_flatMap, List.not_mem_nil, or_false]
  rintro (heq | ⟨c, hc, hmem⟩ | heq)
  · exact absurd heq (by decide)
  · have hc := h c hc
    unfold escape at hmem
    split at hmem
    · rcases List.mem_cons.mp hmem with heq | hmem
      · exact absurd heq (by decide)
      · obtain rfl := List.mem_singleton.mp hmem
        exact absurd hc (by decide)
    · obtain rfl := List.mem_singleton.mp hmem
      exact absurd hc (by decide)
  · exact absurd heq (by decide)

theorem newline_not_mem_quotedArray {values : List Text}
    (h : ∀ s ∈ values, ∀ c ∈ s, isControl c = false) : '\n' ∉ quotedArray values := by
  simp only [quotedArray, List.mem_cons, List.mem_append, List.not_mem_nil, or_false]
  rintro (heq | hmem | heq)
  · exact absurd heq (by decide)
  · rcases mem_of_mem_intercalate hmem with hmem | ⟨piece, hpiece, hmem⟩
    · exact absurd hmem (by decide)
    · obtain ⟨s, hs, rfl⟩ := List.mem_map.mp hpiece
      exact newline_not_mem_quoted (h s hs) hmem
  · exact absurd heq (by decide)

theorem readBasic_cons {c : Char} (hquote : c ≠ '"') (hslash : c ≠ '\\')
    (hcontrol : isControl c = false) (s : Text) :
    readBasic (c :: s) = (readBasic s).map fun (value, rest) => (c :: value, rest) := by
  rw [readBasic]
  · simp [hcontrol]
  · simpa using hquote
  · intro d t hc
    exact absurd hc hslash

theorem readBasic_escaped {s : Text} (h : ∀ c ∈ s, isControl c = false) (rest : Text) :
    readBasic (s.flatMap escape ++ '"' :: rest) = some (s, rest) := by
  induction s with
  | nil => rfl
  | cons c s ih =>
    have ih := ih fun d hd => h d (by simp [hd])
    rw [List.flatMap_cons, List.append_assoc]
    by_cases hescape : c = '"' ∨ c = '\\'
    · rw [escape, if_pos hescape, List.cons_append, List.singleton_append, readBasic, if_pos hescape,
        ih]
      rfl
    · rw [escape, if_neg hescape, List.singleton_append]
      rw [not_or] at hescape
      rw [readBasic_cons hescape.1 hescape.2 (h c (by simp)), ih]
      rfl

theorem readString_quoted {s : Text} (h : ∀ c ∈ s, isControl c = false) (rest : Text) :
    readString (quoted s ++ rest) = some (s, rest) := by
  rw [quoted, List.cons_append, List.append_assoc, List.singleton_append]
  exact readBasic_escaped h rest

theorem length_le_length_intercalate {α : Type} (sep : Text) {items : List α} {f : α → Text}
    (h : ∀ a ∈ items, f a ≠ []) : items.length ≤ (sep.intercalate (items.map f)).length := by
  induction items with
  | nil => simp
  | cons a items ih =>
    have ha := List.length_pos_iff.mpr (h a (by simp))
    have hrest := ih fun b hb => h b (by simp [hb])
    cases items with
    | nil => exact Nat.succ_le_of_lt (by simpa using ha)
    | cons b items =>
      simp only [List.map_cons, List.intercalate_cons_cons, List.length_append,
        List.length_cons] at hrest ⊢
      omega

theorem readStrings_quoted {values : List Text} (hne : values ≠ [])
    (h : ∀ s ∈ values, ∀ c ∈ s, isControl c = false) {fuel : ℕ} (hfuel : values.length ≤ fuel) :
    readStrings fuel (", ".toList.intercalate (values.map quoted) ++ [']']) = some values := by
  induction values generalizing fuel with
  | nil => exact absurd rfl hne
  | cons s values ih =>
    obtain ⟨fuel, rfl⟩ : ∃ k, fuel = k + 1 :=
      Nat.exists_eq_add_one.mpr (Nat.lt_of_lt_of_le (by simp) hfuel)
    have hs := h s (by simp)
    cases values with
    | nil =>
      simp only [List.map_cons, List.map_nil, List.intercalate_singleton, readStrings,
        readString_quoted hs]
      rfl
    | cons t values =>
      have ih := ih (by simp) (fun u hu => h u (by simp_all)) (Nat.le_of_succ_le_succ hfuel)
      simp only [List.map_cons, List.intercalate_cons_cons, List.append_assoc, readStrings,
        readString_quoted hs, stripPrefix?_append, Option.bind_eq_bind, Option.bind_some] at ih ⊢
      have hopen : ", ".toList ++ (", ".toList.intercalate (quoted t :: values.map quoted) ++ [']']) ≠
          [']'] := by
        rw [show ", ".toList = [',', ' '] from by decide]
        simp
      rw [ih, if_neg hopen]
      rfl

/-- `key = value`. -/
def line (key value : Text) : Text := key ++ ([' '] ++ '=' :: ([' '] ++ value))

theorem IsBareKey.equals_not_mem {key : Text} (h : IsBareKey key) : '=' ∉ key := fun hmem =>
  absurd (h.2 _ hmem) (by decide)

theorem newline_not_mem_line {key value : Text} (hkey : IsBareKey key) (hvalue : '\n' ∉ value) :
    '\n' ∉ line key value := by
  have hname : '\n' ∉ key := fun hmem => absurd (hkey.2 _ hmem) (by decide)
  simp [line, hname, hvalue]

theorem readLine_line {key value : Text} (hkey : IsBareKey key) {item : Item}
    (hvalue : readValue value = some item) : readLine (line key value) = some (key, item) := by
  have hsplit : splitOnce ['='] (line key value) = some (key ++ [' '], [' '] ++ value) := by
    refine splitOnce_singleton_eq_some.mpr ⟨by rw [line, List.append_assoc], ?_⟩
    simp [hkey.equals_not_mem]
  simp only [readLine, hsplit, stripSuffix?_append, stripPrefix?_append, Option.bind_eq_bind,
    Option.bind_some, if_pos hkey, hvalue]

theorem readLine_quoted {key s : Text} (hkey : IsBareKey key) (h : ∀ c ∈ s, isControl c = false) :
    readLine (line key (quoted s)) = some (key, .string s) := by
  refine readLine_line hkey ?_
  have hread := readBasic_escaped h []
  rw [quoted, readValue, hread]
  rfl

theorem readLine_quotedArray {key : Text} (hkey : IsBareKey key) {values : List Text}
    (h : ∀ s ∈ values, ∀ c ∈ s, isControl c = false) :
    readLine (line key (quotedArray values)) = some (key, .array (values.map .string)) := by
  refine readLine_line hkey ?_
  have hread : readArray (", ".toList.intercalate (values.map quoted) ++ [']']) = some values := by
    cases values with
    | nil => rfl
    | cons t values =>
      have hlength : (t :: values).length ≤ (", ".toList.intercalate ((t :: values).map quoted)).length :=
        length_le_length_intercalate _ fun u _ => by simp [quoted]
      have hopen : ", ".toList.intercalate ((t :: values).map quoted) ++ [']'] ≠ [']'] := by
        intro h
        have hnil := congrArg List.length h
        simp only [List.length_append, List.length_cons, List.length_nil] at hnil hlength
        omega
      have hfuel : (t :: values).length ≤
          (", ".toList.intercalate ((t :: values).map quoted) ++ [']']).length := by
        rw [List.length_append]
        exact Nat.le_add_right_of_le hlength
      rw [readArray, if_neg hopen, readStrings_quoted (by simp) h hfuel]
  rw [quotedArray, readValue, hread]
  rfl

/-- A table at the end of a document, after a line break of its own. -/
def block (name : Text) (lines : List Text) : Text :=
  "\n[[".toList ++ (name ++ ("]]\n".toList ++ lines.flatMap (· ++ ['\n'])))

/-- What TOML says of a document with one more `[[name]]` block at its end: the table is the last
    one of that name and nothing else changes, unless the name is taken by something else. -/
structure ReadsBlocks (parse : Text → Except Text Table) : Prop where
  push : ∀ {text doc name lines entries tables}, parse text = .ok doc → IsBareKey name →
    (∀ line ∈ lines, '\n' ∉ line) → lines.mapM readLine = some entries →
    (entries.map Prod.fst).Nodup → doc.tables name = some tables →
    ∃ doc', parse (text ++ block name lines) = .ok doc' ∧
      doc'.tables name = some (tables ++ [entries]) ∧
      ∀ other, other ≠ name → doc'.get other = doc.get other
  clash : ∀ {text doc name lines}, parse text = .ok doc → IsBareKey name →
    doc.tables name = none → ∃ message, parse (text ++ block name lines) = .error message

/-- An editor of documents that keeps how they are written. -/
structure Editor where
  Document : Type
  /-- A table with the text it was read from. -/
  TableText : Type
  parse : Text → Option Document
  /-- The tables `[[name]]`, where the name has such. -/
  arrayOfTables : Document → Text → Option (List TableText)
  setTables : Document → Text → List TableText → Document
  entries : TableText → Table
  print : Document → Text

/-- The editor reads the documents a reader reads, with the same data; what it prints after tables
    are removed reads as the data without them, and is not longer than what was read. -/
structure Editor.Lawful (editor : Editor) (parse : Text → Except Text Table) : Prop where
  agree : ∀ {text doc}, parse text = .ok doc → ∃ document, editor.parse text = some document ∧
    ∀ name, (editor.arrayOfTables document name).map (·.map editor.entries) = doc.arrayOfTables name
  remove : ∀ {text doc document name texts kept}, parse text = .ok doc →
    editor.parse text = some document → editor.arrayOfTables document name = some texts →
    kept.Sublist texts → kept ≠ texts →
    let printed := editor.print (editor.setTables document name kept)
    (∃ doc', parse printed = .ok doc' ∧ doc'.tables name = some (kept.map editor.entries) ∧
      ∀ other, other ≠ name → doc'.get other = doc.get other) ∧
    Text.byteLen printed ≤ Text.byteLen text

end Toml
