import Runex.Lib.Toml

/-!
# Places in a TOML document

A place is where one gets by keys of tables and indices of arrays. What stands there can be
replaced. An array of tables that is changed so is an inline array: a reader of values does not tell
them apart.

## Main definitions

- `Toml.Table.put` — set or remove a key
- `Toml.follow`, `Toml.replaceAt` — the value at a place, and another value there

## Main results

- `Toml.replaceAt_append` — a replacement inside a replaced value
-/

namespace Toml

/-- The table with another value of a key, or without the key. -/
def Table.put (table : Table) (name : Text) (value : Option Item) : Table :=
  (value.toList.map fun item => (name, item)) ++ table.filter (·.1 ≠ name)

@[simp] theorem Table.get_put_self (table : Table) (name : Text) (value : Option Item) :
    (table.put name value).get name = value := by
  cases value with
  | none =>
    rw [Table.get, List.lookup_eq_none_iff]
    intro entry hentry
    have hne : entry.1 ≠ name := of_decide_eq_true (List.mem_filter.mp hentry).2
    exact bne_iff_ne.mpr hne.symm
  | some item => exact Table.get_cons_self name item _

theorem Table.get_put_of_ne {name other : Text} (h : other ≠ name) (table : Table)
    (value : Option Item) : (table.put name value).get other = table.get other := by
  cases value with
  | none => exact Table.get_filter h table
  | some item => exact Table.get_cons_filter h item table

inductive Step where
  | key (name : Text)
  | index (i : ℕ)
  deriving DecidableEq

def Item.child : Step → Item → Option Item
  | .key name, .table entries => Table.get entries name
  | .key _, _ => none
  | .index i, item => item.elements.bind (·[i]?)

/-- Another value of a key or at an index. -/
def Item.setChild (step : Step) (item new : Item) : Item :=
  match step, item with
  | .key name, .table entries => .table (Table.put entries name (some new))
  | .key _, item => item
  | .index i, item =>
    match item.elements with
    | some items => .array (items.set i new)
    | none => item

/-- The value at a place. -/
def follow : List Step → Item → Option Item
  | [], item => some item
  | step :: path, item => (item.child step).bind (follow path)

/-- Another value at a place. Where there is no such place nothing changes. -/
def replaceAt : List Step → Item → Item → Item
  | [], new, _ => new
  | step :: path, new, item =>
    match item.child step with
    | some child => item.setChild step (replaceAt path new child)
    | none => item

theorem follow_append (path inner : List Step) (item : Item) :
    follow (path ++ inner) item = (follow path item).bind (follow inner) := by
  induction path generalizing item with
  | nil => rfl
  | cons step path ih =>
    rw [List.cons_append, follow, follow, Option.bind_assoc]
    exact Option.bind_congr fun child _ => ih child

/-- What is replaced inside the value at a place is replaced in all. -/
theorem replaceAt_append {path : List Step} {item found : Item} (h : follow path item = some found)
    (inner : List Step) (new : Item) :
    replaceAt (path ++ inner) new item = replaceAt path (replaceAt inner new found) item := by
  induction path generalizing item with
  | nil =>
    obtain rfl := Option.some.inj h
    rfl
  | cons step path ih =>
    obtain ⟨child, hchild, hfound⟩ := Option.bind_eq_some_iff.mp h
    rw [List.cons_append, replaceAt, replaceAt, hchild]
    simp only [ih hfound]

/-- A key is followed in a table only. -/
theorem follow_key_eq_some {name : Text} {item found : Item} :
    follow [.key name] item = some found ↔
      ∃ table : Table, item = .table table ∧ table.get name = some found := by
  cases item <;> simp [follow, Item.child]

/-- Two keys are followed through a table inside a table. -/
theorem follow_keys_eq_some {name inner : Text} {table : Table} {found : Item} :
    follow [.key name, .key inner] (.table table) = some found ↔
      ∃ sub : Table, table.get name = some (.table sub) ∧ sub.get inner = some found := by
  have hpath : ([.key name, .key inner] : List Step) = [.key name] ++ [.key inner] := rfl
  rw [hpath, follow_append, Option.bind_eq_some_iff]
  simp only [follow_key_eq_some, Item.table.injEq, exists_eq_left']
  constructor
  · rintro ⟨_, hsub, sub, rfl, hfound⟩
    exact ⟨sub, hsub, hfound⟩
  · rintro ⟨sub, hsub, hfound⟩
    exact ⟨.table sub, hsub, sub, rfl, hfound⟩

theorem follow_index_eq_some {i : ℕ} {item found : Item} :
    follow [.index i] item = some found ↔
      ∃ items, item.elements = some items ∧ items[i]? = some found := by
  simp only [follow, Item.child, Option.bind_eq_some_iff, Option.some.injEq]
  constructor
  · rintro ⟨_, ⟨items, hitems, hget⟩, rfl⟩
    exact ⟨items, hitems, hget⟩
  · rintro ⟨items, hitems, hget⟩
    exact ⟨found, ⟨items, hitems, hget⟩, rfl⟩

theorem replaceAt_key {name : Text} {table : Table} {found : Item}
    (h : table.get name = some found) (new : Item) :
    replaceAt [.key name] new (.table table) = .table (table.put name (some new)) := by
  simp only [replaceAt, Item.child, h, Item.setChild]

theorem replaceAt_index {i : ℕ} {item found : Item} {items : List Item}
    (hitems : item.elements = some items) (h : items[i]? = some found) (new : Item) :
    replaceAt [.index i] new item = .array (items.set i new) := by
  simp only [replaceAt, Item.child, hitems, Option.bind_some, h, Item.setChild]

end Toml
