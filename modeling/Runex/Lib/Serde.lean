import Mathlib.Algebra.Group.Int.Defs
import Runex.Lib.Toml.Path

/-!
# Readers derived from struct definitions

A reader that is derived for a struct takes the fields from a table by their names and from an array
by their places. A key that names no field is ignored. A reader that is built so reads what stands
at a place of the document by the reader of the field there, so that what a document loses without
notice can be told from the definitions of the structs.

## Main definitions

- `Serde.Source`, `Serde.struct` — where the fields of a struct come from
- `Serde.Reads` — a reader of a document reads a place by another reader
- `Serde.HasFields` — the keys a reader of a table takes notice of
- `Serde.ReadsPlace` — a reader of an array reads an element by another reader
- `Serde.Ignores` — nothing under a key of a table makes a difference

## Main results

- `Serde.Reads.append` — places inside places
- `Serde.ignores_iff` — the ignored keys are those that name no field
-/

namespace Serde

open Toml

variable {α β γ : Type}

-- ════════════════════════════════════════════════════════════════════════
-- Values
-- ════════════════════════════════════════════════════════════════════════

def string : Item → Option Text
  | .string s => some s
  | _ => none

theorem string_eq_some {item : Item} {s : Text} : string item = some s ↔ item = .string s := by
  cases item <;> simp [string]

def boolean : Item → Option Bool
  | .boolean b => some b
  | _ => none

/-- An unsigned integer of `bits` bits. -/
def unsigned (bits : ℕ) : Item → Option ℕ
  | .integer n => if 0 ≤ n ∧ n < 2 ^ bits then some n.toNat else none
  | _ => none

/-- A sequence, in either form of an array. -/
def seqOf (read : Item → Option α) (item : Item) : Option (List α) :=
  item.elements.bind fun items => items.mapM read

/-- An enumeration of units. A unit is written as its name, or as a table that `unit` reads. -/
def enumeration (unit : Table → Option Text) (names : List (Text × α)) : Item → Option α
  | .string s => names.lookup s
  | .table entries => (unit entries).bind fun name => names.lookup name
  | _ => none

-- ════════════════════════════════════════════════════════════════════════
-- Structs
-- ════════════════════════════════════════════════════════════════════════

/-- Where the fields of a struct come from. -/
inductive Source where
  | named (table : Table)
  | placed (items : List Item)

/-- A date shows itself as a map without fields. -/
def asMap : Item → Option Table
  | .table entries => some entries
  | .datetime _ => some []
  | _ => none

def sourceOf (item : Item) : Option Source :=
  match asMap item with
  | some table => some (.named table)
  | none => item.elements.map .placed

/-- A struct, from a map or a sequence. -/
def struct (body : Source → Option α) (item : Item) : Option α := (sourceOf item).bind body

/-- A struct that is a variant of an untagged enumeration comes from a map only. -/
def mapStruct (body : Source → Option α) (item : Item) : Option α :=
  (asMap item).bind fun table => body (.named table)

/-- The value of a field. -/
def Source.value (source : Source) (name : Text) (place : ℕ) : Option Item :=
  match source with
  | .named table => table.get name
  | .placed items => items[place]?

def required (read : Item → Option α) (source : Source) (name : Text) (place : ℕ) : Option α :=
  (source.value name place).bind read

def withDefault (default : α) (read : Item → Option α) (source : Source) (name : Text)
    (place : ℕ) : Option α :=
  match source.value name place with
  | some item => read item
  | none => some default

/-- An optional field with a default. -/
def optionalDefault (read : Item → Option α) (source : Source) (name : Text) (place : ℕ) :
    Option (Option α) :=
  withDefault none (fun item => (read item).map some) source name place

/-- An optional field without a default may be absent from a map, not from a sequence. -/
def optionalField (read : Item → Option α) (source : Source) (name : Text) (place : ℕ) :
    Option (Option α) :=
  match source with
  | .named _ => optionalDefault read source name place
  | .placed _ => required (fun item => (read item).map some) source name place

-- ════════════════════════════════════════════════════════════════════════
-- Places
-- ════════════════════════════════════════════════════════════════════════

/-- What a reader of a document makes of a place is what `part` makes of it: a value that `part`
    reads alike is no different, and one that `part` refuses is refused. -/
structure Reads (whole : Item → Option α) (path : List Step) (part : Item → Option β) : Prop where
  congr : ∀ {item old new}, follow path item = some old → part new = part old →
    whole (replaceAt path new item) = whole item
  fails : ∀ {item old new}, follow path item = some old → part new = none →
    whole (replaceAt path new item) = none

theorem Reads.nil (read : Item → Option α) : Reads read [] read where
  congr h heq := by
    obtain rfl := Option.some.inj h
    exact heq
  fails _ hnone := hnone

/-- A place inside a place. -/
theorem Reads.append {whole : Item → Option α} {middle : Item → Option β} {part : Item → Option γ}
    {path inner : List Step} (houter : Reads whole path middle) (hinner : Reads middle inner part) :
    Reads whole (path ++ inner) part where
  congr {item old new} h heq := by
    rw [follow_append] at h
    obtain ⟨found, hfound, hold⟩ := Option.bind_eq_some_iff.mp h
    rw [replaceAt_append hfound]
    exact houter.congr hfound (hinner.congr hold heq)
  fails {item old new} h hnone := by
    rw [follow_append] at h
    obtain ⟨found, hfound, hold⟩ := Option.bind_eq_some_iff.mp h
    rw [replaceAt_append hfound]
    exact houter.fails hfound (hinner.fails hold hnone)

theorem mapM_set_congr {read : Item → Option α} {items : List Item} {i : ℕ} {old new : Item}
    (h : items[i]? = some old) (heq : read new = read old) :
    (items.set i new).mapM read = items.mapM read := by
  induction items generalizing i with
  | nil => rfl
  | cons item items ih =>
    cases i with
    | zero =>
      obtain rfl := Option.some.inj h
      rw [List.set_cons_zero, List.mapM_cons, List.mapM_cons, heq]
    | succ i => rw [List.set_cons_succ, List.mapM_cons, List.mapM_cons, ih h]

theorem mapM_set_fails {read : Item → Option α} {items : List Item} {i : ℕ} {old new : Item}
    (h : items[i]? = some old) (hnone : read new = none) : (items.set i new).mapM read = none := by
  induction items generalizing i with
  | nil => cases h
  | cons item items ih =>
    cases i with
    | zero =>
      rw [List.set_cons_zero, List.mapM_cons, hnone]
      rfl
    | succ i =>
      rw [List.set_cons_succ, List.mapM_cons, ih h]
      cases read item with
      | none => rfl
      | some a => rfl

theorem reads_seqOf (read : Item → Option α) (i : ℕ) : Reads (seqOf read) [.index i] read where
  congr {item old new} h heq := by
    obtain ⟨items, hitems, hget⟩ := follow_index_eq_some.mp h
    rw [replaceAt_index hitems hget, seqOf, seqOf, hitems]
    exact mapM_set_congr hget heq
  fails {item old new} h hnone := by
    obtain ⟨items, hitems, hget⟩ := follow_index_eq_some.mp h
    rw [replaceAt_index hitems hget]
    exact mapM_set_fails hget hnone

-- ════════════════════════════════════════════════════════════════════════
-- Fields of tables
-- ════════════════════════════════════════════════════════════════════════

/-- What is made of a table takes notice of these keys: it does not depend on any other, and there
    is nothing if a floating-point number stands under one of them. -/
structure HasFields (take : Table → Option α) (fields : List Text) : Prop where
  ignores : ∀ {name} (table : Table) (value : Option Item), name ∉ fields →
    take (table.put name value) = take table
  refuses : ∀ {name} (table : Table) (literal : Text), name ∈ fields →
    take (table.put name (some (.float literal))) = none

/-- What is made of a table reads the value of a key by `read`. -/
structure ReadsKey (take : Table → Option α) (name : Text) (read : Item → Option β) : Prop where
  congr : ∀ {table : Table} {old new}, table.get name = some old → read new = read old →
    take (table.put name (some new)) = take table
  fails : ∀ (table : Table) {new}, read new = none → take (table.put name (some new)) = none

theorem HasFields.pure (a : α) : HasFields (fun _ => pure a) [] where
  ignores _ _ _ := rfl
  refuses _ _ h := absurd h List.not_mem_nil

section Bind

variable {first : Table → Option α} {rest : α → Table → Option β} {name : Text} {fields : List Text}
  {read : Item → Option γ}

/-- One field, then the others. -/
theorem HasFields.bind (hfirst : HasFields first [name]) (hrest : ∀ a, HasFields (rest a) fields) :
    HasFields (fun table => first table >>= fun a => rest a table) (name :: fields) where
  ignores {other} table value hother := by
    rw [List.mem_cons, not_or] at hother
    have hsame : ∀ a, rest a (table.put other value) = rest a table := fun a =>
      (hrest a).ignores table value hother.2
    simp only [hfirst.ignores table value (List.mem_singleton.not.mpr hother.1), hsame]
  refuses {other} table literal hother := by
    rcases List.mem_cons.mp hother with rfl | hmem
    · simp only [hfirst.refuses table literal (List.mem_singleton_self other)]
      rfl
    · simp only [(hrest _).refuses table literal hmem]
      exact Option.bind_fun_none _

theorem ReadsKey.head (hfirst : ReadsKey first name read) (hrest : ∀ a, HasFields (rest a) fields)
    (hname : name ∉ fields) :
    ReadsKey (fun table => first table >>= fun a => rest a table) name read where
  congr {table old new} h heq := by
    have hsame : ∀ a, rest a (table.put name (some new)) = rest a table := fun a =>
      (hrest a).ignores table (some new) hname
    simp only [hfirst.congr h heq, hsame]
  fails table {new} hnone := by
    simp only [hfirst.fails table hnone]
    rfl

theorem ReadsKey.tail {other : Text} (hfirst : HasFields first [other]) (hname : name ≠ other)
    (hrest : ∀ a, ReadsKey (rest a) name read) :
    ReadsKey (fun table => first table >>= fun a => rest a table) name read where
  congr {table old new} h heq := by
    have hsame : ∀ a, rest a (table.put name (some new)) = rest a table := fun a =>
      (hrest a).congr h heq
    simp only [hfirst.ignores table (some new) (List.mem_singleton.not.mpr hname), hsame]
  fails table {new} hnone := by
    simp only [(hrest _).fails table hnone]
    exact Option.bind_fun_none _

end Bind

section Kinds

variable {read : Item → Option α} (name : Text) (place : ℕ) (default : α)

/-- Each kind of field reads its key. -/
theorem readsKey_required (read : Item → Option α) :
    ReadsKey (fun table => required read (.named table) name place) name read where
  congr {table old new} h heq := by
    simp only [required, Source.value, Table.get_put_self, h, Option.bind_some, heq]
  fails table {new} hnone := by
    simp only [required, Source.value, Table.get_put_self, Option.bind_some, hnone]

theorem readsKey_withDefault (read : Item → Option α) :
    ReadsKey (fun table => withDefault default read (.named table) name place) name read where
  congr {table old new} h heq := by
    simp only [withDefault, Source.value, Table.get_put_self, h, heq]
  fails table {new} hnone := by
    simp only [withDefault, Source.value, Table.get_put_self, hnone]

theorem readsKey_optionalDefault (read : Item → Option α) :
    ReadsKey (fun table => optionalDefault read (.named table) name place) name read where
  congr {table old new} h heq := by
    refine (readsKey_withDefault name place none _).congr h ?_
    simp only [heq]
  fails table {new} hnone := by
    refine (readsKey_withDefault name place none _).fails table ?_
    simp only [hnone, Option.map_none]

theorem readsKey_optionalField (read : Item → Option α) :
    ReadsKey (fun table => optionalField read (.named table) name place) name read :=
  readsKey_optionalDefault name place read

theorem hasFields_required (hread : ∀ literal, read (.float literal) = none) :
    HasFields (fun table => required read (.named table) name place) [name] where
  ignores {other} table value hother := by
    have hne : name ≠ other := fun h => hother (List.mem_singleton.mpr h.symm)
    simp only [required, Source.value, Table.get_put_of_ne hne]
  refuses {other} table literal hother := by
    obtain rfl := List.mem_singleton.mp hother
    exact (readsKey_required other place read).fails table (hread literal)

theorem hasFields_withDefault (hread : ∀ literal, read (.float literal) = none) :
    HasFields (fun table => withDefault default read (.named table) name place) [name] where
  ignores {other} table value hother := by
    have hne : name ≠ other := fun h => hother (List.mem_singleton.mpr h.symm)
    simp only [withDefault, Source.value, Table.get_put_of_ne hne]
  refuses {other} table literal hother := by
    obtain rfl := List.mem_singleton.mp hother
    exact (readsKey_withDefault other place default read).fails table (hread literal)

theorem hasFields_optionalDefault (hread : ∀ literal, read (.float literal) = none) :
    HasFields (fun table => optionalDefault read (.named table) name place) [name] :=
  hasFields_withDefault name place none fun literal => by rw [hread, Option.map_none]

theorem hasFields_optionalField (hread : ∀ literal, read (.float literal) = none) :
    HasFields (fun table => optionalField read (.named table) name place) [name] :=
  hasFields_optionalDefault name place hread

end Kinds

theorem hasFields_struct {body : Source → Option α} {fields : List Text}
    (h : HasFields (fun table => body (.named table)) fields) :
    HasFields (fun table => struct body (.table table)) fields :=
  h

/-- The field of a struct. -/
theorem reads_struct {body : Source → Option α} {name : Text} {read : Item → Option β}
    (h : ReadsKey (fun table => body (.named table)) name read) :
    Reads (struct body) [.key name] read where
  congr {item old new} hold heq := by
    obtain ⟨table, rfl, hget⟩ := follow_key_eq_some.mp hold
    rw [replaceAt_key hget]
    exact h.congr hget heq
  fails {item old new} hold hnone := by
    obtain ⟨table, rfl, hget⟩ := follow_key_eq_some.mp hold
    rw [replaceAt_key hget]
    exact h.fails table hnone

-- ════════════════════════════════════════════════════════════════════════
-- Fields of arrays
-- ════════════════════════════════════════════════════════════════════════

/-- What is made of the elements of an array takes no notice of the one at `i`. -/
def IgnoresPlace (take : List Item → Option α) (i : ℕ) : Prop :=
  ∀ items new, take (items.set i new) = take items

/-- What is made of the elements of an array reads the one at `i` by `read`. -/
structure ReadsPlace (take : List Item → Option α) (i : ℕ) (read : Item → Option β) : Prop where
  congr : ∀ {items : List Item} {old new}, items[i]? = some old → read new = read old →
    take (items.set i new) = take items
  fails : ∀ {items : List Item} {old new}, items[i]? = some old → read new = none →
    take (items.set i new) = none

theorem IgnoresPlace.pure (a : α) (i : ℕ) : IgnoresPlace (fun _ => pure a) i := fun _ _ => rfl

section Bind

variable {first : List Item → Option α} {rest : α → List Item → Option β} {i : ℕ}
  {read : Item → Option γ}

theorem IgnoresPlace.bind (hfirst : IgnoresPlace first i) (hrest : ∀ a, IgnoresPlace (rest a) i) :
    IgnoresPlace (fun items => first items >>= fun a => rest a items) i := by
  intro items new
  have hsame : ∀ a, rest a (items.set i new) = rest a items := fun a => hrest a items new
  simp only [hfirst items new, hsame]

theorem ReadsPlace.head (hfirst : ReadsPlace first i read) (hrest : ∀ a, IgnoresPlace (rest a) i) :
    ReadsPlace (fun items => first items >>= fun a => rest a items) i read where
  congr {items old new} h heq := by
    have hsame : ∀ a, rest a (items.set i new) = rest a items := fun a => hrest a items new
    simp only [hfirst.congr h heq, hsame]
  fails h hnone := by
    simp only [hfirst.fails h hnone]
    rfl

theorem ReadsPlace.tail (hfirst : IgnoresPlace first i) (hrest : ∀ a, ReadsPlace (rest a) i read) :
    ReadsPlace (fun items => first items >>= fun a => rest a items) i read where
  congr {items old new} h heq := by
    have hsame : ∀ a, rest a (items.set i new) = rest a items := fun a => (hrest a).congr h heq
    simp only [hfirst items new, hsame]
  fails h hnone := by
    simp only [(hrest _).fails h hnone]
    exact Option.bind_fun_none _

end Bind

section Kinds

variable {name : Text} {place i : ℕ} {default : α} {read : Item → Option α}

theorem value_set_of_ne (h : place ≠ i) (items : List Item) (new : Item) :
    (Source.placed (items.set i new)).value name place = (Source.placed items).value name place :=
  List.getElem?_set_ne h.symm

theorem value_set_self {items : List Item} {old : Item} (h : items[i]? = some old) (new : Item) :
    (Source.placed (items.set i new)).value name i = some new :=
  List.getElem?_set_self (List.getElem?_eq_some_iff.mp h).1

theorem ignoresPlace_required (h : place ≠ i) :
    IgnoresPlace (fun items => required read (.placed items) name place) i := fun items new => by
  simp only [required, value_set_of_ne h]

theorem ignoresPlace_withDefault (h : place ≠ i) :
    IgnoresPlace (fun items => withDefault default read (.placed items) name place) i :=
  fun items new => by simp only [withDefault, value_set_of_ne h]

theorem ignoresPlace_optionalDefault (h : place ≠ i) :
    IgnoresPlace (fun items => optionalDefault read (.placed items) name place) i :=
  ignoresPlace_withDefault h

theorem ignoresPlace_optionalField (h : place ≠ i) :
    IgnoresPlace (fun items => optionalField read (.placed items) name place) i :=
  ignoresPlace_required h

theorem readsPlace_required :
    ReadsPlace (fun items => required read (.placed items) name i) i read where
  congr {items old new} h heq := by
    have hold : (Source.placed items).value name i = some old := h
    simp only [required, value_set_self h, hold, Option.bind_some, heq]
  fails h hnone := by simp only [required, value_set_self h, Option.bind_some, hnone]

theorem readsPlace_withDefault :
    ReadsPlace (fun items => withDefault default read (.placed items) name i) i read where
  congr {items old new} h heq := by
    have hold : (Source.placed items).value name i = some old := h
    simp only [withDefault, value_set_self h, hold, heq]
  fails h hnone := by simp only [withDefault, value_set_self h, hnone]

theorem readsPlace_optionalField :
    ReadsPlace (fun items => optionalField read (.placed items) name i) i read where
  congr {items old new} h heq := by
    refine readsPlace_required.congr h ?_
    simp only [heq]
  fails {items old new} h hnone := by
    refine readsPlace_required.fails h ?_
    simp only [hnone, Option.map_none]

end Kinds

theorem sourceOf_of_elements {item : Item} {items : List Item} (h : item.elements = some items) :
    sourceOf item = some (.placed items) := by
  have hmap : asMap item = none := by
    cases item with
    | table | datetime => cases h
    | _ => rfl
  rw [sourceOf, hmap, h]
  rfl

/-- The field of a struct that is written as an array. -/
theorem reads_struct_placed {body : Source → Option α} {i : ℕ} {read : Item → Option β}
    (h : ReadsPlace (fun items => body (.placed items)) i read) :
    Reads (struct body) [.index i] read where
  congr {item old new} hold heq := by
    obtain ⟨items, hitems, hget⟩ := follow_index_eq_some.mp hold
    rw [replaceAt_index hitems hget, struct, struct, sourceOf_of_elements hitems]
    exact h.congr hget heq
  fails {item old new} hold hnone := by
    obtain ⟨items, hitems, hget⟩ := follow_index_eq_some.mp hold
    rw [replaceAt_index hitems hget]
    exact h.fails hget hnone

-- ════════════════════════════════════════════════════════════════════════
-- Keys that are ignored
-- ════════════════════════════════════════════════════════════════════════

/-- Nothing that stands under a key of the table at a place makes a difference to what is read. -/
def Ignores (whole : Item → Option α) (item : Item) (path : List Step) (name : Text) : Prop :=
  ∀ table : Table, follow path item = some (.table table) → ∀ value,
    whole (replaceAt path (.table (table.put name value)) item) = whole item

/-- In a document that is read, the ignored keys of a table are those that name no field. -/
theorem ignores_iff {whole : Item → Option α} {path : List Step} {part : Item → Option β}
    {fields : List Text} {item : Item} {table : Table} {name : Text}
    (hreads : Reads whole path part)
    (hfields : HasFields (fun table => part (.table table)) fields)
    (htable : follow path item = some (.table table))
    (hok : (whole item).isSome) : Ignores whole item path name ↔ name ∉ fields := by
  constructor
  · intro hignores hmem
    have hsame := hignores table htable (some (.float []))
    rw [hreads.fails htable (hfields.refuses table [] hmem)] at hsame
    rw [← hsame] at hok
    cases hok
  · intro hnot found hfound value
    exact hreads.congr hfound (hfields.ignores found value hnot)

end Serde
