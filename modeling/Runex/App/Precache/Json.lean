import Runex.App.Precache

/-!
# The precache as JSON

What the reader and the writer of JSON are documented to do with a cache, and that `parse_cache`
accepts what is written for a cache of an accepted configuration.

## Main definitions

- `cacheJson` — the text of a cache, for one order of its entries
- `SerdeJson.Documented` — what is assumed of the reader and the writer
- `SerdeJson.reference` — a reader and a writer with these properties

## Main results

- `parseCache_cacheJson` — a cache within the limits is read back
-/

namespace Runex

open Search Text

/-- A text that JSON writes between quotes as it is. -/
def IsJsonPlain (s : Text) : Prop := ∀ c ∈ s, c ≠ '"' ∧ c ≠ '\\' ∧ isAsciiControl c = false

/-- What follows the name of an entry. -/
def jsonValue (value : Bool) : Text := ':' :: if value then "true".toList else "false".toList

def jsonEntry (entry : Text × Bool) : Text := '"' :: (entry.1 ++ '"' :: jsonValue entry.2)

/-- The text before the fingerprint. -/
def jsonOpening : Text := "\x7b\"v\":".toList ++ decimal cacheVersion ++ ",\"fingerprint\":\"".toList

/-- The text between the fingerprint and the first command. -/
def jsonMiddle : Text := "\",\"commands\":\x7b".toList

/-- The entries and what ends them. -/
def entriesText (entries : List (Text × Bool)) : Text :=
  [','].intercalate (entries.map jsonEntry) ++ "\x7d\x7d".toList

/-- The text of a cache, for one order of its entries. -/
def cacheJson (fingerprint : Text) (entries : List (Text × Bool)) : Text :=
  jsonOpening ++ (fingerprint ++ (jsonMiddle ++ entriesText entries))

/-- What is assumed of `serde_json`, for the fields of a cache without escapes. A hash map is
    written in any order, and of two entries read with one key the later one stays. -/
structure SerdeJson.Documented (serde : SerdeJson) : Prop where
  writes : ∀ cache, cache.v = cacheVersion → IsJsonPlain cache.fingerprint →
    (∀ cmd ∈ cache.commands.keys, IsJsonPlain cmd) →
    ∃ entries, (entries.map Prod.fst).Nodup ∧ Memo.fill Prod.fst Prod.snd entries = cache.commands ∧
      serde.toString cache = cacheJson cache.fingerprint entries
  reads : ∀ fingerprint entries, IsJsonPlain fingerprint → (∀ entry ∈ entries, IsJsonPlain entry.1) →
    serde.fromStr (cacheJson fingerprint entries) =
      some ⟨cacheVersion, fingerprint, Memo.fill Prod.fst Prod.snd entries⟩
  /-- A key starts with a quote. -/
  rejects : ∀ rest, serde.fromStr ('{' :: '\\' :: rest) = none

theorem entriesText_cons (entry : Text × Bool) (entries : List (Text × Bool)) :
    entriesText (entry :: entries) = jsonEntry entry ++
      if entries = [] then "\x7d\x7d".toList else ',' :: entriesText entries := by
  cases entries with
  | nil => simp [entriesText]
  | cons next entries =>
    rw [entriesText, List.map_cons, List.map_cons, List.intercalate_cons_cons, if_neg (by simp),
      entriesText, List.map_cons]
    simp only [List.append_assoc, List.cons_append, List.nil_append]

-- ════════════════════════════════════════════════════════════════════════
-- Caches of an accepted configuration
-- ════════════════════════════════════════════════════════════════════════

variable {serde : SerdeJson} {cmd fingerprint : Text} {entries : List (Text × Bool)}

/-- What validation asks of a command that the writers rely on. -/
theorem quotes_of_checkCmdEntry (h : checkCmdEntry cmd = none) : IsJsonPlain cmd ∧ '\'' ∉ cmd := by
  obtain ⟨-, -, -, -, hcontrol, -, ⟨-, hbackslash, -⟩, hmeta⟩ := checkCmdEntry_eq_none.mp h
  refine ⟨fun c hc => ⟨?_, ?_, hcontrol c hc⟩, fun hc => hmeta '\'' hc (by decide)⟩
  · rintro rfl
    exact hmeta '"' hc (by decide)
  · rintro rfl
    exact hbackslash hc

/-- A digit of a fingerprint. -/
def IsFingerprintDigit (c : Char) : Prop :=
  (ShellLiteral.hexDigit? c).isSome ∧ c.utf8Size = 1 ∧ c ≠ '"' ∧ c ≠ '\\' ∧ c ≠ '\'' ∧
    isAsciiControl c = false ∧ c.toNat < 0x80

instance (c : Char) : Decidable (IsFingerprintDigit c) := inferInstanceAs (Decidable (_ ∧ _))

theorem isFingerprintDigit_of_mem_hex16 {n : BitVec 64} {c : Char} (h : c ∈ hex16 n) :
    IsFingerprintDigit c := by
  have hdigit : ∀ k < 16, IsFingerprintDigit (Nat.digitChar k) := by decide
  obtain ⟨i, -, rfl⟩ := List.mem_map.mp h
  exact hdigit _ (Nat.mod_lt _ (by decide))

theorem byteLen_hex16 (n : BitVec 64) : byteLen (hex16 n) = fingerprintLen := by
  have hsize : (hex16 n).map Char.utf8Size = List.replicate 16 1 := by
    rw [List.eq_replicate_iff]
    refine ⟨by simp [hex16], fun size hsize => ?_⟩
    obtain ⟨c, hc, rfl⟩ := List.mem_map.mp hsize
    exact (isFingerprintDigit_of_mem_hex16 hc).2.1
  rw [byteLen, hsize]
  rfl

theorem isJsonPlain_hex16 (n : BitVec 64) : IsJsonPlain (hex16 n) := fun _ hc =>
  let h := isFingerprintDigit_of_mem_hex16 hc
  ⟨h.2.2.1, h.2.2.2.1, h.2.2.2.2.2.1⟩

/-- Reading back a cache within the limits. -/
theorem parseCache_cacheJson (hserde : serde.Documented) {n : BitVec 64}
    (hplain : ∀ entry ∈ entries, IsJsonPlain entry.1)
    (hbytes : byteLen (cacheJson (hex16 n) entries) ≤ maxCacheBytes)
    (hcount : (Memo.fill Prod.fst Prod.snd entries).keys.card ≤ maxCacheCommands) :
    parseCache serde (cacheJson (hex16 n) entries) =
      some ⟨cacheVersion, hex16 n, Memo.fill Prod.fst Prod.snd entries⟩ := by
  have hdigits : (hex16 n).all (fun c => (ShellLiteral.hexDigit? c).isSome) = true :=
    List.all_eq_true.mpr fun c hc => (isFingerprintDigit_of_mem_hex16 hc).1
  rw [parseCache, if_neg (by omega), hserde.reads _ _ (isJsonPlain_hex16 n) hplain]
  simp [byteLen_hex16, hdigits, hcount]

/-- Only the cache that is written in a text is read from it. -/
theorem eq_of_parseCache_cacheJson (hserde : serde.Documented) {cache : CmdCache}
    (hfingerprint : IsJsonPlain fingerprint) (hplain : ∀ entry ∈ entries, IsJsonPlain entry.1)
    (h : parseCache serde (cacheJson fingerprint entries) = some cache) :
    cache.commands = Memo.fill Prod.fst Prod.snd entries := by
  rw [parseCache, hserde.reads _ _ hfingerprint hplain] at h
  simp only [Option.ite_none_left_eq_some, Option.some.injEq] at h
  rw [← h.2.2.2.2]

-- ════════════════════════════════════════════════════════════════════════
-- A reader and a writer
-- ════════════════════════════════════════════════════════════════════════

/-- The entries in what stands between the quotes. -/
def readEntries : List Text → List (Text × Bool)
  | name :: separator :: rest => (name, ":true".toList <+: separator) :: readEntries rest
  | _ => []

/-- A cache whose fields have no escapes. -/
def readCacheJson (json : Text) : Option CmdCache := do
  let json ← stripPrefix? jsonOpening json
  let (fingerprint, entries) ← splitOnce jsonMiddle json
  some ⟨cacheVersion, fingerprint, Memo.fill Prod.fst Prod.snd (readEntries (entries.splitOn '"').tail)⟩

/-- A reader and a writer for caches without escapes. -/
noncomputable def SerdeJson.reference : SerdeJson where
  toString cache := cacheJson cache.fingerprint
    (cache.commands.keys.toList.map fun cmd => (cmd, (cache.commands.lookup cmd).getD false))
  fromStr := readCacheJson

/-- Before a text without quotes, the next entry starts. -/
theorem splitOn_quote {s : Text} (hs : '"' ∉ s) (t : Text) :
    (s ++ '"' :: t).splitOn '"' = s :: t.splitOn '"' := by
  rw [List.splitOn_append_cons_self, List.splitOn_eq_singleton hs, List.singleton_append]

/-- The value of an entry is read in what follows its name. -/
theorem readEntries_cons (entry : Text × Bool) (rest : Text) (separators : List Text) :
    readEntries (entry.1 :: (jsonValue entry.2 ++ rest) :: separators) =
      entry :: readEntries separators := by
  obtain ⟨name, value⟩ := entry
  cases value <;> simp [readEntries, jsonValue, List.cons_prefix_cons]

theorem quote_not_mem_jsonValue (value : Bool) : '"' ∉ jsonValue value := by
  cases value <;> decide +kernel

/-- The name of an entry stands between its first two quotes. -/
theorem tail_splitOn_jsonEntry {entry : Text × Bool} (h : '"' ∉ entry.1) (rest : Text) :
    ((jsonEntry entry ++ rest).splitOn '"').tail =
      entry.1 :: (jsonValue entry.2 ++ rest).splitOn '"' := by
  have hentry : jsonEntry entry ++ rest =
      [] ++ '"' :: (entry.1 ++ '"' :: (jsonValue entry.2 ++ rest)) := by simp [jsonEntry]
  rw [hentry, splitOn_quote (by simp), splitOn_quote h, List.tail_cons]

/-- Reading the entries that were written. -/
theorem readEntries_entriesText (h : ∀ entry ∈ entries, '"' ∉ entry.1) :
    readEntries ((entriesText entries).splitOn '"').tail = entries := by
  induction entries with
  | nil => rfl
  | cons entry entries ih =>
    rw [List.forall_mem_cons] at h
    have hvalue := quote_not_mem_jsonValue entry.2
    rw [entriesText_cons, tail_splitOn_jsonEntry h.1]
    split
    · next hnil =>
      have hend : '"' ∉ "\x7d\x7d".toList := by decide +kernel
      have hmem : '"' ∉ jsonValue entry.2 ++ "\x7d\x7d".toList := by
        rw [List.mem_append, not_or]
        exact ⟨hvalue, hend⟩
      rw [List.splitOn_eq_singleton hmem, readEntries_cons, hnil]
      rfl
    · next hne =>
      obtain ⟨rest, hrest⟩ : ∃ rest, entriesText entries = '"' :: rest := by
        cases entries with
        | nil => exact absurd rfl hne
        | cons next entries =>
          rw [entriesText_cons]
          exact ⟨_, rfl⟩
      have htail : ((entriesText entries).splitOn '"').tail = rest.splitOn '"' := by
        rw [hrest, ← List.nil_append ('"' :: rest), splitOn_quote (by simp), List.tail_cons]
      have hcomma : jsonValue entry.2 ++ ',' :: '"' :: rest =
          (jsonValue entry.2 ++ [',']) ++ '"' :: rest := by simp
      rw [hrest, hcomma, splitOn_quote (by simp [hvalue]), ← htail, readEntries_cons, ih h.2]

/-- The entries of a map in any order give the map. -/
theorem fill_toList_keys (commands : CommandMap) :
    Memo.fill Prod.fst Prod.snd (commands.keys.toList.map fun cmd =>
      (cmd, (commands.lookup cmd).getD false)) = commands := by
  have hnodup : ((commands.keys.toList.map fun cmd =>
      (cmd, (commands.lookup cmd).getD false)).map Prod.fst).Nodup := by
    simp [Function.comp_def, Finset.nodup_toList]
  refine Finmap.ext_lookup fun cmd => ?_
  cases hcmd : commands.lookup cmd with
  | some value =>
    have hmem : cmd ∈ commands.keys := Finmap.mem_keys.mpr (Finmap.mem_of_lookup_eq_some hcmd)
    have hentry : (cmd, value) ∈ commands.keys.toList.map fun cmd =>
        (cmd, (commands.lookup cmd).getD false) :=
      List.mem_map.mpr ⟨cmd, Finset.mem_toList.mpr hmem, by rw [hcmd]; rfl⟩
    exact Memo.lookup_fill_of_mem Prod.fst Prod.snd hnodup hentry
  | none =>
    rw [Finmap.lookup_eq_none, ← Finmap.mem_keys] at hcmd ⊢
    simpa [Memo.keys_fill, Function.comp_def] using hcmd

theorem SerdeJson.reference_documented : SerdeJson.reference.Documented where
  writes cache _ _ _ :=
    ⟨_, by simp [Function.comp_def, Finset.nodup_toList], fill_toList_keys cache.commands, rfl⟩
  reads fingerprint entries hfingerprint hentries := by
    have hquote : '"' ∉ fingerprint := fun hc => (hfingerprint '"' hc).1 rfl
    obtain ⟨middle, hmiddle⟩ : ∃ middle, jsonMiddle = '"' :: middle := ⟨_, rfl⟩
    have hsplit : splitOnce jsonMiddle (fingerprint ++ (jsonMiddle ++ entriesText entries)) =
        some (fingerprint, entriesText entries) := by
      rw [hmiddle, splitOnce_append_of_not_mem hquote, splitOnce_append]
      simp
    simp [reference, readCacheJson, cacheJson, hsplit,
      readEntries_entriesText fun entry hmem hc => (hentries entry hmem '"' hc).1 rfl]
  rejects rest := by
    obtain ⟨opening, hopening⟩ : ∃ opening, jsonOpening = '{' :: '"' :: opening := ⟨_, rfl⟩
    simp [reference, readCacheJson, hopening, stripPrefix?]

end Runex
