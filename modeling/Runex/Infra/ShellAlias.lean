import Runex.Domain.Shell
import Runex.Lib.Lines.Split
import Runex.Lib.Memo
import Runex.Lib.TakeWithin

/-!
# The aliases of a shell

Bash and PowerShell are asked for their aliases, and what they print is read line by line, within
limits on the lines, the names and the definitions.

## Main definitions

- `parsePwshAliasLines`, `parseBashAliasLines` — the aliases that are read
- `AliasLine`, `Printed` — a line that gives an alias, and the one that counts for a name
- `ShellAlias` — an alias that is printed on one line
- `pwshAliasLine`, `bashAliasLine`, `listing` — what the shells print

## Main results

- `truncateToLimit_eq` — a definition is cut at the last character that fits
- `lookup_parseAliasLines`, `lastAlias_eq_some` — what is read of any output
- `lastAlias_bashListing`, `lastAlias_pwshListing` — what is read of aliases on one line each
-/

namespace Runex

open Search TakeWithin Text

def maxAliasLines : ℕ := 10000

def maxAliasValueBytes : ℕ := 65536

def maxAliasKeyBytes : ℕ := 1024

/-- The walk back to a character boundary. -/
def truncateBack (s : Text) : ℕ → Text
  | 0 => []
  | stop + 1 => (sliceTo? s (stop + 1)).getD (truncateBack s stop)

def truncateToLimit (s : Text) (maxBytes : ℕ) : Text :=
  if byteLen s ≤ maxBytes then s else truncateBack s maxBytes

/-- Definitions by name. -/
abbrev AliasMap := Memo.Store Text Text

/-- The name and the definition in a line without its margins: apart by a tab. -/
def pwshAliasEntry (trimmed : Text) : Option (Text × Text) :=
  if trimmed = [] then none else splitOnce ['\t'] trimmed

/-- The name and the definition in a line such as `alias ll='ls -l'`. -/
def bashAliasEntry (trimmed : Text) : Option (Text × Text) :=
  (stripPrefix? "alias ".toList trimmed).bind (splitOnce ['='])

/-- What is kept of an entry. One with an oversized name is not. -/
def insertAlias (aliases : AliasMap) (entry : Text × Text) : AliasMap :=
  let key := trim entry.1
  if byteLen key > maxAliasKeyBytes then aliases
  else aliases.insert key (truncateToLimit (trim entry.2) maxAliasValueBytes)

/-- The loop over the lines. -/
def parseAliasLines (entryOf : Text → Option (Text × Text)) (stdout : Text) : AliasMap :=
  ((lines stdout).take maxAliasLines).foldl (fun aliases line =>
    match entryOf (trim line) with
    | some entry => insertAlias aliases entry
    | none => aliases) ∅

def parsePwshAliasLines (stdout : Text) : AliasMap := parseAliasLines pwshAliasEntry stdout

def parseBashAliasLines (stdout : Text) : AliasMap := parseAliasLines bashAliasEntry stdout

-- ════════════════════════════════════════════════════════════════════════
-- What the shells print
-- ════════════════════════════════════════════════════════════════════════

/-- An alias that is printed on one line, with what parts its name from its definition. -/
structure ShellAlias (sep : Char) where
  name : Text
  definition : Text
  name_ne_nil : name ≠ []
  trim_name : trim name = name
  sep_not_mem : sep ∉ name
  name_one_line : '\n' ∉ name
  definition_one_line : '\n' ∉ definition

/-- One character between single quotes. -/
def bashSingleQuoteChar (c : Char) : Text := if c = '\'' then "'\\''".toList else [c]

/-- A definition as Bash prints it. A lone quote gets a backslash instead. -/
def bashSingleQuote (value : Text) : Text :=
  if value = ['\''] then "\\'".toList
  else '\'' :: (value.flatMap bashSingleQuoteChar ++ ['\''])

/-- A name must not be taken for an option. -/
def bashShownName (name : Text) : Text :=
  if name.head? = some '-' then "-- ".toList ++ name else name

/-- The line of the `alias` builtin. -/
def bashAliasLine (a : ShellAlias '=') : Text :=
  "alias ".toList ++ (bashShownName a.name ++ '=' :: bashSingleQuote a.definition)

/-- The line of `"{0}`t{1}" -f $_.Name, $_.Definition`. -/
def pwshAliasLine (a : ShellAlias '\t') : Text := a.name ++ '\t' :: a.definition

/-- Lines, each with its end. -/
def listing {ι : Type} (line : ι → Text) (aliases : List ι) : Text :=
  aliases.flatMap fun a => line a ++ ['\n']

variable {ι : Type} {s key : Text} {entryOf : Text → Option (Text × Text)}

-- ════════════════════════════════════════════════════════════════════════
-- Where a definition is cut
-- ════════════════════════════════════════════════════════════════════════

theorem byteLen_eq_total (s : Text) : byteLen s = total Char.utf8Size s := rfl

/-- The first boundary before a place inside a character is where the character starts. -/
theorem truncateBack_eq (left right : Text) (c : Char) {k : ℕ} (hk : k < c.utf8Size) :
    truncateBack (left ++ c :: right) (byteLen left + k) = left := by
  induction k with
  | zero =>
    rw [Nat.add_zero]
    cases hlen : byteLen left with
    | zero => exact (byteLen_eq_zero.mp hlen).symm
    | succ n =>
      have hslice : sliceTo? (left ++ c :: right) (n + 1) = some left :=
        sliceTo?_eq_some.mpr ⟨List.prefix_append left _, hlen⟩
      rw [truncateBack, hslice, Option.getD_some]
  | succ k ih =>
    have hinside : sliceTo? (left ++ c :: right) (byteLen left + k + 1) = none := by
      refine sliceTo?_eq_none.mpr ?_
      rintro ⟨before, after, heq, hlen⟩
      have hbefore : before <+: left ++ c :: right := ⟨after, heq.symm⟩
      obtain ⟨inner, rfl⟩ := prefix_of_byteLen_le (List.prefix_append left _) hbefore (by omega)
      have hthrough : left ++ [c] <+: left ++ c :: right := ⟨right, by simp⟩
      have hinside : byteLen (left ++ inner) ≤ byteLen (left ++ [c]) := by
        rw [byteLen_append left [c]]
        simp only [byteLen_cons]
        omega
      have hinner : inner <+: [c] := (List.prefix_append_right_inj left).mp
        (prefix_of_byteLen_le hbefore hthrough hinside)
      rcases List.prefix_cons_iff.mp hinner with rfl | ⟨t, rfl, ht⟩
      · simp only [List.append_nil] at hlen
        omega
      · obtain rfl := List.prefix_nil.mp ht
        simp at hlen
        omega
    rw [← Nat.add_assoc, truncateBack, hinside, Option.getD_none, ih (by omega)]

/-- A definition is cut at the last character that fits. -/
theorem truncateToLimit_eq (s : Text) (maxBytes : ℕ) :
    truncateToLimit s maxBytes = takeWithin Char.utf8Size maxBytes s := by
  rw [truncateToLimit]
  rcases split_takeWithin Char.utf8Size maxBytes s with ⟨hall, hle⟩ | ⟨c, right, hs, hle, hlt⟩
  · rw [hall, if_pos (byteLen_eq_total s ▸ hle)]
  · generalize hleft : takeWithin Char.utf8Size maxBytes s = left at hs hle hlt
    rw [← byteLen_eq_total] at hle hlt
    obtain ⟨k, rfl⟩ := Nat.exists_eq_add_of_le hle
    subst hs
    rw [if_neg (by simp; omega), truncateBack_eq left right c (by omega)]

-- ════════════════════════════════════════════════════════════════════════
-- What is read of an output
-- ════════════════════════════════════════════════════════════════════════

/-- What is kept of an entry. -/
def keptEntry (entry : Text × Text) : Option (Text × Text) :=
  if byteLen (trim entry.1) > maxAliasKeyBytes then none
  else some (trim entry.1, truncateToLimit (trim entry.2) maxAliasValueBytes)

/-- The aliases that are read are those of the lines with an entry that is kept. -/
theorem parseAliasLines_eq (entryOf : Text → Option (Text × Text)) (stdout : Text) :
    parseAliasLines entryOf stdout = Memo.fill Prod.fst Prod.snd
      (((lines stdout).take maxAliasLines).filterMap fun line =>
        (entryOf (trim line)).bind keptEntry) := by
  rw [parseAliasLines, Memo.fill, List.foldl_filterMap]
  congr 1
  funext aliases line
  cases entryOf (trim line) with
  | none => rfl
  | some entry =>
    change insertAlias aliases entry = _
    rw [insertAlias, Option.bind_some, keptEntry]
    split <;> rfl

/-- The definition of a name in an entry. -/
def definitionIn (key : Text) (entry : Text × Text) : Option Text :=
  if trim entry.1 = key then some (trim entry.2) else none

/-- The definition that counts: of the lines within the limit the last one with the name. -/
def lastAlias (entryOf : Text → Option (Text × Text)) (stdout key : Text) : Option Text :=
  ((lines stdout).take maxAliasLines).reverse.findSome? fun line =>
    (entryOf (trim line)).bind (definitionIn key)

theorem find?_filterMap_map {α β γ : Type} (l : List α) (g : α → Option β) (p : β → Bool)
    (value : β → γ) : ((l.filterMap g).find? p).map value =
      l.findSome? fun a => (g a).bind fun b => if p b then some (value b) else none := by
  induction l with
  | nil => rfl
  | cons a l ih =>
    rw [List.findSome?_cons]
    cases hg : g a with
    | none => rw [List.filterMap_cons_none hg, ih, Option.bind_none]
    | some b =>
      rw [List.filterMap_cons_some hg, List.find?_cons, Option.bind_some]
      cases p b with
      | true => rfl
      | false => exact ih

/-- A name within the cap is not among those that are left out. -/
theorem keptEntry_bind (hkey : byteLen key ≤ maxAliasKeyBytes) (entry : Text × Text) :
    ((keptEntry entry).bind fun kept => if kept.1 = key then some kept.2 else none) =
      (definitionIn key entry).map fun definition =>
        truncateToLimit definition maxAliasValueBytes := by
  by_cases hname : trim entry.1 = key
  · subst hname
    simp [keptEntry, definitionIn, Nat.not_lt.mpr hkey]
  · rw [definitionIn, if_neg hname, keptEntry]
    split
    · rfl
    · exact if_neg hname

/-- What is read is the definition that counts, cut. -/
theorem lookup_parseAliasLines (entryOf : Text → Option (Text × Text)) (stdout : Text)
    (hkey : byteLen key ≤ maxAliasKeyBytes) :
    (parseAliasLines entryOf stdout).lookup key =
      (lastAlias entryOf stdout key).map fun definition =>
        takeWithin Char.utf8Size maxAliasValueBytes definition := by
  have hcut : (fun definition => takeWithin Char.utf8Size maxAliasValueBytes definition) =
      fun definition => truncateToLimit definition maxAliasValueBytes :=
    funext fun definition => (truncateToLimit_eq definition maxAliasValueBytes).symm
  rw [parseAliasLines_eq, Memo.lookup_fill, ← List.filterMap_reverse, find?_filterMap_map, lastAlias,
    List.map_findSome?, hcut]
  congr 1
  funext line
  rw [Function.comp_apply]
  cases entryOf (trim line) with
  | none => rfl
  | some entry =>
    simp only [Option.bind_some, decide_eq_true_eq]
    exact keptEntry_bind hkey entry

-- ════════════════════════════════════════════════════════════════════════
-- What counts in an output
-- ════════════════════════════════════════════════════════════════════════

/-- A line that gives an alias: after its introduction the name, up to the first `sep`, and the
    definition, with any blanks around the three. -/
def AliasLine (start : Text) (sep : Char) (line name definition : Text) : Prop :=
  ∃ left right, trim line = start ++ (left ++ sep :: right) ∧ sep ∉ left ∧ trim left = name ∧
    trim right = definition

/-- In the lines of an output within the limit the last one that gives the name gives it this
    definition. -/
def Printed (start : Text) (sep : Char) (stdout name definition : Text) : Prop :=
  ∃ before line after, (lines stdout).take maxAliasLines = before ++ line :: after ∧
    AliasLine start sep line name definition ∧
    ∀ other ∈ after, ∀ definition, ¬ AliasLine start sep other name definition

section Printed

variable {start : Text} {sep : Char}
  (hentry : ∀ trimmed left right, entryOf trimmed = some (left, right) ↔
    trimmed = start ++ (left ++ sep :: right) ∧ sep ∉ left)

include hentry

theorem aliasLine_iff {line definition : Text} : AliasLine start sep line key definition ↔
    (entryOf (trim line)).bind (definitionIn key) = some definition := by
  rw [AliasLine, Option.bind_eq_some_iff]
  simp only [Prod.exists, hentry, definitionIn, Option.ite_none_right_eq_some, Option.some.injEq]
  constructor
  · rintro ⟨left, right, hline, hsep, hname, hdefinition⟩
    exact ⟨left, right, ⟨hline, hsep⟩, hname, hdefinition⟩
  · rintro ⟨left, right, ⟨hline, hsep⟩, hname, hdefinition⟩
    exact ⟨left, right, hline, hsep, hname, hdefinition⟩

theorem lastAlias_eq_some {stdout definition : Text} :
    lastAlias entryOf stdout key = some definition ↔ Printed start sep stdout key definition := by
  rw [lastAlias, List.findSome?_eq_some_iff, Printed]
  simp only [aliasLine_iff hentry, ← Option.eq_none_iff_forall_ne_some]
  constructor
  · rintro ⟨after, line, before, hlines, hline, hafter⟩
    refine ⟨before.reverse, line, after.reverse, ?_, hline, fun other hmem => ?_⟩
    · rw [← List.reverse_reverse (List.take _ _), hlines]
      simp
    · exact hafter other (List.mem_reverse.mp hmem)
  · rintro ⟨before, line, after, hlines, hline, hafter⟩
    refine ⟨after.reverse, line, before.reverse, ?_, hline, fun other hmem => ?_⟩
    · rw [hlines]
      simp
    · exact hafter other (List.mem_reverse.mp hmem)

end Printed

theorem pwshAliasEntry_eq_some (trimmed left right : Text) :
    pwshAliasEntry trimmed = some (left, right) ↔
      trimmed = [] ++ (left ++ '\t' :: right) ∧ '\t' ∉ left := by
  rw [pwshAliasEntry, List.nil_append, ← splitOnce_singleton_eq_some]
  split
  · next hempty =>
    rw [hempty, splitOnce_singleton_eq_none.mpr List.not_mem_nil]
  · rfl

theorem bashAliasEntry_eq_some (trimmed left right : Text) :
    bashAliasEntry trimmed = some (left, right) ↔
      trimmed = "alias ".toList ++ (left ++ '=' :: right) ∧ '=' ∉ left := by
  rw [bashAliasEntry, Option.bind_eq_some_iff]
  simp only [stripPrefix?_eq_some, splitOnce_singleton_eq_some]
  constructor
  · rintro ⟨_, rfl, rfl, hsep⟩
    exact ⟨rfl, hsep⟩
  · rintro ⟨rfl, hsep⟩
    exact ⟨_, rfl, rfl, hsep⟩

-- ════════════════════════════════════════════════════════════════════════
-- Aliases on one line each
-- ════════════════════════════════════════════════════════════════════════

theorem lines_listing {line : ι → Text} {items : List ι} (h : ∀ i ∈ items, '\n' ∉ line i) :
    lines (listing line items) = items.map fun i => stripCr (line i) := by
  induction items with
  | nil => rfl
  | cons i items ih =>
    rw [List.forall_mem_cons] at h
    rw [listing, List.flatMap_cons, List.append_assoc, List.singleton_append,
      lines_append_cons h.1, ← listing, ih h.2, List.map_cons]

theorem trim_stripCr (line : Text) : trim (stripCr line) = trim line := by
  rw [stripCr]
  split
  · next hlast =>
    obtain ⟨front, rfl⟩ := List.getLast?_eq_some_iff.mp hlast
    rw [List.dropLast_concat, trim_concat rfl]
  · rfl

/-- One entry a line: the definition that counts is that of the last of the first aliases with the
    name. -/
theorem lastAlias_listing {line name definition : ι → Text} {items : List ι}
    (hline : ∀ i ∈ items, '\n' ∉ line i)
    (hentry : ∀ i ∈ items, ∃ entry, entryOf (trim (line i)) = some entry ∧
      trim entry.1 = name i ∧ trim entry.2 = definition i) (key : Text) :
    lastAlias entryOf (listing line items) key =
      ((items.take maxAliasLines).reverse.find? fun i => name i = key).map definition := by
  have hread : ∀ rest : List ι, (∀ i ∈ rest, i ∈ items) →
      ((rest.map fun i => stripCr (line i)).findSome? fun line =>
        (entryOf (trim line)).bind (definitionIn key)) =
        (rest.find? fun i => name i = key).map definition := by
    intro rest hrest
    induction rest with
    | nil => rfl
    | cons i rest ih =>
      rw [List.forall_mem_cons] at hrest
      obtain ⟨entry, hsome, hname, hdefinition⟩ := hentry i hrest.1
      rw [List.map_cons, List.findSome?_cons, trim_stripCr, hsome, Option.bind_some, definitionIn,
        hname, hdefinition, List.find?_cons]
      by_cases hkey : name i = key
      · simp [hkey]
      · simp only [hkey, if_false, decide_false]
        exact ih hrest.2
  rw [lastAlias, lines_listing hline, ← List.map_take, ← List.map_reverse]
  exact hread _ fun i hi => List.mem_of_mem_take (List.mem_reverse.mp hi)

/-- A text between characters that are not blank. -/
theorem trim_eq_self {c d : Char} (hc : c ∈ s.head?) (hd : d ∈ s.getLast?)
    (hcb : isWhitespace c = false) (hdb : isWhitespace d = false) : trim s = s := by
  refine trim_eq_self_iff.mpr ⟨fun b hb => ?_, fun b hb => ?_⟩
  · rw [Option.mem_unique hb hc, hcb]
  · rw [Option.mem_unique hb hd, hdb]

theorem bashSingleQuote_ends (value : Text) :
    (∃ c ∈ (bashSingleQuote value).head?, isWhitespace c = false) ∧
      '\'' ∈ (bashSingleQuote value).getLast? := by
  rw [bashSingleQuote]
  split
  · exact ⟨⟨'\\', rfl, rfl⟩, rfl⟩
  · refine ⟨⟨'\'', rfl, rfl⟩, ?_⟩
    rw [← List.cons_append, List.getLast?_concat]
    rfl

theorem trim_bashSingleQuote (value : Text) :
    trim (bashSingleQuote value) = bashSingleQuote value := by
  obtain ⟨⟨c, hc, hcb⟩, hlast⟩ := bashSingleQuote_ends value
  exact trim_eq_self hc hlast hcb rfl

theorem newline_not_mem_bashSingleQuote {value : Text} (h : '\n' ∉ value) :
    '\n' ∉ bashSingleQuote value := by
  have hchar : '\n' ∉ value.flatMap bashSingleQuoteChar := by
    rw [List.mem_flatMap]
    rintro ⟨c, hc, hmem⟩
    rw [bashSingleQuoteChar] at hmem
    split at hmem
    · exact absurd hmem (by decide)
    · exact h (List.mem_singleton.mp hmem ▸ hc)
  rw [bashSingleQuote]
  split
  · decide
  · simp [hchar]

theorem ShellAlias.name_ends {sep : Char} (a : ShellAlias sep) :
    (∃ c ∈ a.name.head?, isWhitespace c = false) ∧
      ∃ d ∈ a.name.getLast?, isWhitespace d = false := by
  obtain ⟨hhead, hlast⟩ := trim_eq_self_iff.mp a.trim_name
  refine ⟨?_, a.name.getLast a.name_ne_nil, List.getLast?_eq_some_getLast _, ?_⟩
  · exact ⟨a.name.head a.name_ne_nil, List.head?_eq_some_head _, hhead _ (List.head?_eq_some_head _)⟩
  · exact hlast _ (List.getLast?_eq_some_getLast _)

theorem trim_bashShownName (a : ShellAlias '=') :
    trim (bashShownName a.name) = bashShownName a.name := by
  rw [bashShownName]
  split
  · obtain ⟨-, d, hd, hdb⟩ := a.name_ends
    refine trim_eq_self (c := '-') rfl ?_ rfl hdb
    rw [List.getLast?_append, Option.mem_def.mp hd]
    rfl
  · exact a.trim_name

theorem not_mem_bashShownName {c : Char} {name : Text} (hc : c ∉ name) (hdash : c ∉ "-- ".toList) :
    c ∉ bashShownName name := by
  rw [bashShownName]
  split
  · exact fun hmem => (List.mem_append.mp hmem).elim hdash hc
  · exact hc

theorem bashAliasEntry_bashAliasLine (a : ShellAlias '=') :
    bashAliasEntry (trim (bashAliasLine a)) =
      some (bashShownName a.name, bashSingleQuote a.definition) := by
  have hlast : '\'' ∈ (bashAliasLine a).getLast? := by
    rw [bashAliasLine, List.getLast?_append, List.getLast?_append, List.getLast?_cons,
      Option.mem_def.mp (bashSingleQuote_ends a.definition).2]
    rfl
  rw [trim_eq_self (c := 'a') rfl hlast rfl rfl, bashAliasEntry, bashAliasLine, stripPrefix?_append,
    Option.bind_some]
  exact splitOnce_singleton_eq_some.mpr ⟨rfl, not_mem_bashShownName a.sep_not_mem (by decide)⟩

/-- What counts in what Bash prints. -/
theorem lastAlias_bashListing (aliases : List (ShellAlias '=')) (key : Text) :
    lastAlias bashAliasEntry (listing bashAliasLine aliases) key =
      ((aliases.take maxAliasLines).reverse.find? fun a => bashShownName a.name = key).map fun a =>
        bashSingleQuote a.definition := by
  refine lastAlias_listing (fun a _ => ?_) (fun a _ => ?_) key
  · have hname := not_mem_bashShownName a.name_one_line (by decide)
    have hquoted := newline_not_mem_bashSingleQuote a.definition_one_line
    simp [bashAliasLine, hname, hquoted]
  · exact ⟨_, bashAliasEntry_bashAliasLine a, trim_bashShownName a, trim_bashSingleQuote _⟩

/-- A text that goes on after a blank one. -/
theorem trimEnd_append {t : Text} (h : isBlank t = false) (s : Text) :
    trimEnd (s ++ t) = s ++ trimEnd t := by
  have hleft : (t.reverse.dropWhile isWhitespace).isEmpty = false := by
    rw [Bool.eq_false_iff, ne_eq, List.isEmpty_iff, List.dropWhile_eq_nil_iff]
    intro hall
    rw [isBlank, List.all_eq_true.mpr fun c hc => hall c (List.mem_reverse.mpr hc)] at h
    cases h
  rw [trimEnd, trimEnd, List.rdropWhile, List.rdropWhile, List.reverse_append, List.dropWhile_append,
    hleft]
  simp

theorem pwshAliasEntry_pwshAliasLine {a : ShellAlias '\t'} (h : isBlank a.definition = false) :
    pwshAliasEntry (trim (pwshAliasLine a)) = some (a.name, trimEnd a.definition) := by
  obtain ⟨⟨c, hc, hcb⟩, -⟩ := a.name_ends
  have hstart : trimStart (pwshAliasLine a) = pwshAliasLine a := by
    refine trimStart_eq_self_iff.mpr fun b hb => ?_
    rw [pwshAliasLine, List.head?_append, Option.mem_def.mp hc] at hb
    rw [← Option.some.inj hb, hcb]
  have hblank : isBlank ('\t' :: a.definition) = false := by
    rw [isBlank, List.all_cons, ← isBlank, h, Bool.and_false]
  have htab : trimEnd ('\t' :: a.definition) = '\t' :: trimEnd a.definition :=
    trimEnd_append h ['\t']
  rw [trim, hstart, pwshAliasLine, trimEnd_append hblank, htab, pwshAliasEntry,
    if_neg (by simp)]
  exact splitOnce_singleton_eq_some.mpr ⟨rfl, a.sep_not_mem⟩

theorem trim_trimEnd (s : Text) : trim (trimEnd s) = trim s := by
  induction s using List.reverseRecOn with
  | nil => rfl
  | append_singleton s c ih =>
    cases hc : isWhitespace c with
    | true =>
      rw [trim_concat hc, trimEnd, List.rdropWhile_concat_pos _ _ _ hc, ← trimEnd, ih]
    | false =>
      rw [trimEnd, List.rdropWhile_concat_neg _ _ _ (by simp [hc])]

/-- What counts in what PowerShell prints. -/
theorem lastAlias_pwshListing {aliases : List (ShellAlias '\t')}
    (hblank : ∀ a ∈ aliases, isBlank a.definition = false) (key : Text) :
    lastAlias pwshAliasEntry (listing pwshAliasLine aliases) key =
      ((aliases.take maxAliasLines).reverse.find? fun a => a.name = key).map fun a =>
        trim a.definition := by
  refine lastAlias_listing (fun a _ => ?_) (fun a ha => ?_) key
  · simp [pwshAliasLine, a.name_one_line, a.definition_one_line]
  · exact ⟨_, pwshAliasEntry_pwshAliasLine (hblank a ha), a.trim_name, trim_trimEnd _⟩

end Runex
