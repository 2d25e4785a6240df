import Runex.Domain.Expand.Glob
import Runex.Domain.Expand.Rendering
import Runex.Lib.Placeholder.Cut

/-!
# Captured text is data

A match of a glob or regex rule says what `{*}`, `{1}` to `{9}` and `{name}` stand for. The scanner
fills the cut of the template at these placeholders, and the cut depends on which of them stand for
something, not on what was captured.

## Main definitions

- `RegexLite.NamesFreeOfBraces`, `RegexLite.NamesFreeOfSpaces` — what is assumed of the engine
- `Captured` — what a placeholder stands for, from the key and the token alone
- `Resolves`, `filled` — the names the bindings know, and a cut filled with their captures
- `CutTemplate`, `FillsTemplate` — a cut on each side of the cursor placeholder, and its text

## Main results

- `resolveCapture_eq_some_iff` — the bindings of a match know what its placeholders stand for
- `substitute_eq_filled` — the scanner fills the cut
- `captured_text_is_data` — the rendering of a template is its cut, filled
-/

namespace Runex

open Search
open Placeholder (Piece Cuts Fills cut)
open Text (byteLen)

/-- The name of a capture group has no brace. -/
def RegexLite.NamesFreeOfBraces (engine : RegexLite) : Prop :=
  ∀ pattern regex, engine.build pattern = .ok regex →
    ∀ name, some name ∈ engine.captureNames regex → '{' ∉ name ∧ '}' ∉ name

/-- The name of a capture group has no space. -/
def RegexLite.NamesFreeOfSpaces (engine : RegexLite) : Prop :=
  ∀ pattern regex, engine.build pattern = .ok regex →
    ∀ name, some name ∈ engine.captureNames regex → ' ' ∉ name

def resolves (bindings : Bindings) (name : Text) : Bool := (resolveCapture name bindings).isSome

/-- `{name}` is a placeholder the bindings know. -/
def Resolves (bindings : Bindings) (name : Text) : Prop := resolves bindings name = true

/-- The pieces with every slot filled by its capture. -/
def filled (bindings : Bindings) (pieces : List Piece) : Text :=
  pieces.flatMap (Piece.fill fun name => (resolveCapture name bindings).getD [])

variable {engine : RegexLite} {abbr : Abbr} {token : Text} {bindings : Bindings}

/-- The scanner replaces the placeholders that resolve, all at once. -/
theorem substitute_eq_filled (text : Text) :
    substitute text bindings = filled bindings (cut (resolves bindings) text) := by
  induction text using Placeholder.cut_induction (resolves bindings) with
  | nil => exact substitute_nil
  | slot name post hname hclose ih =>
    obtain ⟨capture, hcapture⟩ := Option.isSome_iff_exists.mp hname
    have hopen : resolvedAfterOpen (name ++ '}' :: post) bindings = some (capture, post) := by
      rw [resolvedAfterOpen_name hclose, hcapture, Option.map_some]
    have htoken : Placeholder.token name ++ post = '{' :: (name ++ '}' :: post) := by
      simp [Placeholder.token]
    rw [Placeholder.cut_token hname hclose, htoken, substitute_open_some hopen, ih]
    simp [filled, Piece.fill, hcapture]
  | char c s hslot ih =>
    have hcopy : substitute (c :: s) bindings = c :: substitute s bindings := by
      by_cases hc : c = '{'
      · subst hc
        refine substitute_open_none ?_
        unfold resolvedAfterOpen
        split
        · rfl
        · next name post hsplit =>
          -- A name that resolved would be a slot here.
          obtain ⟨rfl, hclose⟩ := splitOnce_singleton_eq_some.mp hsplit
          rw [Option.map_eq_none_iff, ← Option.not_isSome_iff_eq_none]
          intro hname
          have hsome : Placeholder.slotAt (resolves bindings) ('{' :: (name ++ '}' :: post)) =
              some name :=
            Placeholder.slotAt_eq_some.mpr ⟨hname, hclose, post, by simp [Placeholder.token]⟩
          rw [hsome] at hslot
          exact absurd hslot (by simp)
      · exact substitute_cons_ne hc s
    rw [hcopy, ih, Placeholder.cut_cons hslot]
    rfl

/-- A pattern rule binds no number. -/
theorem number_of_matchRule (hkind : abbr.matchKind ≠ none)
    (hmatch : matchRule engine abbr token = some bindings) : bindings.number = none := by
  unfold matchRule at hmatch
  split at hmatch
  · obtain ⟨_, _, rfl⟩ := Option.map_eq_some_iff.mp hmatch
    rfl
  · obtain ⟨_, _, rfl⟩ := Option.map_eq_some_iff.mp hmatch
    rfl
  · next hnone => exact absurd hnone hkind

/-- The group that `{name}` stands for. -/
def groupNamed (groups : List RegexGroup) (name : Text) : Option RegexGroup :=
  match regexGroupNumber name with
  | some number => groups[number - 1]?
  | none => groups.find? fun group => group.name == some name

/-- The groups of a regex match resolve the names of its groups. -/
theorem resolveCapture_regex {groups : List RegexGroup} {name : Text}
    (hstar : name ≠ globCaptureName) (hgroups : bindings.regex = some groups) :
    resolveCapture name bindings = (groupNamed groups name).map RegexGroup.text := by
  rw [resolveCapture, if_neg hstar, hgroups, groupNamed]
  cases regexGroupNumber name with
  | some number => cases h : groups[number - 1]? <;> simp [h]
  | none => cases h : groups.find? fun group => group.name == some name <;> simp [h]

theorem mem_of_groupNamed {groups : List RegexGroup} {name : Text} {group : RegexGroup}
    (h : groupNamed groups name = some group) : group ∈ groups := by
  unfold groupNamed at h
  split at h
  · exact List.mem_of_getElem? h
  · exact List.mem_of_find?_eq_some h

/-- Which names stand for a group depends on the names of the groups. -/
theorem isSome_groupNamed {groups groups' : List RegexGroup}
    (h : groups.map RegexGroup.name = groups'.map RegexGroup.name) (name : Text) :
    (groupNamed groups name).isSome = (groupNamed groups' name).isSome := by
  have hfind : ∀ list : List RegexGroup,
      (list.find? fun group => group.name == some name).isSome =
        (list.map RegexGroup.name).any (· == some name) := by
    intro list
    rw [List.any_map, Bool.eq_iff_iff]
    simp
  have hlen : groups.length = groups'.length := by simpa using congrArg List.length h
  unfold groupNamed
  cases regexGroupNumber name with
  | some number =>
    rw [Bool.eq_iff_iff, isSome_getElem?, isSome_getElem?, hlen]
  | none => simp only [hfind, h]

theorem eq_singleton_of_regexGroupNumber {name : Text} {number : ℕ}
    (h : regexGroupNumber name = some number) :
    ∃ digit, name = [digit] ∧ '1' ≤ digit ∧ digit ≤ '9' := by
  unfold regexGroupNumber at h
  split at h
  · next digit =>
    split at h
    · next hdigit => exact ⟨digit, rfl, hdigit⟩
    · exact absurd h (by simp)
  · exact absurd h (by simp)

-- ════════════════════════════════════════════════════════════════════════
-- What a placeholder stands for
-- ════════════════════════════════════════════════════════════════════════

/-- A regex rule has matched, with these captures. -/
structure RegexMatch (engine : RegexLite) (abbr : Abbr) (token : Text) (regex : engine.Regex)
    (captures : ℕ → Option Text) : Prop where
  kind : abbr.matchKind = some .regex
  compiled : compileRegexKey engine abbr.key = .ok regex
  captured : engine.captures regex token = some captures

/-- `{name}` stands for a part of the token: `{*}` for what the first `*` of a glob key has matched
    and for nothing if there is none, a digit from 1 to 9 for the group of a regex key with that
    number, and any other name for the first group of that name. A group that took no part is
    empty. -/
inductive Captured (engine : RegexLite) (abbr : Abbr) (token : Text) : Text → Text → Prop where
  | star {head tail before capture after : Text} (hkind : abbr.matchKind = some .glob)
      (hkey : abbr.key = head ++ '*' :: tail) (hhead : '*' ∉ head)
      (htoken : token = before ++ (capture ++ after)) (hbefore : FixedMatches head before)
      (hafter : FixedMatches tail after) : Captured engine abbr token ['*'] capture
  | noStar (hkind : abbr.matchKind = some .glob) (hstar : '*' ∉ abbr.key) :
      Captured engine abbr token ['*'] []
  | number {regex : engine.Regex} {captures : ℕ → Option Text} {n : ℕ}
      (h : RegexMatch engine abbr token regex captures) (hpos : 1 ≤ n) (hdigit : n ≤ 9)
      (hgroup : n < (engine.captureNames regex).length) :
      Captured engine abbr token [Nat.digitChar n] ((captures n).getD [])
  | name {regex : engine.Regex} {captures : ℕ → Option Text} {n : ℕ} {name : Text}
      (h : RegexMatch engine abbr token regex captures) (hstar : name ≠ ['*'])
      (hdigit : ∀ digit, 1 ≤ digit → digit ≤ 9 → name ≠ [Nat.digitChar digit]) (hpos : 1 ≤ n)
      (hgroup : (engine.captureNames regex)[n]? = some (some name))
      (hfirst : ∀ m, 1 ≤ m → m < n → (engine.captureNames regex)[m]? ≠ some (some name)) :
      Captured engine abbr token name ((captures n).getD [])

theorem regexGroupNumber_eq_some {name : Text} {n : ℕ} :
    regexGroupNumber name = some n ↔ name = [Nat.digitChar n] ∧ 1 ≤ n ∧ n ≤ 9 := by
  constructor
  · intro h
    obtain ⟨digit, rfl, hlow, hhigh⟩ := eq_singleton_of_regexGroupNumber h
    rw [regexGroupNumber, if_pos ⟨hlow, hhigh⟩, Option.some.injEq] at h
    have hlow : 49 ≤ digit.toNat := hlow
    have hhigh : digit.toNat ≤ 57 := hhigh
    have hn : digit.toNat - 48 = n := h
    have hdigits : ∀ code < 58, 49 ≤ code → Char.ofNat code = Nat.digitChar (code - 48) := by
      decide
    refine ⟨?_, by omega, by omega⟩
    rw [← hn, ← hdigits digit.toNat (by omega) hlow, Char.ofNat_toNat]
  · rintro ⟨rfl, hlow, hhigh⟩
    have hdigits : ∀ n < 10, 1 ≤ n → regexGroupNumber [Nat.digitChar n] = some n := by decide
    exact hdigits n (by omega) hlow

theorem regexGroupNumber_eq_none {name : Text} :
    regexGroupNumber name = none ↔ ∀ n, 1 ≤ n → n ≤ 9 → name ≠ [Nat.digitChar n] := by
  rw [Option.eq_none_iff_forall_ne_some]
  constructor
  · exact fun h n hlow hhigh hname => h n (regexGroupNumber_eq_some.mpr ⟨hname, hlow, hhigh⟩)
  · intro h n hn
    obtain ⟨hname, hlow, hhigh⟩ := regexGroupNumber_eq_some.mp hn
    exact h n hlow hhigh hname

/-- The groups of a match, group 1 first. -/
def matchGroups (names : List (Option Text)) (captures : ℕ → Option Text) : List RegexGroup :=
  (names.zipIdx.drop 1).map fun (name, i) => { name := name, text := (captures i).getD [] }

theorem getElem?_matchGroups (names : List (Option Text)) (captures : ℕ → Option Text) (i : ℕ) :
    (matchGroups names captures)[i]? = names[i + 1]?.map fun name =>
      { name := name, text := (captures (i + 1)).getD [] } := by
  rw [matchGroups, List.getElem?_map, List.getElem?_drop, List.getElem?_zipIdx, Option.map_map,
    Nat.add_comm 1 i, Nat.zero_add]
  rfl

theorem RegexMatch.eq_groups {regex : engine.Regex} {captures : ℕ → Option Text}
    (h : RegexMatch engine abbr token regex captures)
    (hmatch : matchRule engine abbr token = some bindings) :
    bindings = { regex := some (matchGroups (engine.captureNames regex) captures) } := by
  rw [matchRule, h.kind] at hmatch
  simp only [matchRegexKey, h.compiled, h.captured, Option.map_some, Option.some.injEq] at hmatch
  exact hmatch.symm

/-- A match of a regex rule has captures. -/
theorem exists_regexMatch (hkind : abbr.matchKind = some .regex)
    (hmatch : matchRule engine abbr token = some bindings) :
    ∃ regex captures, RegexMatch engine abbr token regex captures := by
  rw [matchRule, hkind] at hmatch
  obtain ⟨groups, hgroups, -⟩ := Option.map_eq_some_iff.mp hmatch
  rw [matchRegexKey] at hgroups
  split at hgroups
  · cases hgroups
  · next regex hregex =>
    obtain ⟨captures, hcaptures, -⟩ := Option.map_eq_some_iff.mp hgroups
    exact ⟨regex, captures, hkind, hregex, hcaptures⟩

/-- The first group of a name. -/
theorem groupNamed_matchGroups {names : List (Option Text)} {captures : ℕ → Option Text}
    {name capture : Text} (hname : regexGroupNumber name = none) :
    (groupNamed (matchGroups names captures) name).map RegexGroup.text = some capture ↔
      ∃ n, 1 ≤ n ∧ names[n]? = some (some name) ∧
        (∀ m, 1 ≤ m → m < n → names[m]? ≠ some (some name)) ∧ (captures n).getD [] = capture := by
  have hgroup : ∀ i, ((matchGroups names captures)[i]?.map RegexGroup.name = some (some name)) ↔
      names[i + 1]? = some (some name) := by
    intro i
    rw [getElem?_matchGroups, Option.map_map]
    cases names[i + 1]? <;> simp
  simp only [groupNamed, hname, Option.map_eq_some_iff, List.find?_eq_some_iff_getElem]
  constructor
  · rintro ⟨group, ⟨hfound, i, hi, hget, hbefore⟩, rfl⟩
    have hsome : (matchGroups names captures)[i]? = some group := by
      rw [List.getElem?_eq_getElem hi, hget]
    have hnamed : group.name = some name := by simpa using hfound
    refine ⟨i + 1, by omega, (hgroup i).mp (by rw [hsome, Option.map_some, hnamed]), ?_, ?_⟩
    · intro m hpos hm hother
      obtain ⟨j, rfl⟩ : ∃ j, m = j + 1 := ⟨m - 1, by omega⟩
      have hj : j < i := by omega
      have hsame := (hgroup j).mpr hother
      rw [List.getElem?_eq_getElem (by omega), Option.map_some, Option.some.injEq] at hsame
      simpa [hsame] using hbefore j hj
    · rw [getElem?_matchGroups] at hsome
      obtain ⟨_, -, rfl⟩ := Option.map_eq_some_iff.mp hsome
      rfl
  · rintro ⟨n, hpos, hnamed, hfirst, rfl⟩
    obtain ⟨i, rfl⟩ : ∃ i, n = i + 1 := ⟨n - 1, by omega⟩
    have hget : (matchGroups names captures)[i]? =
        some { name := some name, text := (captures (i + 1)).getD [] } := by
      rw [getElem?_matchGroups, hnamed, Option.map_some]
    obtain ⟨hi, hget⟩ := List.getElem?_eq_some_iff.mp hget
    refine ⟨_, ⟨by simp, i, hi, hget, fun j hj => ?_⟩, rfl⟩
    have hother := mt (hgroup j).mp (hfirst (j + 1) (by omega) (by omega))
    rw [List.getElem?_eq_getElem (by omega), Option.map_some, Option.some.injEq] at hother
    simpa using hother

/-- In the bindings of a glob rule only `*` is a name, and stands for what the `*` has matched. -/
theorem resolveCapture_glob_iff (hrule : abbr.matchKind = some .glob)
    (hmatch : matchRule engine abbr token = some bindings) {name capture : Text} :
    resolveCapture name bindings = some capture ↔ Captured engine abbr token name capture := by
  rw [matchRule, hrule] at hmatch
  obtain ⟨found, hfound, rfl⟩ := Option.map_eq_some_iff.mp hmatch
  have hresolve : resolveCapture name { glob := some found } = some capture ↔
      name = ['*'] ∧ found = capture := by
    by_cases hname : name = globCaptureName
    · simp [resolveCapture, hname, globCaptureName]
    · rw [resolveCapture, if_neg hname]
      exact iff_of_false (Option.some_ne_none _).symm fun h => hname h.1
  rw [hresolve]
  constructor
  · rintro ⟨rfl, rfl⟩
    by_cases hstar : '*' ∈ abbr.key
    · obtain ⟨head, tail, hkey, hhead⟩ := List.eq_append_cons_of_mem hstar
      rw [hkey] at hfound
      obtain ⟨before, after, htoken, hbefore, hafter⟩ := (matchGlobKey_of_star hhead).mp hfound
      exact .star hrule hkey hhead htoken hbefore hafter
    · obtain ⟨-, rfl⟩ := (matchGlobKey_of_not_mem hstar).mp hfound
      exact .noStar hrule hstar
  · intro h
    cases h with
    | star _ hkey hhead htoken hbefore hafter =>
      rw [hkey] at hfound
      have hother := (matchGlobKey_of_star hhead).mpr ⟨_, _, htoken, hbefore, hafter⟩
      exact ⟨rfl, Option.some.inj (hfound.symm.trans hother)⟩
    | noStar _ hstar => exact ⟨rfl, ((matchGlobKey_of_not_mem hstar).mp hfound).2⟩
    | number h => exact absurd (hrule.symm.trans h.kind) (by decide)
    | name h => exact absurd (hrule.symm.trans h.kind) (by decide)

/-- For a regex rule the names are those of the groups of the one match. -/
theorem RegexMatch.captured_iff {regex : engine.Regex} {captures : ℕ → Option Text}
    (h : RegexMatch engine abbr token regex captures) {name capture : Text} :
    Captured engine abbr token name capture ↔ name ≠ ['*'] ∧
      match regexGroupNumber name with
      | some n => n < (engine.captureNames regex).length ∧ (captures n).getD [] = capture
      | none => ∃ n, 1 ≤ n ∧ (engine.captureNames regex)[n]? = some (some name) ∧
          (∀ m, 1 ≤ m → m < n → (engine.captureNames regex)[m]? ≠ some (some name)) ∧
          (captures n).getD [] = capture := by
  have hsame : ∀ {regex' : engine.Regex} {captures' : ℕ → Option Text},
      RegexMatch engine abbr token regex' captures' → regex' = regex ∧ captures' = captures := by
    intro regex' captures' h'
    obtain rfl := Except.ok.inj (h'.compiled.symm.trans h.compiled)
    exact ⟨rfl, Option.some.inj (h'.captured.symm.trans h.captured)⟩
  constructor
  · intro hcaptured
    cases hcaptured with
    | star hglob => exact absurd (h.kind.symm.trans hglob) (by decide)
    | noStar hglob => exact absurd (h.kind.symm.trans hglob) (by decide)
    | @number _ _ n h' hpos hdigit hgroup =>
      obtain ⟨rfl, rfl⟩ := hsame h'
      have hdigits : ∀ n < 10, [Nat.digitChar n] ≠ ['*'] := by decide
      rw [regexGroupNumber_eq_some.mpr ⟨rfl, hpos, hdigit⟩]
      exact ⟨hdigits n (by omega), hgroup, rfl⟩
    | name h' hstar hdigit hpos hgroup hfirst =>
      obtain ⟨rfl, rfl⟩ := hsame h'
      rw [regexGroupNumber_eq_none.mpr hdigit]
      exact ⟨hstar, _, hpos, hgroup, hfirst, rfl⟩
  · rintro ⟨hstar, hgroup⟩
    cases hnumber : regexGroupNumber name with
    | some n =>
      rw [hnumber] at hgroup
      obtain ⟨rfl, hpos, hdigit⟩ := regexGroupNumber_eq_some.mp hnumber
      obtain ⟨hgroup, rfl⟩ := hgroup
      exact .number h hpos hdigit hgroup
    | none =>
      rw [hnumber] at hgroup
      obtain ⟨n, hpos, hgroup, hfirst, rfl⟩ := hgroup
      exact .name h hstar (regexGroupNumber_eq_none.mp hnumber) hpos hgroup hfirst

theorem resolveCapture_regex_iff (hrule : abbr.matchKind = some .regex)
    (hmatch : matchRule engine abbr token = some bindings) {name capture : Text} :
    resolveCapture name bindings = some capture ↔ Captured engine abbr token name capture := by
  obtain ⟨regex, captures, hregex⟩ := exists_regexMatch hrule hmatch
  rw [hregex.captured_iff, hregex.eq_groups hmatch]
  by_cases hstar : name = globCaptureName
  · rw [resolveCapture, if_pos hstar]
    exact iff_of_false (Option.some_ne_none _).symm fun h => h.1 hstar
  rw [resolveCapture_regex hstar rfl, and_iff_right (show name ≠ ['*'] from hstar)]
  cases hnumber : regexGroupNumber name with
  | none => exact groupNamed_matchGroups hnumber
  | some n =>
    obtain ⟨i, rfl⟩ : ∃ i, n = i + 1 := by
      obtain ⟨-, hpos, -⟩ := regexGroupNumber_eq_some.mp hnumber
      exact ⟨n - 1, by omega⟩
    simp only [groupNamed, hnumber, Nat.add_sub_cancel, getElem?_matchGroups, Option.map_map,
      Option.map_eq_some_iff, List.getElem?_eq_some_iff]
    constructor
    · rintro ⟨_, ⟨hgroup, -⟩, rfl⟩
      exact ⟨hgroup, rfl⟩
    · rintro ⟨hgroup, rfl⟩
      exact ⟨_, ⟨hgroup, rfl⟩, rfl⟩

/-- The bindings of a match know what its placeholders stand for, and nothing else. -/
theorem resolveCapture_eq_some_iff (hkind : abbr.matchKind ≠ none)
    (hmatch : matchRule engine abbr token = some bindings) {name capture : Text} :
    resolveCapture name bindings = some capture ↔ Captured engine abbr token name capture := by
  cases hrule : abbr.matchKind with
  | none => exact absurd hrule hkind
  | some kind =>
    cases kind with
    | glob => exact resolveCapture_glob_iff hrule hmatch
    | regex => exact resolveCapture_regex_iff hrule hmatch

/-- The bindings know the names that stand for something. -/
theorem resolves_iff (hkind : abbr.matchKind ≠ none)
    (hmatch : matchRule engine abbr token = some bindings) (name : Text) :
    Resolves bindings name ↔ ∃ capture, Captured engine abbr token name capture := by
  rw [Resolves, resolves, Option.isSome_iff_exists]
  exact exists_congr fun _ => resolveCapture_eq_some_iff hkind hmatch

/-- The groups of a regex match carry the names of the compiled key. -/
theorem name_mem_of_matchRegexKey {key : Text} {groups : List RegexGroup}
    (h : matchRegexKey engine key token = some groups) {group : RegexGroup} (hmem : group ∈ groups)
    {name : Text} (hname : group.name = some name) :
    ∃ regex, compileRegexKey engine key = .ok regex ∧ some name ∈ engine.captureNames regex := by
  unfold matchRegexKey at h
  split at h
  · exact absurd h (by simp)
  · next regex hregex =>
    obtain ⟨captures, -, rfl⟩ := Option.map_eq_some_iff.mp h
    obtain ⟨⟨groupName, i⟩, hin, rfl⟩ := List.mem_map.mp hmem
    have hin := List.fst_mem_of_mem_zipIdx (List.mem_of_mem_drop hin)
    exact ⟨regex, hregex, hname ▸ hin⟩

/-- A name that a pattern rule resolves is `*`, a digit or the name of a group of its key. -/
theorem Resolves.cases (hkind : abbr.matchKind ≠ none)
    (hmatch : matchRule engine abbr token = some bindings) {name : Text}
    (h : Resolves bindings name) :
    name = globCaptureName ∨ (∃ digit, name = [digit] ∧ '1' ≤ digit ∧ digit ≤ '9') ∨
      ∃ regex, compileRegexKey engine abbr.key = .ok regex ∧
        some name ∈ engine.captureNames regex := by
  by_cases hstar : name = globCaptureName
  · exact Or.inl hstar
  refine Or.inr ?_
  unfold matchRule at hmatch
  split at hmatch
  · obtain ⟨_, _, rfl⟩ := Option.map_eq_some_iff.mp hmatch
    simp [Resolves, resolves, resolveCapture, hstar] at h
  · obtain ⟨groups, hgroups, rfl⟩ := Option.map_eq_some_iff.mp hmatch
    obtain ⟨capture, hcapture⟩ := Option.isSome_iff_exists.mp h
    rw [resolveCapture_regex hstar rfl] at hcapture
    obtain ⟨group, hgroup, -⟩ := Option.map_eq_some_iff.mp hcapture
    have hmem := mem_of_groupNamed hgroup
    unfold groupNamed at hgroup
    split at hgroup
    · next number hnumber => exact Or.inl (eq_singleton_of_regexGroupNumber hnumber)
    · have hname : group.name = some name := by simpa using List.find?_some hgroup
      exact Or.inr (name_mem_of_matchRegexKey hgroups hmem hname)
  · next hnone => exact absurd hnone hkind

/-- A character of a name that resolves is one of `*`, the digits and the characters of the group
    names. -/
theorem Resolves.not_mem {c : Char} (hstar : c ≠ '*') (hdigit : ¬ ('1' ≤ c ∧ c ≤ '9'))
    (hnames : ∀ pattern regex, engine.build pattern = .ok regex →
      ∀ name, some name ∈ engine.captureNames regex → c ∉ name)
    (hkind : abbr.matchKind ≠ none) (hmatch : matchRule engine abbr token = some bindings)
    {name : Text} (h : Resolves bindings name) : c ∉ name := by
  rcases h.cases hkind hmatch with rfl | ⟨digit, rfl, hrange⟩ | ⟨regex, hbuild, hin⟩
  · simpa [globCaptureName] using hstar
  · rw [List.mem_singleton]
    rintro rfl
    exact hdigit hrange
  · exact hnames _ regex hbuild name hin

/-- No name that resolves has a brace. -/
theorem Resolves.not_brace (hnames : engine.NamesFreeOfBraces) (hkind : abbr.matchKind ≠ none)
    (hmatch : matchRule engine abbr token = some bindings) {name : Text}
    (h : Resolves bindings name) : '{' ∉ name ∧ '}' ∉ name :=
  ⟨h.not_mem (by decide) (by decide) (fun _ regex hbuild _ hin => (hnames _ regex hbuild _ hin).1)
      hkind hmatch,
    h.not_mem (by decide) (by decide) (fun _ regex hbuild _ hin => (hnames _ regex hbuild _ hin).2)
      hkind hmatch⟩

/-- No name that resolves has a space. -/
theorem Resolves.not_space (hnames : engine.NamesFreeOfSpaces) (hkind : abbr.matchKind ≠ none)
    (hmatch : matchRule engine abbr token = some bindings) {name : Text}
    (h : Resolves bindings name) : ' ' ∉ name :=
  h.not_mem (by decide) (by decide) hnames hkind hmatch

/-- A template cut as a whole, or on each side of its first cursor placeholder. -/
inductive CutTemplate (known : Text → Prop) (template : Text) :
    List Piece → Option (List Piece) → Prop where
  | whole {pieces : List Piece} (hsplit : splitOnce cursorPlaceholder template = none)
      (h : Cuts known template pieces) : CutTemplate known template pieces none
  | around {left right : Text} {before after : List Piece}
      (hsplit : splitOnce cursorPlaceholder template = some (left, right))
      (hleft : Cuts known left before) (hright : Cuts known right after) :
      CutTemplate known template before (some after)

/-- The text of a cut template whose placeholders have got what they stand for, and its cursor: at
    the length of the left side. -/
inductive FillsTemplate (stands : Text → Text → Prop) :
    List Piece → Option (List Piece) → Text × Option ℕ → Prop where
  | whole {pieces : List Piece} {text : Text} (h : Fills stands pieces text) :
      FillsTemplate stands pieces none (text, none)
  | around {before after : List Piece} {left right : Text} (hleft : Fills stands before left)
      (hright : Fills stands after right) :
      FillsTemplate stands before (some after) (left ++ right, some (byteLen left))

/-- A cut template filled with the captures of the bindings, and its cursor. -/
def filledTemplate (bindings : Bindings) (before : List Piece) (after : Option (List Piece)) :
    Text × Option ℕ :=
  match after with
  | none => (filled bindings before, none)
  | some after =>
    (filled bindings before ++ filled bindings after, some (byteLen (filled bindings before)))

theorem CutTemplate.unique {known : Text → Prop} {template : Text} {before before' : List Piece}
    {after after' : Option (List Piece)} (h : CutTemplate known template before after)
    (h' : CutTemplate known template before' after') : before = before' ∧ after = after' := by
  cases h with
  | whole hsplit hcut =>
    cases h' with
    | whole _ hcut' => exact ⟨hcut.unique hcut', rfl⟩
    | around hsplit' _ _ => exact absurd (hsplit.symm.trans hsplit') (by simp)
  | around hsplit hleft hright =>
    cases h' with
    | whole hsplit' _ => exact absurd (hsplit.symm.trans hsplit') (by simp)
    | around hsplit' hleft' hright' =>
      rw [hsplit, Option.some.injEq, Prod.mk.injEq] at hsplit'
      obtain ⟨rfl, rfl⟩ := hsplit'
      exact ⟨hleft.unique hleft', congrArg some (hright.unique hright')⟩

/-- What the placeholders stand for fills a cut with the captures of the bindings. -/
theorem fills_captured_iff {text : Text} {pieces : List Piece} (hkind : abbr.matchKind ≠ none)
    (hmatch : matchRule engine abbr token = some bindings)
    (h : Cuts (Resolves bindings) text pieces) (result : Text) :
    Fills (Captured engine abbr token) pieces result ↔ result = filled bindings pieces :=
  Placeholder.fills_iff (fun _ _ => (resolveCapture_eq_some_iff hkind hmatch).symm)
    fun name hmem => (resolves_iff hkind hmatch name).mp (h.known_of_slot name hmem)

theorem fillsTemplate_iff {template : Text} {before : List Piece} {after : Option (List Piece)}
    (hkind : abbr.matchKind ≠ none) (hmatch : matchRule engine abbr token = some bindings)
    (h : CutTemplate (Resolves bindings) template before after) (rendered : Text × Option ℕ) :
    FillsTemplate (Captured engine abbr token) before after rendered ↔
      rendered = filledTemplate bindings before after := by
  cases h with
  | whole _ hcut =>
    have hiff := fills_captured_iff hkind hmatch hcut
    refine ⟨fun h => ?_, fun h => h ▸ .whole ((hiff _).mpr rfl)⟩
    cases h with
    | whole hfills => rw [(hiff _).mp hfills]; rfl
  | around _ hleft hright =>
    have hbefore := fills_captured_iff hkind hmatch hleft
    have hafter := fills_captured_iff hkind hmatch hright
    refine ⟨fun h => ?_, fun h => h ▸ .around ((hbefore _).mpr rfl) ((hafter _).mpr rfl)⟩
    cases h with
    | around hfills hfills' => rw [(hbefore _).mp hfills, (hafter _).mp hfills']; rfl

section Match

variable (hnames : engine.NamesFreeOfBraces) (hkind : abbr.matchKind ≠ none)
  (hmatch : matchRule engine abbr token = some bindings)

include hnames hkind hmatch

/-- The scan cuts at the placeholders a match knows. -/
theorem cuts_resolves (text : Text) :
    Cuts (Resolves bindings) text (cut (resolves bindings) text) :=
  Placeholder.cuts_cut (fun _ h => Resolves.not_brace hnames hkind hmatch h) text

theorem exists_cutTemplate (template : Text) :
    ∃ before after, CutTemplate (Resolves bindings) template before after := by
  have hcuts := cuts_resolves hnames hkind hmatch
  cases hsplit : splitOnce cursorPlaceholder template with
  | none => exact ⟨_, none, .whole hsplit (hcuts template)⟩
  | some parts => exact ⟨_, _, .around hsplit (hcuts parts.1) (hcuts parts.2)⟩

/-- A rendering is the cut template, filled, unless that exceeds the cap. -/
theorem renderWithCursor_of_cutTemplate {template : Text} {before : List Piece}
    {after : Option (List Piece)} (h : CutTemplate (Resolves bindings) template before after) :
    renderWithCursor abbr template bindings =
      if byteLen (filledTemplate bindings before after).1 ≤ maxRenderedExpandBytes then
        some (filledTemplate bindings before after)
      else none := by
  have hcuts := cuts_resolves hnames hkind hmatch
  have hnumber : renderNumber abbr template bindings = some template := by
    rw [renderNumber, number_of_matchRule hkind hmatch]
  have hbase : renderBase template bindings = filledTemplate bindings before after := by
    cases h with
    | whole hsplit hcut =>
      rw [renderBase_of_none hsplit, substitute_eq_filled, (hcuts template).unique hcut]
      rfl
    | @around left right _ _ hsplit hleft hright =>
      rw [renderBase_of_some hsplit, substitute_eq_filled, substitute_eq_filled,
        (hcuts left).unique hleft, (hcuts right).unique hright]
      rfl
  rw [renderWithCursor_eq, hnumber, Option.bind_some, hbase]

/-- The rendering fills the cut with what the placeholders stand for. -/
theorem rendering_fills {template : Text} {before : List Piece} {after : Option (List Piece)}
    (h : CutTemplate (Resolves bindings) template before after) :
    ∃ rendered, (∀ other, FillsTemplate (Captured engine abbr token) before after other ↔
        other = rendered) ∧
      renderWithCursor abbr template bindings =
        if byteLen rendered.1 ≤ maxRenderedExpandBytes then some rendered else none :=
  ⟨_, fillsTemplate_iff hkind hmatch h, renderWithCursor_of_cutTemplate hnames hkind hmatch h⟩

end Match

/-- `{name}` stands for something. -/
def Known (engine : RegexLite) (abbr : Abbr) (token name : Text) : Prop :=
  ∃ capture, Captured engine abbr token name capture

theorem resolves_eq_known (hkind : abbr.matchKind ≠ none)
    (hmatch : matchRule engine abbr token = some bindings) :
    Resolves bindings = Known engine abbr token :=
  funext fun name => propext (resolves_iff hkind hmatch name)

/-- **Captured text is data.** For every match of a glob or regex rule and every template: the
    template has exactly one cut at the placeholders that stand for a part of the token, taken on
    each side of its first cursor placeholder; what they stand for fills that cut in one way, and
    the rendering is the filled cut with the cursor at the length of the left side, refused exactly
    when it is longer than the cap; and for every other match in which the same names stand for
    something it is the same cut that is filled. -/
theorem captured_text_is_data (engine : RegexLite) (hnames : engine.NamesFreeOfBraces) (abbr : Abbr)
    (token : Text) (bindings : Bindings) (hkind : abbr.matchKind ≠ none)
    (hmatch : matchRule engine abbr token = some bindings) (template : Text) :
    ∃ before after, CutTemplate (Known engine abbr token) template before after ∧
      (∀ before' after', CutTemplate (Known engine abbr token) template before' after' →
        before = before' ∧ after = after') ∧
      (∃ rendered, (∀ other, FillsTemplate (Captured engine abbr token) before after other ↔
          other = rendered) ∧
        renderWithCursor abbr template bindings =
          if byteLen rendered.1 ≤ maxRenderedExpandBytes then some rendered else none) ∧
      ∀ abbr' token' bindings', abbr'.matchKind ≠ none →
        matchRule engine abbr' token' = some bindings' →
        (∀ name, Known engine abbr' token' name ↔ Known engine abbr token name) →
        CutTemplate (Known engine abbr' token') template before after ∧
        ∃ rendered, (∀ other, FillsTemplate (Captured engine abbr' token') before after other ↔
            other = rendered) ∧
          renderWithCursor abbr' template bindings' =
            if byteLen rendered.1 ≤ maxRenderedExpandBytes then some rendered else none := by
  obtain ⟨before, after, hcut⟩ := exists_cutTemplate hnames hkind hmatch template
  have hrendering := rendering_fills hnames hkind hmatch hcut
  rw [resolves_eq_known hkind hmatch] at hcut
  refine ⟨before, after, hcut, fun _ _ => hcut.unique, hrendering, ?_⟩
  intro abbr' token' bindings' hkind' hmatch' hsame
  have hknown : Known engine abbr' token' = Known engine abbr token :=
    funext fun name => propext (hsame name)
  have hcut' : CutTemplate (Known engine abbr' token') template before after := hknown ▸ hcut
  refine ⟨hcut', rendering_fills hnames hkind' hmatch' ?_⟩
  rw [resolves_eq_known hkind' hmatch']
  exact hcut'

/-- The rule `g*` with the template `x{*}{}y`, for the tokens `g{}` and `g{*}`: the braces stay, and
    the cursor is after what the `*` has matched. -/
theorem captured_text_is_data_braces :
    let abbr : Abbr := { key := ['g', '*'], expand := .all [], matchKind := some .glob }
    let template : Text := ['x', '{', '*', '}', '{', '}', 'y']
    renderWithCursor abbr template { glob := some ['{', '}'] } =
        some (['x', '{', '}', 'y'], some 3) ∧
      renderWithCursor abbr template { glob := some ['{', '*', '}'] } =
        some (['x', '{', '*', '}', 'y'], some 4) := by
  intro abbr template
  have hnames : RegexLite.NamesFreeOfBraces default := fun _ regex => regex.elim
  have hstar : ∀ capture, Captured default abbr ('g' :: capture) ['*'] capture := fun capture =>
    .star rfl rfl (by decide : '*' ∉ ['g']) (by simp : 'g' :: capture = ['g'] ++ (capture ++ []))
      (.cons (.inr rfl) .nil) .nil
  have hknown : ∀ capture name, Known default abbr ('g' :: capture) name ↔ (name == ['*']) = true := by
    intro capture name
    rw [beq_iff_eq]
    refine ⟨fun ⟨_, h⟩ => ?_, fun h => ⟨capture, h ▸ hstar capture⟩⟩
    cases h with
    | star | noStar => rfl
    | number h | name h => cases h.kind
  have hcuts : ∀ text, Cuts (fun name => (name == ['*']) = true) text (cut (· == ['*']) text) :=
    Placeholder.cuts_cut fun name hname => by rw [beq_iff_eq] at hname; subst hname; decide
  obtain ⟨before, after, -, hunique, ⟨rendered, hfills, hrender⟩, hother⟩ :=
    captured_text_is_data default hnames abbr ['g', '{', '}'] { glob := some ['{', '}'] } (by decide)
      (by decide +kernel) template
  obtain ⟨rfl, rfl⟩ := hunique [.char 'x', .slot ['*']] (some [.char 'y']) <| by
    rw [show Known default abbr ['g', '{', '}'] = fun name => (name == ['*']) = true from
      funext fun name => propext (hknown _ name)]
    exact .around rfl (hcuts ['x', '{', '*', '}']) (hcuts ['y'])
  obtain ⟨-, rendered', hfills', hrender'⟩ :=
    hother abbr ['g', '{', '*', '}'] { glob := some ['{', '*', '}'] } (by decide) (by decide +kernel)
      fun name => (hknown _ name).trans (hknown _ name).symm
  obtain rfl := (hfills _).mp (.around (.char 'x' (.slot (hstar _) .nil)) (.char 'y' .nil))
  obtain rfl := (hfills' _).mp (.around (.char 'x' (.slot (hstar _) .nil)) (.char 'y' .nil))
  exact ⟨hrender, hrender'⟩

end Runex
