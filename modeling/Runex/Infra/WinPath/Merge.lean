import Runex.Infra.WinPath.Cap

/-!
# The merged search path

The merged string is put together entry by entry, and it carries the ordered union of the entries
pushed so far. That holds of the entries that are pushed; the string splits into the same entries
exactly if none of them has a separator of its own, which an expanded variable can bring in.

## Main definitions

- `PathSources.candidates` — the entries that are to be merged, in their order
- `IsMerged` — the string is their ordered union

## Main results

- `absorb_carries` — what one source adds
- `effectiveSearchPath_spec` — the merged string is the ordered union exactly if every registry
  value can be read and no entry of it has a separator after expansion
-/

namespace Runex

open EntryList Search Text

-- ════════════════════════════════════════════════════════════════════════
-- Segments and keys
-- ════════════════════════════════════════════════════════════════════════

/-- The pieces after the loop: those split off, and the rest. -/
def closeSplit (wide : Wide) (split : List Wide × ℕ) : List Wide := split.1 ++ [wide.drop split.2]

/-- The loop splits at every separator. The piece that is being read starts after `pre`. -/
theorem closeSplit_foldl {wide : Wide} (pre cur rest : Wide) (out : List Wide)
    (hwide : wide = pre ++ (cur ++ rest)) (hcur : wideSemicolon ∉ cur) :
    closeSplit wide ((rest.zipIdx (pre.length + cur.length)).foldl (splitPathStep wide)
      (out, pre.length)) = out ++ (cur ++ rest).splitOn wideSemicolon := by
  induction rest generalizing pre cur out with
  | nil => simp [closeSplit, hwide, List.splitOn_eq_singleton hcur]
  | cons w rest ih =>
    rw [List.zipIdx_cons, List.foldl_cons]
    by_cases hw : w = wideSemicolon
    · have hstep : splitPathStep wide (out, pre.length) (w, pre.length + cur.length) =
          (out ++ [cur], (pre ++ cur ++ [w]).length) := by
        simp [splitPathStep, hw, hwide, Nat.add_assoc]
      have hnext : pre.length + cur.length + 1 =
          (pre ++ cur ++ [w]).length + ([] : Wide).length := by simp; omega
      rw [hstep, hnext, ih _ [] _ (by simp [hwide]) List.not_mem_nil, hw,
        List.splitOn_append_cons_self, List.splitOn_eq_singleton hcur, List.append_assoc]
      rfl
    · have hstep : splitPathStep wide (out, pre.length) (w, pre.length + cur.length) =
          (out, pre.length) := by
        simp [splitPathStep, hw]
      have hnext : pre.length + cur.length + 1 = pre.length + (cur ++ [w]).length := by
        simp [Nat.add_assoc]
      rw [hstep, hnext, ih pre (cur ++ [w]) out (by simp [hwide]) (by simp [hcur, Ne.symm hw])]
      simp

theorem splitPathEnv_eq (wide : Wide) : splitPathEnv wide = wide.splitOn wideSemicolon :=
  closeSplit_foldl [] [] wide [] rfl List.not_mem_nil

/-- Folding a unit makes no separator. -/
theorem foldUnit_eq_semicolon {c : UInt16} : foldUnit c = wideSemicolon ↔ c = wideSemicolon := by
  have hascii : ∀ n < 128, foldUnit (UInt16.ofNat n) = wideSemicolon ↔
      UInt16.ofNat n = wideSemicolon := by decide
  by_cases hc : c < 128
  · have h := hascii c.toNat (UInt16.lt_iff_toNat_lt.mp hc)
    rwa [UInt16.ofNat_toNat] at h
  · rw [foldUnit, if_neg hc]

/-- Folding keeps the separators. -/
theorem semicolon_mem_foldKey {seg : Wide} : wideSemicolon ∈ foldKey seg ↔ wideSemicolon ∈ seg := by
  simp [foldKey, foldUnit_eq_semicolon]

-- ════════════════════════════════════════════════════════════════════════
-- References to variables
-- ════════════════════════════════════════════════════════════════════════

section References

variable (var : Text → Option Text) (out : Text) {before name rest : Text}

/-- Text without a `%` stays. -/
theorem expandEnvVarsLoop_of_not_mem (h : '%' ∉ rest) :
    expandEnvVarsLoop var out rest = out ++ rest := by
  rw [expandEnvVarsLoop]
  split
  · rfl
  · next hsplit =>
    rw [splitOnce_singleton_eq_none.mpr h] at hsplit
    cases hsplit

/-- A reference gives way to the value of its variable, which is not read again. -/
theorem expandEnvVarsLoop_reference (hbefore : '%' ∉ before) (hname : '%' ∉ name) :
    expandEnvVarsLoop var out (before ++ '%' :: (name ++ '%' :: rest)) =
      expandEnvVarsLoop var (out ++ before ++ expandedVar var name) rest := by
  have hstart : splitOnce ['%'] (before ++ '%' :: (name ++ '%' :: rest)) =
      some (before, name ++ '%' :: rest) := splitOnce_singleton_eq_some.mpr ⟨rfl, hbefore⟩
  have hend : splitOnce ['%'] (name ++ '%' :: rest) = some (name, rest) :=
    splitOnce_singleton_eq_some.mpr ⟨rfl, hname⟩
  rw [expandEnvVarsLoop]
  split
  · next hsplit =>
    rw [hstart] at hsplit
    cases hsplit
  · next hsplit =>
    rw [hstart, Option.some.injEq, Prod.mk.injEq] at hsplit
    obtain ⟨rfl, rfl⟩ := hsplit
    split
    · next hsplit =>
      rw [hend, Option.some.injEq, Prod.mk.injEq] at hsplit
      obtain ⟨rfl, rfl⟩ := hsplit
      rfl
    · next hsplit =>
      rw [hend] at hsplit
      cases hsplit

end References

-- ════════════════════════════════════════════════════════════════════════
-- What is to be merged
-- ════════════════════════════════════════════════════════════════════════

/-- The entries of the `PATH` of the process. -/
def processEntries (path : Option Wide) : List Wide :=
  match path with
  | some path => path.splitOn wideSemicolon
  | none => []

/-- The entries of a registry value: the first 256 of what is read of it, expanded. -/
def registryEntries (var : Text → Option Text) (value : Option Text) : List Wide :=
  match readRegistryPath value with
  | some (some raw) => ((raw.splitOn ';').take maxPathEntries).map (expandEnvVars var)
  | _ => []

/-- The entries that are to be merged: of the process, then the user, then the system. -/
def PathSources.candidates (sources : PathSources) : List Wide :=
  processEntries sources.path ++ registryEntries sources.var sources.user ++
    registryEntries sources.var sources.system

/-- The entries of a merged path. An empty string has none. -/
def EffectiveSearchPath.entries (found : EffectiveSearchPath) : List Wide :=
  EntryList.entries wideSemicolon found.combined

/-- A merged path is the ordered union of its sources up to ASCII case. -/
structure IsMerged (sources : PathSources) (found : EffectiveSearchPath) : Prop where
  nonempty : ∀ entry ∈ found.entries, entry ≠ []
  /-- No two entries have one key, and the first of each key is there, in its place. -/
  union : OrderedUnion foldKey (sources.candidates.filter (· ≠ [])) found.entries
  present : ∀ entry ∈ registryEntries sources.var sources.user ++
    registryEntries sources.var sources.system,
    entry ≠ [] → ∃ merged ∈ found.entries, foldKey merged = foldKey entry
  total : found.fromProcess + found.fromUserRegistry + found.fromSystemRegistry =
    found.entries.length

-- ════════════════════════════════════════════════════════════════════════
-- One entry after the other
-- ════════════════════════════════════════════════════════════════════════

/-- The string was put together from `pieces`, which are the ordered union of `candidates`. -/
structure Merge.Carries (merge : Merge) (candidates pieces : List Wide) : Prop where
  dst : merge.dst = [wideSemicolon].intercalate pieces
  seen : ∀ key, key ∈ merge.seen ↔ ∃ piece ∈ pieces, foldKey piece = key
  nonempty : ∀ piece ∈ pieces, piece ≠ []
  union : OrderedUnion foldKey (candidates.filter (· ≠ [])) pieces

theorem Merge.carries_empty : Merge.empty.Carries [] [] where
  dst := rfl
  seen key := by simp [Merge.empty]
  nonempty piece h := absurd h List.not_mem_nil
  union := OrderedUnion.nil

variable {merge : Merge} {candidates pieces : List Wide}

/-- An entry that is left out. -/
theorem Merge.Carries.skip {seg : Wide} (h : merge.Carries candidates pieces)
    (hskip : seg = [] ∨ foldKey seg ∈ merge.seen) : merge.Carries (candidates ++ [seg]) pieces := by
  refine ⟨h.dst, h.seen, h.nonempty, ?_⟩
  by_cases hseg : seg = []
  · have hfilter : (candidates ++ [seg]).filter (· ≠ []) = candidates.filter (· ≠ []) := by
      simp [hseg]
    rw [hfilter]
    exact h.union
  · have hfilter : (candidates ++ [seg]).filter (· ≠ []) = candidates.filter (· ≠ []) ++ [seg] := by
      simp [hseg]
    rw [hfilter]
    exact h.union.push_seen ((h.seen (foldKey seg)).mp (hskip.resolve_left hseg))

/-- The string after one more entry. -/
theorem Merge.Carries.dst_push {seg : Wide} (h : merge.Carries candidates pieces) :
    (if merge.dst ≠ [] then merge.dst ++ [wideSemicolon] else merge.dst) ++ seg =
      [wideSemicolon].intercalate (pieces ++ [seg]) := by
  by_cases hpieces : pieces = []
  · have hdst : merge.dst = [] := by rw [h.dst, hpieces]; rfl
    simp [hdst, hpieces]
  · have hdst : merge.dst ≠ [] := h.dst ▸ intercalate_ne_nil hpieces h.nonempty
    rw [if_pos hdst, h.dst, intercalate_concat seg hpieces]

/-- A new entry. -/
theorem Merge.Carries.push {seg : Wide} (h : merge.Carries candidates pieces) (hseg : seg ≠ [])
    (hkey : foldKey seg ∉ merge.seen) :
    (pushDedup seg merge).1.Carries (candidates ++ [seg]) (pieces ++ [seg]) := by
  have hfilter : (candidates ++ [seg]).filter (· ≠ []) = candidates.filter (· ≠ []) ++ [seg] := by
    simp [hseg]
  simp only [pushDedup, if_neg hseg, if_pos hkey]
  refine ⟨h.dst_push, fun key => ?_, ?_, ?_⟩
  · simp only [Finset.mem_insert, h.seen, List.mem_append, List.mem_singleton]
    constructor
    · rintro (rfl | ⟨piece, hpiece, rfl⟩)
      · exact ⟨seg, Or.inr rfl, rfl⟩
      · exact ⟨piece, Or.inl hpiece, rfl⟩
    · rintro ⟨piece, hpiece | rfl, rfl⟩
      · exact Or.inr ⟨piece, hpiece, rfl⟩
      · exact Or.inl rfl
  · intro piece hpiece
    rcases List.mem_append.mp hpiece with hmem | hmem
    · exact h.nonempty piece hmem
    · rwa [List.mem_singleton.mp hmem]
  · rw [hfilter]
    exact h.union.push_new fun piece hpiece heq => hkey ((h.seen _).mpr ⟨piece, hpiece, heq⟩)

/-- One entry more: it is a new piece, or the pieces stay. -/
theorem pushDedup_carries (h : merge.Carries candidates pieces) (seg : Wide) :
    ∃ new, (pushDedup seg merge).1.Carries (candidates ++ [seg]) (pieces ++ new) ∧
      new.length = if (pushDedup seg merge).2 then 1 else 0 := by
  by_cases hseg : seg = []
  · refine ⟨[], ?_, by simp [pushDedup, hseg]⟩
    rw [pushDedup, if_pos hseg, List.append_nil]
    exact h.skip (Or.inl hseg)
  · by_cases hkey : foldKey seg ∈ merge.seen
    · refine ⟨[], ?_, by simp [pushDedup, hseg, hkey]⟩
      rw [pushDedup, if_neg hseg, if_neg (not_not.mpr hkey), List.append_nil]
      exact h.skip (Or.inr hkey)
    · exact ⟨[seg], h.push hseg hkey, by simp [pushDedup, hseg, hkey]⟩

/-- The entries of a source from any count on. -/
theorem foldl_absorbStep_carries (segs : List Wide) (state : Merge × ℕ)
    (h : state.1.Carries candidates pieces) :
    ∃ new, (segs.foldl absorbStep state).1.Carries (candidates ++ segs) (pieces ++ new) ∧
      (segs.foldl absorbStep state).2 = state.2 + new.length := by
  induction segs generalizing state candidates pieces with
  | nil => exact ⟨[], by simpa using h, rfl⟩
  | cons seg segs ih =>
    obtain ⟨first, hfirst, hcount⟩ := pushDedup_carries h seg
    obtain ⟨new, hnew, hadded⟩ := ih (absorbStep state seg) hfirst
    have hstep : (absorbStep state seg).2 = state.2 + first.length := by
      rw [hcount]
      show (if (pushDedup seg state.1).2 then state.2 + 1 else state.2) = _
      split
      · rfl
      · rfl
    refine ⟨first ++ new, ?_, ?_⟩
    · simpa using hnew
    · rw [List.foldl_cons, hadded, hstep, List.length_append, Nat.add_assoc]

/-- One source: its new entries are counted. -/
theorem absorb_carries (h : merge.Carries candidates pieces) (segs : List Wide) :
    ∃ new, (absorb segs merge).1.Carries (candidates ++ segs) (pieces ++ new) ∧
      (absorb segs merge).2 = new.length := by
  obtain ⟨new, hnew, hadded⟩ := foldl_absorbStep_carries segs (merge, 0) h
  exact ⟨new, hnew, hadded.trans (Nat.zero_add _)⟩

/-- One registry value, where it can be read. -/
theorem absorbRegistryPath_eq (var : Text → Option Text) (value : Option Text) (merge : Merge) :
    absorbRegistryPath var value merge =
      (readRegistryPath value).map fun _ => absorb (registryEntries var value) merge := by
  rw [absorbRegistryPath, registryEntries]
  rcases readRegistryPath value with _ | _ | raw
  · rfl
  · rfl
  · rfl

theorem absorbProcessPath_eq (path : Option Wide) :
    absorbProcessPath path = absorb (processEntries path) Merge.empty := by
  cases path with
  | none => rfl
  | some path => rw [absorbProcessPath, splitPathEnv_eq]; rfl

/-- The merged path carries the candidates, where the registry values can be read. -/
theorem effectiveSearchPath_carries {sources : PathSources} {found : EffectiveSearchPath}
    (h : effectiveSearchPath sources = some found) :
    ∃ (merge : Merge) (pieces : List Wide),
      merge.Carries sources.candidates pieces ∧ found.combined = merge.dst ∧
      found.fromProcess + found.fromUserRegistry + found.fromSystemRegistry = pieces.length := by
  simp only [effectiveSearchPath, absorbProcessPath_eq, absorbRegistryPath_eq, Option.bind_eq_bind,
    Option.bind_eq_some_iff, Option.map_eq_some_iff] at h
  obtain ⟨_, ⟨-, -, rfl⟩, _, ⟨-, -, rfl⟩, hfound⟩ := h
  obtain ⟨process, hprocess, hfirst⟩ :=
    absorb_carries Merge.carries_empty (processEntries sources.path)
  obtain ⟨user, huser, hsecond⟩ :=
    absorb_carries hprocess (registryEntries sources.var sources.user)
  obtain ⟨system, hsystem, hthird⟩ :=
    absorb_carries huser (registryEntries sources.var sources.system)
  obtain rfl := Option.some.inj hfound
  refine ⟨_, _, hsystem, rfl, ?_⟩
  rw [List.nil_append, List.length_append, List.length_append, ← hfirst, ← hsecond, ← hthird]

-- ════════════════════════════════════════════════════════════════════════
-- The merged string
-- ════════════════════════════════════════════════════════════════════════

/-- A registry value that can be read: it fits, or byte 65536 is where a character starts. -/
def CanBeRead (value : Option Text) : Prop :=
  ∀ v ∈ value, byteLen v ≤ maxRegistryPathBytes ∨ IsBoundary v maxRegistryPathBytes

theorem exists_readRegistryPath_iff {value : Option Text} :
    (∃ read, readRegistryPath value = some read) ↔ CanBeRead value := by
  cases value with
  | none => simp [readRegistryPath, CanBeRead]
  | some v => simp [readRegistryPath, CanBeRead, ← exists_capRegistryValue_iff]

/-- There is a result exactly if both values can be read. -/
theorem exists_effectiveSearchPath_iff {sources : PathSources} :
    (∃ found, effectiveSearchPath sources = some found) ↔
      CanBeRead sources.user ∧ CanBeRead sources.system := by
  simp only [effectiveSearchPath, absorbRegistryPath_eq, Option.bind_eq_bind,
    Option.bind_eq_some_iff, Option.map_eq_some_iff, ← exists_readRegistryPath_iff]
  constructor
  · rintro ⟨_, _, ⟨user, huser, rfl⟩, _, ⟨system, hsystem, rfl⟩, -⟩
    exact ⟨⟨user, huser⟩, ⟨system, hsystem⟩⟩
  · rintro ⟨⟨user, huser⟩, ⟨system, hsystem⟩⟩
    exact ⟨_, _, ⟨user, huser, rfl⟩, _, ⟨system, hsystem, rfl⟩, rfl⟩

/-- Only on Windows there may be no result. -/
theorem searchPathFor_eq_none_iff {windows : Bool} {sources : PathSources} :
    searchPathFor windows sources = none ↔
      windows = true ∧ ¬ (CanBeRead sources.user ∧ CanBeRead sources.system) := by
  rw [searchPathFor, ← exists_effectiveSearchPath_iff, ← Option.isSome_iff_exists,
    Option.not_isSome_iff_eq_none]
  cases windows with
  | false => simp
  | true => simp

/-- An entry of the registry is a candidate. -/
theorem mem_candidates {sources : PathSources} {entry : Wide}
    (h : entry ∈ registryEntries sources.var sources.user ++
      registryEntries sources.var sources.system) : entry ∈ sources.candidates := by
  rw [PathSources.candidates, List.append_assoc]
  exact List.mem_append_right _ h

/-- Each candidate is carried, up to ASCII case. -/
theorem Merge.Carries.present {entry : Wide} (h : merge.Carries candidates pieces)
    (hmem : entry ∈ candidates) (hne : entry ≠ []) :
    ∃ piece ∈ pieces, foldKey piece = foldKey entry :=
  h.union.covers (List.mem_filter.mpr ⟨hmem, decide_eq_true hne⟩)

/-- A separator in an entry makes more entries of the string than were counted. -/
theorem Merge.Carries.length_lt {entry : Wide} (h : merge.Carries candidates pieces)
    (hmem : entry ∈ candidates) (hsep : wideSemicolon ∈ entry) :
    pieces.length < (EntryList.entries wideSemicolon merge.dst).length := by
  obtain ⟨piece, hpiece, hkey⟩ := h.present hmem (List.ne_nil_of_mem hsep)
  have hpiecesep : wideSemicolon ∈ piece := by
    rwa [← semicolon_mem_foldKey, hkey, semicolon_mem_foldKey]
  rw [h.dst, entries_intercalate h.nonempty]
  exact length_lt_flatMap_splitOn hpiece hpiecesep

/-- Without a separator in a candidate the entries of the string are the pieces. -/
theorem Merge.Carries.entries_eq (h : merge.Carries candidates pieces)
    (hsep : ∀ entry ∈ candidates, wideSemicolon ∉ entry) :
    EntryList.entries wideSemicolon merge.dst = pieces := by
  rw [h.dst, entries_intercalate h.nonempty]
  refine flatMap_splitOn_eq fun piece hpiece => hsep piece ?_
  exact List.mem_of_mem_filter (h.union.sublist.subset hpiece)

/-- The separators come from the registry. -/
theorem semicolon_not_mem_candidates {sources : PathSources}
    (h : ∀ entry ∈ registryEntries sources.var sources.user ++
      registryEntries sources.var sources.system, wideSemicolon ∉ entry) :
    ∀ entry ∈ sources.candidates, wideSemicolon ∉ entry := by
  intro entry hentry
  rw [PathSources.candidates, List.append_assoc] at hentry
  rcases List.mem_append.mp hentry with hprocess | hregistry
  · cases hpath : sources.path with
    | none =>
      rw [hpath] at hprocess
      exact absurd hprocess List.not_mem_nil
    | some path =>
      rw [hpath] at hprocess
      exact not_mem_of_mem_splitOn entry hprocess
  · exact h entry hregistry

theorem not_isMerged_of_separator {sources : PathSources} {found : EffectiveSearchPath}
    {entry : Wide}
    (h : effectiveSearchPath sources = some found)
    (hmem : entry ∈ registryEntries sources.var sources.user ++
      registryEntries sources.var sources.system)
    (hsep : wideSemicolon ∈ entry) : ¬ IsMerged sources found := by
  intro hmerged
  obtain ⟨merge, pieces, hcarries, hcombined, htotal⟩ := effectiveSearchPath_carries h
  have hlt := hcarries.length_lt (mem_candidates hmem) hsep
  have hcount := hmerged.total
  rw [htotal, EffectiveSearchPath.entries, hcombined] at hcount
  omega

theorem isMerged_of_no_separator {sources : PathSources} {found : EffectiveSearchPath}
    (h : effectiveSearchPath sources = some found)
    (hsep : ∀ entry ∈ registryEntries sources.var sources.user ++
      registryEntries sources.var sources.system, wideSemicolon ∉ entry) :
    IsMerged sources found := by
  obtain ⟨merge, pieces, hcarries, hcombined, htotal⟩ := effectiveSearchPath_carries h
  have hentries : found.entries = pieces := by
    rw [EffectiveSearchPath.entries, hcombined]
    exact hcarries.entries_eq (semicolon_not_mem_candidates hsep)
  constructor
  · rw [hentries]
    exact hcarries.nonempty
  · rw [hentries]
    exact hcarries.union
  · intro entry hentry hne
    rw [hentries]
    exact hcarries.present (mem_candidates hentry) hne
  · rw [hentries]
    exact htotal

/-- The merged path is the ordered union of its sources exactly if both registry values can be read
    and none of the first 256 entries of either has a separator after expansion. -/
theorem effectiveSearchPath_spec (sources : PathSources) :
    (∃ found, effectiveSearchPath sources = some found ∧ IsMerged sources found) ↔
      CanBeRead sources.user ∧ CanBeRead sources.system ∧
        ∀ entry ∈ registryEntries sources.var sources.user ++
          registryEntries sources.var sources.system, wideSemicolon ∉ entry := by
  rw [← and_assoc, ← exists_effectiveSearchPath_iff]
  constructor
  · rintro ⟨found, hfound, hmerged⟩
    exact ⟨⟨found, hfound⟩, fun entry hmem hsep =>
      not_isMerged_of_separator hfound hmem hsep hmerged⟩
  · rintro ⟨⟨found, hfound⟩, hsep⟩
    exact ⟨found, hfound, isMerged_of_no_separator hfound hsep⟩

/-- An empty entry and one that differs in case only are left out. -/
example : effectiveSearchPath
    { path := some (encodeWide "C:\\A;;c:\\a;B".toList), user := none, system := none,
      var := fun _ => none } =
    some { combined := encodeWide "C:\\A;B".toList, fromProcess := 2, fromUserRegistry := 0,
           fromSystemRegistry := 0 } := by
  decide

/-- The user's value refers to a variable that holds two directories. -/
def twoDirs : PathSources where
  path := none
  user := some "%X%".toList
  system := none
  var name := if name = "X".toList then some "a;b".toList else none

theorem registryEntries_twoDirs :
    registryEntries twoDirs.var twoDirs.user = [encodeWide "a;b".toList] := by
  have hread : readRegistryPath twoDirs.user = some (some "%X%".toList) := by decide
  have hsplit : ("%X%".toList.splitOn ';').take maxPathEntries = ["%X%".toList] := by decide
  have hvar : expandedVar twoDirs.var "X".toList = "a;b".toList := by decide
  have hexpand : expandEnvVars twoDirs.var "%X%".toList = encodeWide "a;b".toList := by
    show encodeWide (expandEnvVarsLoop twoDirs.var [] ([] ++ '%' :: ("X".toList ++ '%' :: []))) = _
    rw [expandEnvVarsLoop_reference _ _ List.not_mem_nil (by decide), hvar,
      expandEnvVarsLoop_of_not_mem _ _ List.not_mem_nil]
    rfl
  rw [registryEntries, hread]
  simp only [hsplit, List.map_singleton, hexpand]

theorem twoDirs_not_merged : ¬ ∀ sources : PathSources,
    ∃ found, effectiveSearchPath sources = some found ∧ IsMerged sources found := by
  intro hall
  obtain ⟨found, hfound, hmerged⟩ := hall twoDirs
  have hmem : encodeWide "a;b".toList ∈ registryEntries twoDirs.var twoDirs.user ++
      registryEntries twoDirs.var twoDirs.system := by
    rw [registryEntries_twoDirs]
    exact List.mem_append_left _ (List.mem_singleton_self _)
  exact not_isMerged_of_separator hfound hmem (by decide) hmerged

end Runex
