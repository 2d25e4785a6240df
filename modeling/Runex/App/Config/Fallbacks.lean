import Runex.App.Config.Issues
import Runex.Domain.Expand.Number
import Runex.Domain.Expand.Placeholder

/-!
# Validation makes the runtime fallbacks unreachable

Matching and rendering keep going on keys, units and placeholders they do not understand. For a
rule of an accepted configuration none of these branches is taken.

## Main definitions

- `RegexLite.Documented` — what is assumed of the regular-expression engine

## Main results

- `splitOnceNumberPlaceholder_of_accepted` — a key with a brace splits at its one `{number}`
- `render_number_of_accepted` — a `{number}` rule has a unit, and its repetition fits
- `group_replaced_of_accepted` — every `{N}` of a template is replaced by group `N`
- `fallbacks_unreachable` — all of it, for one rule
-/

namespace Runex

open Search
open Text (byteLen)

/-- What is assumed of the engine: the wrapping `^(?:…)$` adds no capture group, and the name of
    a group has no brace. -/
structure RegexLite.Documented (engine : RegexLite) : Prop where
  wrap_captureNames : ∀ key alone wrapped, engine.build key = .ok alone →
    engine.build (wrapRegexKey key) = .ok wrapped →
    engine.captureNames wrapped = engine.captureNames alone
  name_free_of_braces : ∀ pattern regex, engine.build pattern = .ok regex →
    ∀ name, some name ∈ engine.captureNames regex → '{' ∉ name ∧ '}' ∉ name

variable {engine : RegexLite} {abbr : Abbr} {token : Text}

/-- Stripping every `{number}` leaves no brace and there is at most one: the key splits at it, and
    no brace is left over. -/
theorem splitOnceNumberPlaceholder_of_accepted (h : RuleAccepted engine abbr)
    (hkind : abbr.matchKind = none) (hbrace : '{' ∈ abbr.key) :
    ∃ pre suf, splitOnceNumberPlaceholder abbr.key = some (pre, suf) := by
  have hhas : hasBrace abbr = true := by simp [hasBrace, hkind, hbrace]
  obtain ⟨hstripped, hcount⟩ := h.placeholder hhas
  rw [numberCount, if_pos hhas] at hcount
  cases hsplit : splitOnce numberPlaceholder abbr.key with
  | none =>
    rw [replaceAll_of_absent (splitOnce_eq_none.mp hsplit)] at hstripped
    exact absurd hbrace hstripped
  | some parts =>
    obtain ⟨pre, suf⟩ := parts
    rw [countMatches_of_splitOnce numberPlaceholder_ne_nil hsplit] at hcount
    have hsuf : ¬ numberPlaceholder <:+: suf := fun hsub => by
      have := countMatches_pos numberPlaceholder_ne_nil hsub
      omega
    rw [replaceAll_of_splitOnce numberPlaceholder_ne_nil hsplit, replaceAll_of_absent hsuf]
      at hstripped
    simp only [List.nil_append, List.mem_append] at hstripped
    exact ⟨pre, suf, by rw [splitOnceNumberPlaceholder, hsplit]; simp only [hstripped, if_false]⟩

/-- A match of a key that splits binds a count between 1 and 128. -/
theorem matchAbbrKey_number {key token pre suf : Text} {bindings : Bindings}
    (hbrace : '{' ∈ key) (hsplit : splitOnceNumberPlaceholder key = some (pre, suf))
    (h : matchAbbrKey key token = some bindings) :
    ∃ n, bindings = { number := some n } ∧ 1 ≤ n ∧ n ≤ maxNumericRepeat := by
  obtain ⟨digits, -, -, hpos, hle, rfl⟩ := (matchAbbrKey_eq_some hbrace hsplit).mp h
  exact ⟨_, rfl, hpos, hle⟩

/-- A key with `{number}` that passes the checks counts one placeholder. -/
theorem numberCount_pos (h : RuleAccepted engine abbr) (hkind : abbr.matchKind = none)
    (hbrace : '{' ∈ abbr.key) : 1 ≤ numberCount abbr := by
  obtain ⟨pre, suf, hsplit⟩ := splitOnceNumberPlaceholder_of_accepted h hkind hbrace
  have hhas : hasBrace abbr = true := by simp [hasBrace, hkind, hbrace]
  rw [numberCount, if_pos hhas]
  cases honce : splitOnce numberPlaceholder abbr.key with
  | none => simp [splitOnceNumberPlaceholder, honce] at hsplit
  | some parts => rw [countMatches_of_splitOnce numberPlaceholder_ne_nil honce]; omega

/-- The text `render_number` caps. -/
def renderedNumber (template unit : Text) (n : ℕ) : Text :=
  replaceAll numberPlaceholder (List.replicate n unit).flatten template

/-- A matched `{number}` rule has a unit and its repetition is within the cap, so only the full
    template can exceed it. -/
theorem render_number_of_accepted (h : RuleAccepted engine abbr)
    (hphase : phaseOf abbr = .number) {bindings : Bindings}
    (hmatch : matchRule engine abbr token = some bindings) :
    ∃ n unit, bindings = { number := some n } ∧ abbr.number = some unit ∧
      byteLen (List.replicate n unit).flatten ≤ maxRenderedExpandBytes ∧
      ∀ template, renderNumber abbr template bindings =
        if byteLen (renderedNumber template unit n) > maxRenderedExpandBytes then none
        else some (renderedNumber template unit n) := by
  obtain ⟨hkind, hbrace⟩ := phaseOf_eq_number.mp hphase
  obtain ⟨pre, suf, hsplit⟩ := splitOnceNumberPlaceholder_of_accepted h hkind hbrace
  rw [matchRule, hkind] at hmatch
  obtain ⟨n, rfl, -, hn⟩ := matchAbbrKey_number hbrace hsplit hmatch
  have hsome : abbr.number ≠ none := h.number_of_placeholder (numberCount_pos h hkind hbrace)
  obtain ⟨unit, hunit⟩ := Option.ne_none_iff_exists'.mp hsome
  have hlen : byteLen unit ≤ maxNumberUnitBytes := (checkNumberUnit_eq_none.mp (h.unit unit hunit)).2.1
  have hrepeat : byteLen unit * n ≤ maxRenderedExpandBytes := Nat.mul_le_mul hlen hn
  refine ⟨n, unit, rfl, hunit, ?_, fun template => ?_⟩
  · rwa [Text.byteLen_replicate_flatten, Nat.mul_comm]
  · simp only [renderNumber, hunit, Option.bind_eq_bind, Option.bind_some]
    rw [if_neg (by omega)]
    rfl

/-- A key whose groups are counted compiles, alone and wrapped. -/
theorem regexKeyGroupCount_eq_ok {key : Text} {groupCount : ℕ}
    (h : regexKeyGroupCount engine key = .ok groupCount) :
    ∃ alone wrapped, engine.build key = .ok alone ∧ compileRegexKey engine key = .ok wrapped ∧
      groupCount = (engine.captureNames alone).length - 1 := by
  unfold regexKeyGroupCount at h
  cases halone : engine.build key with
  | error error => simp [halone, bind, Except.bind] at h
  | ok alone =>
    cases hwrapped : compileRegexKey engine key with
    | error error => simp [halone, hwrapped, bind, Except.bind] at h
    | ok wrapped =>
      simp only [halone, hwrapped, bind, Except.bind] at h
      split at h
      · simp at h
      · simp only [Except.ok.injEq] at h
        exact ⟨alone, wrapped, rfl, rfl, h.symm⟩

/-- `{N}` names group `N`. -/
theorem groupPlaceholder_digit :
    ∀ n < 10, n = 0 ∨ (groupPlaceholder n = ['{', Nat.digitChar n, '}'] ∧
      regexGroupNumber [Nat.digitChar n] = some n ∧ Nat.digitChar n ≠ '{' ∧
      Nat.digitChar n ≠ '}' ∧ [Nat.digitChar n] ≠ globCaptureName) := by
  decide

/-- Captures of a regex rule whose group names have no brace. -/
theorem namesFreeOfBraces_regex {groups : List RegexGroup}
    (h : ∀ group ∈ groups, ∀ name, group.name = some name → '{' ∉ name) :
    NamesFreeOfBraces { regex := some groups } := by
  intro name hname
  have hglob : name ≠ globCaptureName := by
    rintro rfl
    simp [globCaptureName] at hname
  have hnumber : regexGroupNumber name = none := by
    unfold regexGroupNumber
    split
    · next digit =>
      simp only [List.mem_singleton] at hname
      subst hname
      decide
    · rfl
  have hfind : groups.find? (fun group => group.name == some name) = none := by
    rw [List.find?_eq_none]
    intro group hmem heq
    exact h group hmem name (by simpa using heq) hname
  simp [resolveCapture, hglob, hnumber, hfind]

/-- Every `{N}` of a template is replaced by the text of group `N`: validation has counted that
    many groups, and the scanner reaches it. -/
theorem group_replaced_of_accepted (hengine : engine.Documented) (h : RuleAccepted engine abbr)
    (hkind : abbr.matchKind = some .regex) {shell : Shell} {bindings : Bindings}
    {template text : Text} {cursor : Option ℕ}
    (hmatch : matchRule engine abbr token = some bindings)
    (htemplate : abbr.expand.forShell shell = some template)
    (hrender : renderWithCursor abbr template bindings = some (text, cursor))
    {N : ℕ} (hlow : 1 ≤ N) (hhigh : N ≤ 9) {pre post : Text}
    (hoccurs : template = pre ++ (groupPlaceholder N ++ post)) :
    ∃ regex captures, compileRegexKey engine abbr.key = .ok regex ∧
      engine.captures regex token = some captures ∧
      text = (renderBase pre bindings).1 ++ ((captures N).getD [] ++
        if (splitOnce cursorPlaceholder pre).isSome then substitute post bindings
        else (renderBase post bindings).1) := by
  obtain ⟨groupCount, hcount, hgroups⟩ := h.regex hkind
  obtain ⟨alone, regex, halone, hregex, rfl⟩ := regexKeyGroupCount_eq_ok hcount
  have hnames := hengine.wrap_captureNames _ _ _ halone hregex
  -- The template's group is one the key has.
  have hN : N ≤ (engine.captureNames alone).length - 1 := by
    by_contra hlt
    have hmissing := hgroups template (PerShell.mem_allValues_of_forShell htemplate)
    simp only [refersToMissingRegexGroup, List.any_eq_false, decide_eq_true_eq] at hmissing
    refine hmissing N ?_ ⟨pre, post, by rw [hoccurs, List.append_assoc]⟩
    rw [List.mem_range'_1]
    omega
  rw [matchRule, hkind] at hmatch
  simp only [matchRegexKey, hregex, Option.map_eq_some_iff] at hmatch
  obtain ⟨groups, ⟨captures, hcaptures, hgroups'⟩, rfl⟩ := hmatch
  refine ⟨regex, captures, hregex, hcaptures, ?_⟩
  have hfree : NamesFreeOfBraces { regex := some groups } := by
    refine namesFreeOfBraces_regex fun group hmem name hname => ?_
    rw [← hgroups'] at hmem
    obtain ⟨⟨groupName, i⟩, hin, rfl⟩ := List.mem_map.mp hmem
    have hin := List.fst_mem_of_mem_zipIdx (List.mem_of_mem_drop hin)
    simp only at hname hin
    exact (hengine.name_free_of_braces _ _ hregex name (hname ▸ hin)).1
  have hgroup : groups[N - 1]?.map RegexGroup.text = some ((captures N).getD []) := by
    have hlt : N < (engine.captureNames regex).length := by rw [hnames]; omega
    have hindex : 1 + (N - 1) = N := by omega
    rw [← hgroups', List.getElem?_map, List.getElem?_drop, hindex, List.getElem?_zipIdx,
      List.getElem?_eq_getElem hlt]
    simp
  rcases groupPlaceholder_digit N (by omega) with hzero | ⟨hplaceholder, hnumber, hopen, hclose, hglob⟩
  · omega
  have hres : resolveCapture [Nat.digitChar N] { regex := some groups } =
      some ((captures N).getD []) := by
    rw [resolveCapture, if_neg hglob]
    simp only [Option.bind_eq_bind, Option.bind_some, hnumber]
    rw [← hgroup]
    cases groups[N - 1]? <;> rfl
  rw [renderWithCursor_eq] at hrender
  simp only [renderNumber, Option.bind_some] at hrender
  split at hrender
  · simp only [Option.some.injEq] at hrender
    have hbase := renderBase_placeholder hfree (by simp) (by simp [Ne.symm hopen])
      (by simp [Ne.symm hclose]) hres pre post
    have htext : text = (renderBase template { regex := some groups }).1 := by rw [hrender]
    rw [htext, hoccurs, hplaceholder]
    exact hbase
  · simp at hrender

/-- **Validation makes the runtime fallbacks unreachable.** For every accepted configuration,
    every rule, token and shell: a key with a brace never falls back to a literal comparison; a
    regex key compiles; a matched `{number}` rule has a unit whose repetition fits, so that
    rendering fails only for the full template; a glob key has one `*` at most; and in the text of
    a matched regex rule every `{N}` of the template is the text of group `N`. -/
theorem fallbacks_unreachable (engine : RegexLite) (hengine : engine.Documented) (config : Config)
    (haccepted : Accepted engine config) (abbr : Abbr) (hmem : abbr ∈ config.abbr) (token : Text)
    (shell : Shell) :
    (abbr.matchKind = none → '{' ∈ abbr.key →
      ∃ pre suf, splitOnceNumberPlaceholder abbr.key = some (pre, suf)) ∧
    (abbr.matchKind = some .regex → ∃ regex, compileRegexKey engine abbr.key = .ok regex) ∧
    (phaseOf abbr = .number → ∀ bindings, matchRule engine abbr token = some bindings →
      ∃ n unit, bindings = { number := some n } ∧ abbr.number = some unit ∧
        byteLen (List.replicate n unit).flatten ≤ maxRenderedExpandBytes ∧
        ∀ template, renderNumber abbr template bindings =
          if byteLen (renderedNumber template unit n) > maxRenderedExpandBytes then none
          else some (renderedNumber template unit n)) ∧
    (abbr.matchKind = some .glob → abbr.key.count '*' ≤ 1) ∧
    (abbr.matchKind = some .regex → ∀ bindings template text cursor,
      matchRule engine abbr token = some bindings →
      abbr.expand.forShell shell = some template →
      renderWithCursor abbr template bindings = some (text, cursor) →
      ∀ N, 1 ≤ N → N ≤ 9 → ∀ pre post, template = pre ++ (groupPlaceholder N ++ post) →
        ∃ regex captures, compileRegexKey engine abbr.key = .ok regex ∧
          engine.captures regex token = some captures ∧
          text = (renderBase pre bindings).1 ++ ((captures N).getD [] ++
            if (splitOnce cursorPlaceholder pre).isSome then substitute post bindings
            else (renderBase post bindings).1)) := by
  have hrule := haccepted.rule hmem
  refine ⟨splitOnceNumberPlaceholder_of_accepted hrule, fun hkind => ?_, fun hphase bindings hmatch =>
    render_number_of_accepted hrule hphase hmatch, fun hkind => (hrule.glob hkind).2.1, ?_⟩
  · obtain ⟨groupCount, hcount, -⟩ := hrule.regex hkind
    obtain ⟨-, wrapped, -, hwrapped, -⟩ := regexKeyGroupCount_eq_ok hcount
    exact ⟨wrapped, hwrapped⟩
  · intro hkind bindings template text cursor hmatch htemplate hrender N hlow hhigh pre post hoccurs
    exact group_replaced_of_accepted hengine hrule hkind hmatch htemplate hrender hlow hhigh hoccurs

/-- An engine that knows one pattern, `v(.*)`: a `v`, and the rest of the token as group 1. -/
def oneGroupEngine : RegexLite where
  Regex := Unit
  build pattern :=
    if pattern = "v(.*)".toList ∨ pattern = "^(?:v(.*))$".toList then .ok ()
    else .error "unknown pattern".toList
  captureNames _ := [none, none]
  captures _ token := (stripPrefix? ['v'] token).map fun rest => fun i =>
    if i = 0 then some token else some rest

theorem oneGroupEngine_documented : oneGroupEngine.Documented :=
  ⟨fun _ _ _ _ _ => rfl, fun _ _ _ _ hname => by simp [oneGroupEngine] at hname⟩

/-- A configuration with one regex rule. -/
def oneGroupConfig : Config where
  version := 1
  abbr := [{ key := "v(.*)".toList, expand := .all "vim \x7b1\x7d".toList, matchKind := some .regex }]

theorem oneGroupConfig_accepted : Accepted oneGroupEngine oneGroupConfig :=
  accepted_iff.mpr ⟨rfl, by decide, by decide +kernel⟩

/-- The rule `v(.*)` with the expansion `vim {1}`, on the token `vx`. -/
theorem fallbacks_unreachable_oneGroup :
    ∃ regex captures, compileRegexKey oneGroupEngine "v(.*)".toList = .ok regex ∧
      oneGroupEngine.captures regex "vx".toList = some captures ∧
      "vim x".toList = (renderBase "vim ".toList { regex := some [⟨none, ['x']⟩] }).1 ++
        ((captures 1).getD [] ++
          if (splitOnce cursorPlaceholder "vim ".toList).isSome then
            substitute [] { regex := some [⟨none, ['x']⟩] }
          else (renderBase [] { regex := some [⟨none, ['x']⟩] }).1) :=
  (fallbacks_unreachable oneGroupEngine oneGroupEngine_documented oneGroupConfig
    oneGroupConfig_accepted _ (List.mem_singleton_self _) "vx".toList .bash).2.2.2.2 rfl
    { regex := some [⟨none, ['x']⟩] } "vim \x7b1\x7d".toList "vim x".toList none (by decide +kernel) rfl
    (by decide +kernel) 1 (by decide) (by decide) "vim ".toList [] (by decide +kernel)

end Runex
