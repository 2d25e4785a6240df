import Runex.Domain.Expand.Which
import Runex.Domain.Hook.Decision
import Runex.Lib.Asking
import Runex.Util.Path

/-!
# What a key press asks the file system

`expand` is given a function that tells which commands exist, and the program gives it a closure
with a memo that looks into the file system. The scan is written out with its questions: it asks
about the commands of one rule up to the first that is missing, and about no rule after the one
that fires.

## Main definitions

- `tryExpandRuleAsking`, `expandAsking`, `hookAsking` — the scan with its questions
- `ruleQuestions`, `expandQuestions` — which questions these are
- `missesMemo` — a question for which the closure looks into the file system

## Main results

- `answered_expandAsking`, `answered_hookAsking` — without its questions, the scan is the pure one
- `asked_expandAsking`, `asked_hookAsking` — what is asked, in order
- `key_press_lookups` — a key press over the closure with its memo
-/

namespace Runex

open Search
open Text (byteLen sliceFrom? sliceTo?)

-- ════════════════════════════════════════════════════════════════════════
-- The scan with its questions
-- ════════════════════════════════════════════════════════════════════════

/-- `try_expand_rule`, asking for each command of the condition up to the first missing one. -/
def tryExpandRuleAsking (abbr : Abbr) (token : Text) (shell : Shell) (bindings : Bindings) :
    Asking Text Bool (Option ExpandResult) :=
  match abbr.expand.forShell shell with
  | none => pure none
  | some template =>
    if isExactSelfLoop abbr template then pure none
    else
      match abbr.whenCommandExists with
      | some cmds =>
        match cmds.forShell shell with
        | none => pure none
        | some list => do
          if !(← Asking.all list) then pure none
          else pure (tryExpandRule.fire abbr token bindings template)
      | none => pure (tryExpandRule.fire abbr token bindings template)

/-- One turn of the loop of `expand`. -/
def fireRuleAsking (engine : RegexLite) (token : Text) (shell : Shell) (abbr : Abbr) :
    Asking Text Bool (Option ExpandResult) :=
  match matchRule engine abbr token with
  | none => pure none
  | some bindings => tryExpandRuleAsking abbr token shell bindings

/-- `expand`, asking as it goes. -/
def expandAsking (engine : RegexLite) (config : Config) (token : Text) (shell : Shell) :
    Asking Text Bool ExpandResult := do
  let fired ← Asking.findSome?
    (fun phase => Asking.findSome? (fireRuleAsking engine token shell)
      (config.abbr.filter fun abbr => phaseOf abbr == phase)) phases
  pure (fired.getD (.passThrough token))

/-- A slice off a character boundary is a panic. -/
def orPanic {α : Type} (slice : Option Text) (next : Text → Asking Text Bool (Option α)) :
    Asking Text Bool (Option α) :=
  match slice with
  | none => pure none
  | some text => next text

/-- `hook`, asking as it goes. -/
def hookAsking (engine : RegexLite) (config : Config) (shell : Shell) (line : Text) (cursor : ℕ) :
    Asking Text Bool (Option HookAction) :=
  let cursor := min cursor (byteLen line)
  orPanic (sliceFrom? line cursor) fun right =>
  if cursor < byteLen line ∧ ¬ [' '] <+: right then pure (insertSpace line cursor)
  else
    orPanic (sliceTo? line cursor) fun left =>
    match tokenStartOf left with
    | none => pure (insertSpace line cursor)
    | some tokenStart =>
      orPanic (sliceFrom? left tokenStart) fun token =>
      if token = [] then pure (insertSpace line cursor)
      else
        orPanic (sliceTo? line tokenStart) fun pre =>
        if !isCommandPosition pre then pure (insertSpace line cursor)
        else if !isKnownToken engine config token then pure (insertSpace line cursor)
        else do
          match ← expandAsking engine config token shell with
          | .expanded text cursorOffset => pure (replaceToken pre text right tokenStart cursorOffset)
          | .passThrough _ => pure (insertSpace line cursor)

-- ════════════════════════════════════════════════════════════════════════
-- The pure scan
-- ════════════════════════════════════════════════════════════════════════

section Answered

variable (engine : RegexLite) (config : Config) (token : Text) (shell : Shell)
  (commandExists : Text → Bool)

theorem answered_tryExpandRuleAsking (abbr : Abbr) (bindings : Bindings) :
    (tryExpandRuleAsking abbr token shell bindings).answered commandExists =
      tryExpandRule abbr token shell commandExists bindings := by
  rw [tryExpandRuleAsking, tryExpandRule]
  cases abbr.expand.forShell shell with
  | none => rfl
  | some template =>
    simp only [Option.bind_eq_bind, Option.bind_some]
    split
    · rfl
    · cases abbr.whenCommandExists with
      | none => rfl
      | some cmds =>
        cases hlist : cmds.forShell shell with
        | none => simp [hlist]
        | some list =>
          simp only [hlist, Option.bind_some, Asking.answered_bind, Asking.answered_all]
          split <;> rfl

@[simp] theorem answered_fireRuleAsking (abbr : Abbr) :
    (fireRuleAsking engine token shell abbr).answered commandExists =
      fireRule engine token shell commandExists abbr := by
  rw [fireRuleAsking, fireRule]
  cases matchRule engine abbr token with
  | none => rfl
  | some bindings => exact answered_tryExpandRuleAsking token shell commandExists abbr bindings

@[simp] theorem answered_expandAsking :
    (expandAsking engine config token shell).answered commandExists =
      expand engine config token shell commandExists := by
  simp only [expandAsking, Asking.answered_bind, Asking.answered_findSome?, Asking.answered_pure,
    answered_fireRuleAsking]
  rfl

@[simp] theorem answered_orPanic {α : Type} (slice : Option Text)
    (next : Text → Asking Text Bool (Option α)) :
    (orPanic slice next).answered commandExists =
      slice.bind fun text => (next text).answered commandExists := by
  cases slice <;> rfl

theorem answered_hookAsking (line : Text) (cursor : ℕ) :
    (hookAsking engine config shell line cursor).answered commandExists =
      hook engine config shell line cursor commandExists := by
  simp only [hookAsking, hook, answered_orPanic, Option.bind_eq_bind]
  refine Option.bind_congr fun right _ => ?_
  split
  · rfl
  · rw [answered_orPanic]
    refine Option.bind_congr fun left _ => ?_
    cases tokenStartOf left with
    | none => rfl
    | some tokenStart =>
      show Asking.answered _ (orPanic _ _) = Option.bind _ _
      rw [answered_orPanic]
      refine Option.bind_congr fun token _ => ?_
      split
      · rfl
      · rw [answered_orPanic]
        refine Option.bind_congr fun pre _ => ?_
        split
        · rfl
        · split
          · rfl
          · rw [Asking.answered_bind, answered_expandAsking]
            cases expand engine config token shell commandExists <;> rfl

end Answered

-- ════════════════════════════════════════════════════════════════════════
-- What is asked
-- ════════════════════════════════════════════════════════════════════════

section Asked

variable (engine : RegexLite) (config : Config) (token : Text) (shell : Shell)
  (commandExists : Text → Bool)

/-- The condition of a rule that is looked at: the rule matches, has an expansion and a command list
    for the shell, and is not its own expansion. -/
def conditionOf (abbr : Abbr) : List Text :=
  match matchRule engine abbr token, abbr.expand.forShell shell, abbr.whenCommandExists with
  | some _, some template, some cmds =>
    if isExactSelfLoop abbr template then [] else (cmds.forShell shell).getD []
  | _, _, _ => []

/-- A rule asks for its commands through the first missing one. -/
def ruleQuestions (abbr : Abbr) : List Text :=
  Asking.through (fun cmd => !commandExists cmd) (conditionOf engine token shell abbr)

/-- The rules in the order of the scan ask in turn, through the one that fires. -/
def expandQuestions : List Text :=
  (Asking.through (fun rule => (fireRule engine token shell commandExists rule.2).isSome)
    (rulesInPhaseOrder config)).flatMap fun rule =>
      ruleQuestions engine token shell commandExists rule.2

@[simp] theorem asked_fireRuleAsking (abbr : Abbr) :
    (fireRuleAsking engine token shell abbr).asked commandExists =
      ruleQuestions engine token shell commandExists abbr := by
  rw [fireRuleAsking, ruleQuestions, conditionOf]
  cases matchRule engine abbr token with
  | none => rfl
  | some bindings =>
    simp only
    rw [tryExpandRuleAsking]
    cases abbr.expand.forShell shell with
    | none => rfl
    | some template =>
      cases abbr.whenCommandExists with
      | none => simp only; split <;> rfl
      | some cmds =>
        simp only
        split
        · rfl
        · cases cmds.forShell shell with
          | none => rfl
          | some list =>
            simp only [Asking.asked_bind, Asking.asked_all, Option.getD_some]
            split <;> simp

theorem rules_of_rulesInPhaseOrder :
    (rulesInPhaseOrder config).map Prod.snd =
      phases.flatMap fun phase => config.abbr.filter fun abbr => phaseOf abbr == phase := by
  have hlist : config.abbr = config.abbr.zipIdx.map Prod.fst := by simp
  rw [rulesInPhaseOrder, List.map_flatMap]
  congr 1
  funext phase
  conv_rhs => rw [hlist]
  rw [List.filter_map, List.map_map]
  rfl

@[simp] theorem asked_expandAsking :
    (expandAsking engine config token shell).asked commandExists =
      expandQuestions engine config token shell commandExists := by
  rw [expandAsking, ← Asking.findSome?_flatMap, ← rules_of_rulesInPhaseOrder, Asking.asked_bind,
    Asking.asked_pure, List.append_nil, Asking.asked_findSome?, Asking.through_map,
    List.flatMap_map]
  simp only [answered_fireRuleAsking, asked_fireRuleAsking]
  rfl

/-- A token that no rule knows asks nothing. -/
theorem expandQuestions_of_unknown (h : isKnownToken engine config token = false) :
    expandQuestions engine config token shell commandExists = [] := by
  refine List.flatMap_eq_nil_iff.mpr fun rule hrule => ?_
  have hrule := (Asking.through_prefix _ _).subset hrule
  have habbr := List.mem_of_getElem? (mem_rulesInPhaseOrder.mp hrule)
  have hmatch : matchRule engine rule.2 token = none := by
    simpa using List.any_eq_false.mp h rule.2 habbr
  rw [ruleQuestions, conditionOf, hmatch]
  rfl

variable {pre right : Text}

/-- A key press asks what the scan of the token at the caret asks, where there is one in command
    position. -/
theorem asked_hookAsking (htoken : ' ' ∉ token) (hpre : pre = [] ∨ [' '] <:+ pre) :
    (hookAsking engine config shell (pre ++ (token ++ right)) (byteLen pre + byteLen token)).asked
        commandExists =
      if AtExpandableToken pre token right then
        expandQuestions engine config token shell commandExists
      else [] := by
  have hcut : Text.splitAt? (pre ++ (token ++ right)) (byteLen pre + byteLen token) =
      some (pre ++ token, right) :=
    Text.splitAt?_eq_some.mpr ⟨by simp, by simp⟩
  have hmin : min (byteLen pre + byteLen token) (byteLen (pre ++ (token ++ right))) =
      byteLen pre + byteLen token := by
    simp only [Text.byteLen_append]
    omega
  have hblocked : byteLen pre + byteLen token < byteLen (pre ++ (token ++ right)) ∧
      ¬ [' '] <+: right ↔ ¬ (right = [] ∨ [' '] <+: right) := by
    simp only [Text.byteLen_append, not_or, and_congr_left_iff]
    intro _
    rw [← Text.byteLen_eq_zero]
    omega
  rw [hookAsking]
  simp only [hmin, sliceFrom?, sliceTo?, hcut, Option.map_some, orPanic, hblocked]
  by_cases hright : right = [] ∨ [' '] <+: right
  · rw [if_neg (not_not_intro hright)]
    by_cases hne : token = []
    · subst hne
      rw [if_neg fun h => h.2.1 rfl]
      cases hstart : tokenStartOf (pre ++ []) with
      | none => rfl
      | some start =>
        have hnil : pre ++ ([] : Text) ≠ [] := by
          intro hnil
          simp [tokenStartOf, hnil] at hstart
        rw [tokenStartOf_append htoken hpre hnil] at hstart
        have hcut' : Text.splitAt? (pre ++ []) (byteLen pre) = some (pre, []) :=
          Text.splitAt?_append pre []
        simp only [← Option.some.inj hstart, hcut', Option.map_some, if_true, Asking.asked_pure]
    · have hcut' : Text.splitAt? (pre ++ (token ++ right)) (byteLen pre) =
          some (pre, token ++ right) := Text.splitAt?_append pre _
      rw [tokenStartOf_append htoken hpre (by simp [hne])]
      simp only [Text.splitAt?_append, hcut', Option.map_some, if_neg hne]
      cases hpos : isCommandPosition pre with
      | false =>
        have hat : ¬ AtExpandableToken pre token right := fun h => by simp [h.2.2] at hpos
        rw [if_neg hat]
        rfl
      | true =>
        have hat : AtExpandableToken pre token right := ⟨hright, hne, hpos⟩
        rw [if_pos hat]
        cases hknown : isKnownToken engine config token with
        | false =>
          exact (expandQuestions_of_unknown engine config token shell commandExists hknown).symm
        | true =>
          show Asking.asked commandExists (expandAsking engine config token shell >>= _) = _
          rw [Asking.asked_bind, asked_expandAsking]
          cases (expandAsking engine config token shell).answered commandExists <;>
            exact List.append_nil _
  · have hat : ¬ AtExpandableToken pre token right := fun h => hright h.1
    rw [if_pos hright, if_neg hat]
    rfl

end Asked

-- ════════════════════════════════════════════════════════════════════════
-- The closure that is asked
-- ════════════════════════════════════════════════════════════════════════

section Closure

/-- The closure answers from the file system: the command is a plain name, the memo does not have
    it, and the hint does not say that it exists. -/
def missesMemo (hint : Option CommandMap) (cmd : Text) (cache : CommandMap) : Bool :=
  decide (¬ ('/' ∈ cmd ∨ '\\' ∈ cmd ∨ ':' ∈ cmd) ∧ cache.lookup cmd = none ∧
    (hint.bind fun h => h.lookup cmd) ≠ some true)

/-- What the file system has to say about a command. -/
def liveAnswer (env : Lookups) (pathPrepend : Option FileSystem.Path) (cmd : Text) : Bool :=
  pathPrepend.any (inDirectory env · cmd) || env.which cmd

variable {env env' : Lookups} {pathPrepend : Option FileSystem.Path} {hint : Option CommandMap}
  {cmd cmd' : Text} {cache : CommandMap}

theorem makeCommandExistsOwned_eq (env : Lookups) (pathPrepend : Option FileSystem.Path)
    (hint : Option CommandMap) (cmd : Text) (cache : CommandMap) :
    makeCommandExistsOwned env pathPrepend hint cmd cache =
      if '/' ∈ cmd ∨ '\\' ∈ cmd ∨ ':' ∈ cmd then (false, cache)
      else
        match cache.lookup cmd with
        | some cached => (cached, cache)
        | none =>
          if (hint.bind fun h => h.lookup cmd) = some true then (true, cache.insert cmd true)
          else (liveAnswer env pathPrepend cmd,
            cache.insert cmd (liveAnswer env pathPrepend cmd)) := by
  cases pathPrepend with
  | none => rfl
  | some dir =>
    have hlive : liveAnswer env (some dir) cmd = ((if env.windows then
        env.isFile (joinName dir cmd) || env.isFile (joinName dir (cmd ++ ".exe".toList))
        else env.isFile (joinName dir cmd)) || env.which cmd) := by
      rw [liveAnswer, Option.any_some, inDirectory]
      cases env.windows with
      | true => rfl
      | false => rw [Bool.false_and, Bool.or_false, if_neg Bool.false_ne_true]
    exact hlive ▸ rfl

/-- The file system is consulted for a miss only, and only about the command. -/
theorem makeCommandExistsOwned_congr
    (h : missesMemo hint cmd cache = true →
      liveAnswer env' pathPrepend cmd = liveAnswer env pathPrepend cmd) :
    makeCommandExistsOwned env' pathPrepend hint cmd cache =
      makeCommandExistsOwned env pathPrepend hint cmd cache := by
  simp only [makeCommandExistsOwned_eq]
  split
  · rfl
  · next hname =>
    cases hcached : cache.lookup cmd with
    | some cached => rfl
    | none =>
      simp only
      split
      · rfl
      · next hhint => rw [h (decide_eq_true ⟨hname, hcached, hhint⟩)]

/-- What is asked is in the memo afterwards, or needs no memo. -/
theorem missesMemo_learned :
    missesMemo hint cmd (makeCommandExistsOwned env pathPrepend hint cmd cache).2 = false := by
  refine decide_eq_false ?_
  rintro ⟨hname, hcached, -⟩
  rw [makeCommandExistsOwned_eq, if_neg hname] at hcached
  cases hold : cache.lookup cmd with
  | some cached => simp [hold] at hcached
  | none =>
    simp only [hold] at hcached
    split at hcached <;> simp at hcached

/-- The memo forgets nothing. -/
theorem missesMemo_kept (h : missesMemo hint cmd cache = false) :
    missesMemo hint cmd (makeCommandExistsOwned env pathPrepend hint cmd' cache).2 = false := by
  by_cases hcmd : cmd' = cmd
  · subst hcmd
    exact missesMemo_learned
  · have hlookup : (makeCommandExistsOwned env pathPrepend hint cmd' cache).2.lookup cmd =
        cache.lookup cmd := by
      rw [makeCommandExistsOwned_eq]
      split
      · rfl
      · split
        · rfl
        · split <;> exact Finmap.lookup_insert_of_ne _ (Ne.symm hcmd)
    rw [missesMemo, hlookup]
    exact h

end Closure

/-- What a key press looks up in the file system, when the commands it asks about are these. -/
def keyPressLookups (env : Lookups) (pathPrepend : Option FileSystem.Path)
    (hint : Option CommandMap) (questions : List Text) : List Text :=
  Asking.missed (makeCommandExistsOwned env pathPrepend hint) (missesMemo hint) questions ∅

/-- **A key press over the closure.** For every configuration, shell, line cut at the caret,
    directory in front and hint: with the closure the program builds, the key press does what it
    does with the answers of the moment; the commands it asks about are those of the rules that
    match the token at the caret, in the order of the scan, through the rule that fires and within
    a rule through the first missing command, and there are none away from a token in command
    position; each is looked up in the file system at most once, and only without a positive hint;
    and a file system that answers the same about these gives the same key press. -/
theorem key_press_lookups (engine : RegexLite) (config : Config) (shell : Shell)
    (left right : Text) (env : Lookups) (pathPrepend : Option FileSystem.Path)
    (hint : Option CommandMap) :
    let installed := commandExists env pathPrepend hint
    let keyPress := hookAsking engine config shell (left ++ right) (byteLen left)
    let questions := keyPress.asked installed
    let lookups := keyPressLookups env pathPrepend hint questions
    (keyPress.run (makeCommandExistsOwned env pathPrepend hint) ∅).1 =
        hook engine config shell (left ++ right) (byteLen left) installed ∧
      (∃ pre token, left = pre ++ token ∧ ' ' ∉ token ∧ (pre = [] ∨ [' '] <:+ pre) ∧
        questions = if AtExpandableToken pre token right then
          expandQuestions engine config token shell installed else []) ∧
      lookups.Nodup ∧
      (∀ cmd ∈ lookups, cmd ∈ questions ∧ (hint.bind fun h => h.lookup cmd) ≠ some true) ∧
      ∀ env', (∀ cmd ∈ lookups, liveAnswer env' pathPrepend cmd = liveAnswer env pathPrepend cmd) →
        keyPress.run (makeCommandExistsOwned env' pathPrepend hint) ∅ =
          keyPress.run (makeCommandExistsOwned env pathPrepend hint) ∅ := by
  intro installed keyPress questions lookups
  have hclosure : Asking.Transparent installed (makeCommandExistsOwned env pathPrepend hint)
      (Memo.Sound installed) := answers_makeCommandExistsOwned
  refine ⟨?_, ?_, ?_, ?_, ?_⟩
  · rw [(Asking.answered_run hclosure keyPress Memo.sound_empty).1]
    exact answered_hookAsking engine config shell installed (left ++ right) (byteLen left)
  · obtain ⟨pre, token, rfl, htoken, hpre⟩ := exists_lastToken left
    refine ⟨pre, token, rfl, htoken, hpre, ?_⟩
    have hasked : (hookAsking engine config shell (pre ++ (token ++ right))
        (byteLen pre + byteLen token)).asked installed = _ :=
      asked_hookAsking engine config token shell installed htoken hpre
    rwa [← List.append_assoc, ← Text.byteLen_append] at hasked
  · show (Asking.missed (makeCommandExistsOwned env pathPrepend hint) _ _ _).Nodup
    refine Asking.nodup_missed (fun cmd cmd' cache h => ?_) (fun cmd cache => ?_) _ _
    · exact missesMemo_kept h
    · exact missesMemo_learned
  · intro cmd hcmd
    obtain ⟨hasked, cache, hmiss⟩ := Asking.mem_missed hcmd
    exact ⟨hasked, (of_decide_eq_true hmiss).2.2⟩
  · intro env' hsame
    refine Asking.run_congr_missed hclosure (fun cmd cache hhit => ?_) keyPress Memo.sound_empty
      fun cmd hcmd cache => makeCommandExistsOwned_congr fun _ => hsame cmd hcmd
    exact makeCommandExistsOwned_congr fun hmiss => by rw [hhit] at hmiss; cases hmiss

end Runex
