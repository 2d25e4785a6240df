import Runex.Domain.Expand.Which

/-!
# Which rule an expansion comes from

The scan of `expand` is a choice: of the rules that can fire, the first in phase order and, within
a phase, in configuration order.

## Main definitions

- `RendersTo` — the text of a template for one match, with every check of the length cap
- `Eligible` — a rule matches the token and passes every guard
- `Selected` — the eligible rule that no eligible rule comes before

## Main results

- `fireRule_eq_some` — what one rule contributes to the scan
- `expand_eq_expanded_iff`, `expand_eq_passThrough_iff` — what the scan returns
- `expand_first_eligible` — the scan is the choice of the first eligible rule, and what it returns is
  visible and bounded
-/

namespace Runex

open Search
open Text (byteLen)

/-- The template with its `{number}` repetition; both the repeated unit and the result stay within
    the cap. A match without a number leaves the template as it is. -/
def RepeatsTo (abbr : Abbr) (template : Text) (bindings : Bindings) (base : Text) : Prop :=
  match bindings.number with
  | none => base = template
  | some n => ∃ unit, abbr.number = some unit ∧ byteLen unit * n ≤ maxRenderedExpandBytes ∧
      base = replaceAll numberPlaceholder (List.replicate n unit).flatten template ∧
      byteLen base ≤ maxRenderedExpandBytes

/-- The repeated template with its captures, around its first cursor placeholder, within the
    cap. -/
def RendersTo (abbr : Abbr) (template : Text) (bindings : Bindings) (text : Text)
    (cursor : Option ℕ) : Prop :=
  ∃ base, RepeatsTo abbr template bindings base ∧ renderBase base bindings = (text, cursor) ∧
    byteLen text ≤ maxRenderedExpandBytes

theorem renderNumber_eq_some {abbr : Abbr} {template base : Text} {bindings : Bindings} :
    renderNumber abbr template bindings = some base ↔ RepeatsTo abbr template bindings base := by
  unfold renderNumber RepeatsTo
  cases bindings.number with
  | none => simp [eq_comm]
  | some n =>
    cases abbr.number with
    | none => simp
    | some unit =>
      simp only [Option.bind_eq_bind, Option.bind_some, Option.some.injEq, exists_eq_left',
        gt_iff_lt]
      by_cases hunit : byteLen unit * n ≤ maxRenderedExpandBytes
      · rw [if_neg (by omega)]
        constructor
        · intro h
          split at h
          · exact absurd h (by simp)
          · next hlen =>
            obtain rfl := Option.some.inj h
            exact ⟨hunit, rfl, by omega⟩
        · rintro ⟨-, rfl, hlen⟩
          rw [if_neg (by omega)]
      · simp only [show maxRenderedExpandBytes < byteLen unit * n by omega, if_true, hunit,
          false_and, reduceCtorEq]

/-- The rendering function computes exactly the renderings within the cap. -/
theorem renderWithCursor_eq_some {abbr : Abbr} {template text : Text} {bindings : Bindings}
    {cursor : Option ℕ} :
    renderWithCursor abbr template bindings = some (text, cursor) ↔
      RendersTo abbr template bindings text cursor := by
  rw [renderWithCursor_eq]
  simp only [Option.bind_eq_some_iff, renderNumber_eq_some, RendersTo]
  refine exists_congr fun base => and_congr_right fun _ => ?_
  constructor
  · intro h
    split at h
    · next hlen =>
      have hbase := Option.some.inj h
      exact ⟨hbase, by rw [hbase] at hlen; exact hlen⟩
    · exact absurd h (by simp)
  · rintro ⟨hbase, hlen⟩
    rw [hbase, if_pos hlen]

theorem ScanOrder.asymm {r s : ℕ × Abbr} (h : ScanOrder r s) : ¬ ScanOrder s r := by
  rintro (hphase | ⟨hphase, hindex⟩)
  · rcases h with h | ⟨h, -⟩
    · omega
    · rw [h] at hphase
      omega
  · rcases h with h | ⟨-, h⟩
    · rw [hphase] at h
      omega
    · omega

section Selection

variable (engine : RegexLite) (config : Config) (token : Text) (shell : Shell)
  (commandExists : Text → Bool)

/-- A rule that matches the token, has an expansion and a satisfied condition for the shell, is not
    a self-loop, and renders within the cap to a text that is not blank. -/
def Eligible (abbr : Abbr) (text : Text) (cursor : Option ℕ) : Prop :=
  ∃ bindings template commands, matchRule engine abbr token = some bindings ∧
    Fires abbr token shell commandExists bindings template text cursor commands

/-- The rule at index `i` is eligible and comes before every other eligible rule. -/
def Selected (i : ℕ) (text : Text) (cursor : Option ℕ) : Prop :=
  ∃ abbr, config.abbr[i]? = some abbr ∧
    Eligible engine token shell commandExists abbr text cursor ∧
    ∀ j abbr' text' cursor', config.abbr[j]? = some abbr' → j ≠ i →
      Eligible engine token shell commandExists abbr' text' cursor' →
      ScanOrder (i, abbr) (j, abbr')

variable {engine config token shell commandExists}

theorem Fires.tryExpandRule_eq {abbr : Abbr} {bindings : Bindings} {template text : Text}
    {cursor : Option ℕ} {commands : List Text}
    (h : Fires abbr token shell commandExists bindings template text cursor commands) :
    tryExpandRule abbr token shell commandExists bindings = some (.expanded text cursor) := by
  have hfire : tryExpandRule.fire abbr token bindings template = some (.expanded text cursor) := by
    simp [tryExpandRule.fire, h.render_eq, h.not_blank, h.not_pattern_self_loop]
  have hmet := h.conditions
  rw [tryExpandRule, h.template_eq]
  simp only [Option.bind_eq_bind, Option.bind_some, h.not_exact_self_loop, Bool.false_eq_true,
    if_false]
  unfold ConditionsMet at hmet
  cases hcmds : abbr.whenCommandExists with
  | none => exact hfire
  | some cmds =>
    rw [hcmds] at hmet
    obtain ⟨hlist, hall⟩ := hmet
    simp only [hlist, Option.bind_some, List.all_eq_true.mpr hall, Bool.not_true,
      Bool.false_eq_true, if_false]
    exact hfire

/-- A matched rule expands to the text it passes every guard with. -/
theorem tryExpandRule_eq_some_iff {abbr : Abbr} {bindings : Bindings} {result : ExpandResult} :
    tryExpandRule abbr token shell commandExists bindings = some result ↔
      ∃ template text cursor commands, result = .expanded text cursor ∧
        Fires abbr token shell commandExists bindings template text cursor commands := by
  constructor
  · intro htry
    rcases fires_or_skipped abbr token shell commandExists bindings with
      ⟨template, text, cursor, commands, _, hfires, hexpand, _, _⟩ | ⟨_, _, hnone, _⟩
    · rw [hexpand, Option.some.injEq] at htry
      exact ⟨template, text, cursor, commands, htry.symm, hfires⟩
    · rw [hnone] at htry
      exact absurd htry (by simp)
  · rintro ⟨template, text, cursor, commands, rfl, hfires⟩
    exact hfires.tryExpandRule_eq

/-- What one rule contributes to the scan. -/
theorem fireRule_eq_some {abbr : Abbr} {result : ExpandResult} :
    fireRule engine token shell commandExists abbr = some result ↔
      ∃ text cursor, result = .expanded text cursor ∧
        Eligible engine token shell commandExists abbr text cursor := by
  rw [fireRule, Option.bind_eq_some_iff]
  constructor
  · rintro ⟨bindings, hmatch, htry⟩
    obtain ⟨template, text, cursor, commands, rfl, hfires⟩ := tryExpandRule_eq_some_iff.mp htry
    exact ⟨text, cursor, rfl, bindings, template, commands, hmatch, hfires⟩
  · rintro ⟨text, cursor, rfl, bindings, template, commands, hmatch, hfires⟩
    exact ⟨bindings, hmatch, hfires.tryExpandRule_eq⟩

theorem fireRule_eq_none {abbr : Abbr} :
    fireRule engine token shell commandExists abbr = none ↔
      ∀ text cursor, ¬ Eligible engine token shell commandExists abbr text cursor := by
  rw [Option.eq_none_iff_forall_ne_some]
  simp only [ne_eq, fireRule_eq_some, not_exists, not_and]
  constructor
  · intro h text cursor
    exact h _ text cursor rfl
  · rintro h _ text cursor rfl
    exact h text cursor

/-- A rule is not eligible exactly if it does not match or fails a guard. -/
theorem not_eligible_iff {abbr : Abbr} :
    (∀ text cursor, ¬ Eligible engine token shell commandExists abbr text cursor) ↔
      ∀ bindings, matchRule engine abbr token = some bindings →
        ∃ reason, SkippedBecause abbr token shell commandExists bindings reason := by
  constructor
  · intro h bindings hmatch
    rcases fires_or_skipped abbr token shell commandExists bindings with
      ⟨template, text, cursor, commands, _, hfires, -⟩ | ⟨reason, hskipped, -⟩
    · exact absurd ⟨bindings, template, commands, hmatch, hfires⟩ (h text cursor)
    · exact ⟨reason, hskipped⟩
  · rintro h text cursor ⟨bindings, template, commands, hmatch, hfires⟩
    obtain ⟨reason, hskipped⟩ := h bindings hmatch
    exact hskipped.not_fires hfires

/-- The eligible text of a rule is unique. -/
theorem Eligible.unique {abbr : Abbr} {text text' : Text} {cursor cursor' : Option ℕ}
    (h : Eligible engine token shell commandExists abbr text cursor)
    (h' : Eligible engine token shell commandExists abbr text' cursor') :
    text' = text ∧ cursor' = cursor := by
  have hfirst := fireRule_eq_some.mpr ⟨text, cursor, rfl, h⟩
  have hsecond := fireRule_eq_some.mpr ⟨text', cursor', rfl, h'⟩
  rw [hfirst] at hsecond
  simpa [eq_comm] using hsecond

/-- The scan stops at a rule exactly when that rule is selected. -/
theorem selected_iff {i : ℕ} {text : Text} {cursor : Option ℕ} :
    Selected engine config token shell commandExists i text cursor ↔
      ∃ before abbr after, rulesInPhaseOrder config = before ++ (i, abbr) :: after ∧
        fireRule engine token shell commandExists abbr = some (.expanded text cursor) ∧
        ∀ rule ∈ before, fireRule engine token shell commandExists rule.2 = none := by
  have hpairwise := rulesInPhaseOrder_pairwise config
  constructor
  · rintro ⟨abbr, hget, heligible, hleast⟩
    obtain ⟨before, after, hrules⟩ := List.append_of_mem (mem_rulesInPhaseOrder.mpr hget)
    refine ⟨before, abbr, after, hrules, fireRule_eq_some.mpr ⟨text, cursor, rfl, heligible⟩, ?_⟩
    rintro ⟨j, abbr'⟩ hmem
    refine fireRule_eq_none.mpr fun text' cursor' heligible' => ?_
    have hget' : config.abbr[j]? = some abbr' :=
      mem_rulesInPhaseOrder.mp (by rw [hrules]; exact List.mem_append_left _ hmem)
    rw [hrules] at hpairwise
    have horder : ScanOrder (j, abbr') (i, abbr) :=
      (List.pairwise_append.mp hpairwise).2.2 _ hmem _ List.mem_cons_self
    have hne : j ≠ i := by
      rintro rfl
      rw [hget, Option.some.injEq] at hget'
      subst hget'
      exact horder.asymm horder
    exact horder.asymm (hleast j abbr' text' cursor' hget' hne heligible')
  · rintro ⟨before, abbr, after, hrules, hfire, hbefore⟩
    obtain ⟨_, _, hresult, heligible⟩ := fireRule_eq_some.mp hfire
    simp only [ExpandResult.expanded.injEq] at hresult
    obtain ⟨rfl, rfl⟩ := hresult
    have hget : config.abbr[i]? = some abbr :=
      mem_rulesInPhaseOrder.mp (by rw [hrules]; exact List.mem_append_right _ List.mem_cons_self)
    refine ⟨abbr, hget, heligible, ?_⟩
    intro j abbr' text' cursor' hget' hne heligible'
    have hmem : (j, abbr') ∈ before ++ (i, abbr) :: after :=
      hrules ▸ mem_rulesInPhaseOrder.mpr hget'
    rcases List.mem_append.mp hmem with hbefore' | hafter
    · exact absurd heligible' (fireRule_eq_none.mp (hbefore _ hbefore') text' cursor')
    · rw [hrules] at hpairwise
      have hcons := List.pairwise_cons.mp (List.pairwise_append.mp hpairwise).2.1
      rcases List.mem_cons.mp hafter with heq | hafter'
      · exact absurd (congrArg Prod.fst heq) hne
      · exact hcons.1 _ hafter'

/-- The scan returns the text of the selected rule. -/
theorem expand_eq_expanded_iff {text : Text} {cursor : Option ℕ} :
    expand engine config token shell commandExists = .expanded text cursor ↔
      ∃ i, Selected engine config token shell commandExists i text cursor := by
  rw [expand_eq]
  simp only [selected_iff]
  constructor
  · intro h
    cases hfound : (rulesInPhaseOrder config).findSome? fun rule =>
        fireRule engine token shell commandExists rule.2 with
    | none => simp [hfound] at h
    | some result =>
      rw [hfound, Option.getD_some] at h
      subst h
      obtain ⟨before, ⟨i, abbr⟩, after, hrules, hfire, hbefore⟩ :=
        List.findSome?_eq_some_iff.mp hfound
      exact ⟨i, before, abbr, after, hrules, hfire, hbefore⟩
  · rintro ⟨i, before, abbr, after, hrules, hfire, hbefore⟩
    have hfound : ((rulesInPhaseOrder config).findSome? fun rule =>
        fireRule engine token shell commandExists rule.2) = some (.expanded text cursor) :=
      List.findSome?_eq_some_iff.mpr ⟨before, (i, abbr), after, hrules, hfire, hbefore⟩
    rw [hfound, Option.getD_some]

/-- The scan passes the token through when no rule is eligible. -/
theorem expand_eq_passThrough_iff {t : Text} :
    expand engine config token shell commandExists = .passThrough t ↔
      t = token ∧ ∀ abbr ∈ config.abbr, ∀ text cursor,
        ¬ Eligible engine token shell commandExists abbr text cursor := by
  have hnone : ((rulesInPhaseOrder config).findSome? fun rule =>
        fireRule engine token shell commandExists rule.2) = none ↔
      ∀ abbr ∈ config.abbr, ∀ text cursor,
        ¬ Eligible engine token shell commandExists abbr text cursor := by
    simp only [List.findSome?_eq_none_iff, Prod.forall, mem_rulesInPhaseOrder, fireRule_eq_none]
    constructor
    · intro h abbr hmem
      obtain ⟨i, hget⟩ := List.getElem?_of_mem hmem
      exact h i abbr hget
    · intro h i abbr hget
      exact h abbr (List.mem_of_getElem? hget)
  rw [expand_eq, ← hnone]
  constructor
  · intro h
    cases hfound : (rulesInPhaseOrder config).findSome? fun rule =>
        fireRule engine token shell commandExists rule.2 with
    | none =>
      rw [hfound, Option.getD_none, ExpandResult.passThrough.injEq] at h
      exact ⟨h.symm, rfl⟩
    | some result =>
      rw [hfound, Option.getD_some] at h
      subst h
      obtain ⟨_, _, hfire⟩ := List.exists_of_findSome?_eq_some hfound
      obtain ⟨_, _, hresult, -⟩ := fireRule_eq_some.mp hfire
      exact absurd hresult (by simp)
  · rintro ⟨rfl, hfound⟩
    rw [hfound, Option.getD_none]

/-- What is inserted can be seen and is within the cap, and the cursor goes to a character boundary
    of it. -/
theorem Eligible.bounded {abbr : Abbr} {text : Text} {cursor : Option ℕ}
    (h : Eligible engine token shell commandExists abbr text cursor) :
    (∃ c ∈ text, Text.isWhitespace c = false) ∧ byteLen text ≤ maxRenderedExpandBytes ∧
      ∀ off, cursor = some off → Text.IsBoundary text off ∧ off ≤ byteLen text := by
  obtain ⟨bindings, template, commands, -, hfires⟩ := h
  obtain ⟨_, _, _, hlen⟩ := renderWithCursor_eq_some.mp hfires.render_eq
  refine ⟨?_, hlen, ?_⟩
  · have hblank := hfires.not_blank
    simpa [isBlankExpansion, Text.isBlank] using hblank
  · rintro off rfl
    have hboundary := renderWithCursor_isBoundary hfires.render_eq
    exact ⟨hboundary, hboundary.le⟩

end Selection

/-- The rules of each phase are the same and in the same order. -/
def SamePhaseOrder (rules rules' : List Abbr) : Prop :=
  ∀ phase, (rules.filter fun abbr => phaseOf abbr == phase) =
    rules'.filter fun abbr => phaseOf abbr == phase

/-- **`expand` chooses the first eligible rule.** For every configuration, token, shell and command
    oracle: it returns the text of the eligible rule that comes first in phase order and, within a
    phase, in configuration order; it passes the token through exactly when no rule is eligible; a
    configuration whose phases hold the same rules in the same order gives the same result; and an
    expansion has a visible character, at most `maxRenderedExpandBytes` bytes, and its cursor at a
    character boundary not past its end. -/
theorem expand_first_eligible (engine : RegexLite) (config : Config) (token : Text) (shell : Shell)
    (commandExists : Text → Bool) :
    (∀ text cursor, expand engine config token shell commandExists = .expanded text cursor ↔
      ∃ i, Selected engine config token shell commandExists i text cursor) ∧
    (∀ t, expand engine config token shell commandExists = .passThrough t ↔
      t = token ∧ ∀ abbr ∈ config.abbr, ∀ text cursor,
        ¬ Eligible engine token shell commandExists abbr text cursor) ∧
    (∀ config', SamePhaseOrder config.abbr config'.abbr →
      expand engine config' token shell commandExists =
        expand engine config token shell commandExists) ∧
    (∀ text cursor, expand engine config token shell commandExists = .expanded text cursor →
      (∃ c ∈ text, Text.isWhitespace c = false) ∧ byteLen text ≤ maxRenderedExpandBytes ∧
        ∀ off, cursor = some off → Text.IsBoundary text off ∧ off ≤ byteLen text) := by
  refine ⟨fun _ _ => expand_eq_expanded_iff, fun _ => expand_eq_passThrough_iff, ?_, ?_⟩
  · intro config' hsame
    simp only [expand, hsame _]
  · intro text cursor h
    obtain ⟨i, abbr, -, heligible, -⟩ := expand_eq_expanded_iff.mp h
    exact heligible.bounded

/-- An exact rule and a glob rule may change places. -/
theorem expand_first_eligible_swapped :
    let plain : Abbr := { key := ['g', 's'], expand := .all ['g', 'i', 't'] }
    let glob : Abbr :=
      { key := ['g', '*'], expand := .all ['g', 'o', '{', '}'], matchKind := some .glob }
    expand default { version := 1, abbr := [glob, plain] } ['g', 's'] .bash (fun _ => true) =
      expand default { version := 1, abbr := [plain, glob] } ['g', 's'] .bash (fun _ => true) ∧
    (∃ c ∈ ['g', 'i', 't'], Text.isWhitespace c = false) ∧
      byteLen ['g', 'i', 't'] ≤ maxRenderedExpandBytes ∧
      ∀ off, none = some off → Text.IsBoundary ['g', 'i', 't'] off ∧ off ≤ byteLen ['g', 'i', 't'] := by
  intro plain glob
  have hall := expand_first_eligible default { version := 1, abbr := [plain, glob] } ['g', 's'] .bash
    (fun _ => true)
  refine ⟨hall.2.2.1 { version := 1, abbr := [glob, plain] } ?_, ?_⟩
  · intro phase
    cases phase <;> rfl
  · exact hall.2.2.2 ['g', 'i', 't'] none (by decide +kernel)

end Runex
