import Runex.App.Doctor
import Runex.Domain.Expand.Selection

/-!
# The unreachable-duplicate warning

A rule is warned about when an earlier rule with the same key and no condition is expected to fire
whenever it matches. The static checks rule out every guard but two: an expansion table without an
entry for the shell, and a rendering over the cap.

## Main definitions

- `Hides` — what the loop records of a rule
- `Renders`, `OutOfTheRunning` — the earlier rule renders, or the later one is out of the running
  anyway

## Main results

- `mem_unreachableLoop` — a warning names a recorded rule before the one it is about
- `Hides.eligible` — a recorded rule that matches and renders fires
- `Hides.not_selected` — and keeps the rule it hides from being selected
- `unreachable_iff` — the rule a warning is about is never selected exactly when it stays hidden
- `unreachable_unsound` — a rule that is warned about and selected
-/

namespace Runex

open Search
open Placeholder (Piece cut)
open Text (byteLen)

variable {engine : RegexLite} {config : Config} {token : Text} {shell : Shell}
  {commandExists : Text → Bool}

/-- The rule has no condition and is expected to fire whenever it matches. -/
structure Hides (engine : RegexLite) (abbr : Abbr) : Prop where
  unconditional : abbr.whenCommandExists = none
  always_fires : alwaysFiresWhenMatched engine abbr = true

/-- A warning names a rule recorded before the loop, or one that comes before the rule it is about
    and hides it. -/
theorem mem_unreachableLoop {rules : List (Abbr × ℕ)}
    {keys : List ((Option MatchKind × Text) × ℕ)} {check : Check}
    (h : check ∈ unreachableLoop engine rules keys) :
    ∃ abbr j i, (abbr, j) ∈ rules ∧ check = unreachableCheck abbr j i ∧
      ((abbr.identity, i) ∈ keys ∨ ∃ abbr', [(abbr', i), (abbr, j)].Sublist rules ∧
        abbr'.identity = abbr.identity ∧ Hides engine abbr') := by
  induction rules generalizing keys with
  | nil => exact absurd h (by simp [unreachableLoop])
  | cons rule rules ih =>
    obtain ⟨first, k⟩ := rule
    have hlater : ∀ {keys' : List ((Option MatchKind × Text) × ℕ)},
        (∀ entry ∈ keys', entry ∈ keys ∨ entry = (first.identity, k) ∧ Hides engine first) →
        check ∈ unreachableLoop engine rules keys' →
        ∃ abbr j i, (abbr, j) ∈ (first, k) :: rules ∧ check = unreachableCheck abbr j i ∧
          ((abbr.identity, i) ∈ keys ∨
            ∃ abbr', [(abbr', i), (abbr, j)].Sublist ((first, k) :: rules) ∧
              abbr'.identity = abbr.identity ∧ Hides engine abbr') := by
      intro keys' hkeys hmem
      obtain ⟨abbr, j, i, hin, hcheck, hfrom⟩ := ih hmem
      refine ⟨abbr, j, i, List.mem_cons_of_mem _ hin, hcheck, ?_⟩
      rcases hfrom with hentry | ⟨abbr', hsub, hidentity, hhides⟩
      · rcases hkeys _ hentry with hold | ⟨heq, hhides⟩
        · exact Or.inl hold
        · rw [Prod.mk.injEq] at heq
          obtain ⟨hidentity, rfl⟩ := heq
          refine Or.inr ⟨first, ?_, hidentity.symm, hhides⟩
          exact List.Sublist.cons_cons _ (List.singleton_sublist.mpr hin)
      · exact Or.inr ⟨abbr', hsub.cons _, hidentity, hhides⟩
    rw [unreachableLoop] at h
    split at h
    · next firstRule hlookup =>
      rcases List.mem_cons.mp h with rfl | hmem
      · refine ⟨first, k, firstRule, List.mem_cons_self, rfl, Or.inl ?_⟩
        obtain ⟨before, after, rfl, -⟩ := List.lookup_eq_some_iff.mp hlookup
        exact List.mem_append_right before List.mem_cons_self
      · exact hlater (fun _ hentry => Or.inl hentry) hmem
    · split at h
      · next hrecord =>
        rw [Bool.and_eq_true, Option.isNone_iff_eq_none] at hrecord
        refine hlater ?_ h
        intro entry hentry
        rcases List.mem_cons.mp hentry with rfl | hold
        · exact Or.inr ⟨rfl, hrecord.1, hrecord.2⟩
        · exact Or.inl hold
      · exact hlater (fun _ hentry => Or.inl hentry) h

theorem decimal_injective {m n : ℕ} (h : decimal m = decimal n) : m = n := by
  have hvalue := congrArg (fun digits => Nat.ofDigitChars 10 digits 0) h
  simpa [decimal, Nat.ofDigitChars_ten_toDigits] using hvalue

/-- A warning about the rule at index `j` names a rule before it that has the same key and kind and
    hides it. -/
theorem exists_hiding_of_check {check : Check} (h : check ∈ checkUnreachableDuplicates engine config)
    {j : ℕ} (hname : check.name = unreachableCheckName j) :
    ∃ i earlier later, i < j ∧ config.abbr[i]? = some earlier ∧ config.abbr[j]? = some later ∧
      check = unreachableCheck later j i ∧ earlier.identity = later.identity ∧
      Hides engine earlier := by
  obtain ⟨later, j', i, hin, rfl, hfrom⟩ := mem_unreachableLoop h
  obtain rfl : j' = j :=
    decimal_injective (List.append_cancel_right (List.append_cancel_left hname))
  rcases hfrom with hnone | ⟨earlier, hsub, hidentity, hhides⟩
  · exact absurd hnone (by simp)
  · have hpair := (zipIdx_pairwise_lt config.abbr 0).sublist hsub
    rw [List.pairwise_pair] at hpair
    have hget := List.mem_zipIdx_iff_getElem?.mp (hsub.subset List.mem_cons_self)
    exact ⟨i, earlier, later, hpair, hget, List.mem_zipIdx_iff_getElem?.mp hin, rfl, hidentity,
      hhides⟩

/-- Rules with the same key and kind match the same tokens, with the same captures. -/
theorem matchRule_of_identity (engine : RegexLite) (token : Text) {earlier later : Abbr}
    (h : earlier.identity = later.identity) :
    matchRule engine earlier token = matchRule engine later token ∧
      phaseOf earlier = phaseOf later := by
  simp only [Abbr.identity, Prod.mk.injEq] at h
  obtain ⟨hkind, hkey⟩ := h
  exact ⟨by rw [matchRule, matchRule, hkind, hkey], by rw [phaseOf, phaseOf, hkind, hkey]⟩

/-- A space of a template is still there when the captures are in. -/
theorem space_mem_of_render {abbr : Abbr} {template : Text} {bindings : Bindings}
    {rendered : Text × Option ℕ} (hnames : engine.NamesFreeOfSpaces) (hkind : abbr.matchKind ≠ none)
    (hmatch : matchRule engine abbr token = some bindings) (hspace : ' ' ∈ template)
    (hrender : renderWithCursor abbr template bindings = some rendered) : ' ' ∈ rendered.1 := by
  obtain ⟨base, hbase, rfl⟩ := eq_renderBase_of_renderWithCursor hrender
  rw [renderNumber, number_of_matchRule hkind hmatch, Option.some.injEq] at hbase
  subst hbase
  have hkept : ∀ {text : Text}, ' ' ∈ text → Piece.char ' ' ∈ cut (resolves bindings) text := by
    intro text hmem
    refine Placeholder.char_mem_cut (fun name hname => ?_) hmem
    have hfree := Resolves.not_space hnames hkind hmatch hname
    simp [Placeholder.token, hfree]
  have hpiece : Piece.char ' ' ∈ templatePieces bindings template := by
    unfold templatePieces
    split
    · exact hkept hspace
    · next left right hsplit =>
      rw [eq_append_of_splitOnce hsplit] at hspace
      simp only [cursorPlaceholder, List.mem_append, List.mem_cons, Char.reduceEq, List.not_mem_nil,
        or_self, false_or] at hspace
      rw [List.mem_append]
      exact hspace.imp hkept hkept
  rw [renderBase_eq_filled, filled]
  exact List.mem_flatMap.mpr ⟨_, hpiece, List.mem_singleton_self ' '⟩

/-- The static checks leave two guards open: the expansion for the shell, and the cap. -/
theorem Hides.eligible {abbr : Abbr} {template : Text} {bindings : Bindings}
    {rendered : Text × Option ℕ} (h : Hides engine abbr) (hrule : RuleAccepted engine abbr)
    (hnames : engine.NamesFreeOfSpaces) (hspace : ' ' ∉ token)
    (hmatch : matchRule engine abbr token = some bindings)
    (htemplate : abbr.expand.forShell shell = some template)
    (hrender : renderWithCursor abbr template bindings = some rendered) :
    Eligible engine token shell commandExists abbr rendered.1 rendered.2 := by
  have hfires := List.all_eq_true.mp h.always_fires template
    (PerShell.mem_allValues_of_forShell htemplate)
  simp only [Bool.and_eq_true, beq_iff_eq] at hfires
  obtain ⟨hdiffers, hnever⟩ := hfires
  refine ⟨bindings, template, [], hmatch, htemplate, ?_, ?_, hrender, ?_, ?_⟩
  · cases hphase : phaseOf abbr with
    | exact =>
      rw [(phaseOf_eq_exact.mp hphase).1] at hdiffers
      simp only [rewritesTokenToItself, (phaseOf_eq_exact.mp hphase).1, Bool.not_eq_true',
        beq_eq_false_iff_ne] at hdiffers
      simp [isExactSelfLoop, Ne.symm hdiffers]
    | _ => simp [isExactSelfLoop, hphase]
  · simp [ConditionsMet, h.unconditional]
  · exact (verdict_of_accepted hrule hmatch _ hrender).2 hnever
  · cases hkind : abbr.matchKind with
    | none =>
      have hphase : phaseOf abbr = .exact ∨ phaseOf abbr = .number := by
        by_cases hbrace : '{' ∈ abbr.key
        · exact Or.inr (phaseOf_eq_number.mpr ⟨hkind, hbrace⟩)
        · exact Or.inl (phaseOf_eq_exact.mpr ⟨hkind, hbrace⟩)
      rcases hphase with hphase | hphase <;> simp [isPatternSelfLoop, hphase]
    | some kind =>
      rw [hkind] at hdiffers
      have hmem := space_mem_of_render hnames (by simp [hkind]) hmatch (of_decide_eq_true hdiffers)
        hrender
      have hne : rendered.1 ≠ token := fun heq => hspace (heq ▸ hmem)
      simp [isPatternSelfLoop, hne]

theorem scanOrder_total {r s : ℕ × Abbr} (h : r.1 ≠ s.1) : ScanOrder r s ∨ ScanOrder s r := by
  unfold ScanOrder
  rcases Nat.lt_trichotomy (phases.idxOf (phaseOf r.2)) (phases.idxOf (phaseOf s.2)) with
    hlt | heq | hgt
  · exact Or.inl (Or.inl hlt)
  · have hphase : phaseOf r.2 = phaseOf s.2 := by
      revert heq
      cases phaseOf r.2 <;> cases phaseOf s.2 <;> decide
    rcases Nat.lt_or_gt_of_ne h with hlt | hgt
    · exact Or.inl (Or.inr ⟨hphase, hlt⟩)
    · exact Or.inr (Or.inr ⟨hphase.symm, hgt⟩)
  · exact Or.inr (Or.inl hgt)

section Warning

variable (engine config token shell commandExists)

/-- The rule at index `i` has an expansion for the shell that renders the token within the cap. -/
def Renders (i : ℕ) : Prop :=
  ∀ abbr bindings, config.abbr[i]? = some abbr → matchRule engine abbr token = some bindings →
    ∃ template text cursor, abbr.expand.forShell shell = some template ∧
      RendersTo abbr template bindings text cursor

/-- The rule at index `j` does not match or fails one of its guards, or a rule before it other than
    the one at `i` matches and passes every guard. -/
def OutOfTheRunning (i j : ℕ) : Prop :=
  ∀ later, config.abbr[j]? = some later →
    (∀ bindings, matchRule engine later token = some bindings →
      ∃ reason, SkippedBecause later token shell commandExists bindings reason) ∨
    ∃ k other bindings template text cursor commands, k ≠ i ∧ config.abbr[k]? = some other ∧
      matchRule engine other token = some bindings ∧
      Fires other token shell commandExists bindings template text cursor commands ∧
      ScanOrder (k, other) (j, later)

end Warning

/-- The half of the warning that is right: where the earlier rule renders, the later one is never
    selected. -/
theorem Hides.not_selected {i j : ℕ} {earlier later : Abbr} {text : Text} {cursor : Option ℕ}
    (h : Hides engine earlier) (hrule : RuleAccepted engine earlier)
    (hnames : engine.NamesFreeOfSpaces) (hlt : i < j) (hi : config.abbr[i]? = some earlier)
    (hj : config.abbr[j]? = some later) (hidentity : earlier.identity = later.identity)
    (hspace : ' ' ∉ token) (hrenders : Renders engine config token shell i) :
    ¬ Selected engine config token shell commandExists j text cursor := by
  rintro ⟨later', hj', ⟨bindings, _, _, hmatch, -⟩, hleast⟩
  obtain rfl := Option.some.inj (hj.symm.trans hj')
  obtain ⟨hsame, hphase⟩ := matchRule_of_identity engine token hidentity
  obtain ⟨template, text', cursor', htemplate, hrender⟩ :=
    hrenders earlier bindings hi (hsame.trans hmatch)
  have hearlier : Eligible engine token shell commandExists earlier text' cursor' :=
    h.eligible hrule hnames hspace (hsame.trans hmatch) htemplate
      (renderWithCursor_eq_some.mpr hrender)
  have horder := hleast i earlier text' cursor' hi (Nat.ne_of_lt hlt) hearlier
  exact horder.asymm (Or.inr ⟨hphase, hlt⟩)

/-- **When the unreachable warning is right.** For every accepted configuration and every warning
    about a rule `j`: the warning names an earlier rule `i`, and for every shell, token without a
    space and command oracle the rule `j` is never selected if and only if the rule `i` has an
    expansion for the shell that renders the token within the cap, or `j` is out of the running
    whatever `i` does. -/
theorem unreachable_iff (engine : RegexLite) (hnames : engine.NamesFreeOfSpaces) (config : Config)
    (haccepted : Accepted engine config) (check : Check)
    (hcheck : check ∈ checkUnreachableDuplicates engine config) (j : ℕ)
    (hname : check.name = unreachableCheckName j) :
    ∃ i later, i < j ∧ config.abbr[j]? = some later ∧ check = unreachableCheck later j i ∧
      ∀ shell token commandExists, ' ' ∉ token →
        ((∀ text cursor, ¬ Selected engine config token shell commandExists j text cursor) ↔
          Renders engine config token shell i ∨
            OutOfTheRunning engine config token shell commandExists i j) := by
  obtain ⟨i, earlier, later, hlt, hi, hj, hcheck', hidentity, hhides⟩ :=
    exists_hiding_of_check hcheck hname
  refine ⟨i, later, hlt, hj, hcheck', fun shell token commandExists hspace => ?_⟩
  constructor
  · intro hnever
    by_contra hopen
    rw [not_or] at hopen
    obtain ⟨hrenders, hrunning⟩ := hopen
    simp only [OutOfTheRunning, hj, Option.some.injEq, forall_eq', not_or] at hrunning
    obtain ⟨hfires, hothers⟩ := hrunning
    rw [← not_eligible_iff] at hfires
    simp only [not_forall, not_not] at hfires
    obtain ⟨text, cursor, heligible⟩ := hfires
    refine hnever text cursor ⟨later, hj, heligible, ?_⟩
    rintro k other text' cursor' hk hne ⟨bindings, template, commands, hmatch, hfires⟩
    -- The earlier rule does not render, so it is not the eligible rule `k`.
    have hki : k ≠ i := by
      rintro rfl
      obtain rfl := Option.some.inj (hi.symm.trans hk)
      refine hrenders fun abbr bindings' hget hmatch' => ?_
      obtain rfl := Option.some.inj (hi.symm.trans hget)
      obtain rfl := Option.some.inj (hmatch.symm.trans hmatch')
      exact ⟨template, text', cursor', hfires.template_eq,
        renderWithCursor_eq_some.mp hfires.render_eq⟩
    exact (scanOrder_total hne).resolve_left fun horder =>
      hothers ⟨k, other, bindings, template, text', cursor', commands, hki, hk, hmatch, hfires,
        horder⟩
  · rintro (hrenders | hrunning) text cursor hselected
    · exact hhides.not_selected (haccepted.rule (List.mem_of_getElem? hi)) hnames hlt hi hj
        hidentity hspace hrenders hselected
    · obtain ⟨later', hj', heligible, hleast⟩ := hselected
      obtain rfl := Option.some.inj (hj.symm.trans hj')
      rcases hrunning later hj with hskipped | ⟨k, other, bindings, template, text', cursor',
        commands, -, hk, hmatch, hfires, horder⟩
      · exact not_eligible_iff.mpr hskipped text cursor heligible
      · have hkj : k ≠ j := by
          rintro rfl
          obtain rfl := Option.some.inj (hj.symm.trans hk)
          exact horder.asymm horder
        exact horder.asymm (hleast k other text' cursor' hk hkj
          ⟨bindings, template, commands, hmatch, hfires⟩)

/-- The rule `gs`, for bash only. -/
def bashOnlyRule : Abbr where
  key := ['g', 's']
  expand := .byShell none (some ['g', 'i', 't']) none none none

/-- The rule `gs`, for every shell. -/
def everyShellRule : Abbr where
  key := ['g', 's']
  expand := .all ['g', 'o', 't']

def duplicateConfig : Config where
  version := 1
  abbr := [bashOnlyRule, everyShellRule]

theorem duplicateConfig_accepted : Accepted default duplicateConfig :=
  accepted_iff.mpr ⟨rfl, by decide, by decide +kernel⟩

theorem duplicateConfig_check :
    unreachableCheck everyShellRule 1 0 ∈ checkUnreachableDuplicates default duplicateConfig := by
  have hchecks : checkUnreachableDuplicates default duplicateConfig =
      [unreachableCheck everyShellRule 1 0] := by decide +kernel
  rw [hchecks]
  exact List.mem_singleton_self _

/-- In bash the first rule `gs` renders, and the second is never selected. -/
theorem unreachable_iff_bashOnly : ¬ ∃ text cursor,
    Selected default duplicateConfig ['g', 's'] .bash (fun _ => true) 1 text cursor := by
  rintro ⟨text, cursor, hselected⟩
  obtain ⟨i, later, hlt, -, -, hiff⟩ := unreachable_iff default (fun _ regex => regex.elim)
    duplicateConfig duplicateConfig_accepted (unreachableCheck everyShellRule 1 0)
    duplicateConfig_check 1 rfl
  obtain rfl : i = 0 := Nat.lt_one_iff.mp hlt
  refine (hiff .bash ['g', 's'] (fun _ => true) (by decide)).mpr (Or.inl ?_) text cursor hselected
  rintro _ bindings ⟨⟩ hmatch
  obtain rfl : ({} : Bindings) = bindings := by
    have hexact : matchRule default bashOnlyRule ['g', 's'] = some {} := by decide +kernel
    exact Option.some.inj (hexact.symm.trans hmatch)
  exact ⟨['g', 'i', 't'], ['g', 'i', 't'], none, rfl,
    renderWithCursor_eq_some.mp (by decide +kernel)⟩

/-- In zsh the second rule `gs` is selected, although it is warned about. -/
theorem unreachable_unsound : ¬ ∀ (engine : RegexLite) (config : Config), Accepted engine config →
    ∀ check ∈ checkUnreachableDuplicates engine config, ∀ j,
      check.name = unreachableCheckName j → ∀ shell token commandExists, ' ' ∉ token →
        ∀ text cursor, ¬ Selected engine config token shell commandExists j text cursor := by
  intro h
  refine h default duplicateConfig duplicateConfig_accepted _ duplicateConfig_check 1 rfl .zsh
    ['g', 's'] (fun _ => true) (by decide) ['g', 'o', 't'] none ?_
  refine selected_iff.mpr ⟨[(0, bashOnlyRule)], everyShellRule, [], by decide +kernel,
    by decide +kernel, ?_⟩
  simp only [List.mem_singleton, forall_eq]
  decide +kernel

end Runex
