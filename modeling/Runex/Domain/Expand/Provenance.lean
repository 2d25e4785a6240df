import Runex.Domain.Expand.Captures
import Runex.Domain.Expand.Selection

/-!
# Where the characters of an expansion come from

Rendering invents nothing: every character it inserts is one of the template, of the unit that
`{number}` repeats, or of the typed token.

## Main definitions

- `RegexLite.CapturesOfToken` — what is assumed of the engine
- `Offers` — the characters that a rule and a token have to offer

## Main results

- `offers_of_expand` — an expansion is made of them
-/

namespace Runex

open Search

/-- The text of a capture group is a part of the text that was searched. -/
def RegexLite.CapturesOfToken (engine : RegexLite) : Prop :=
  ∀ regex token captures, engine.captures regex token = some captures →
    ∀ i text, captures i = some text → text <:+: token

/-- A character of the template, of the unit or of the token. -/
def Offers (abbr : Abbr) (shell : Shell) (token : Text) (c : Char) : Prop :=
  (∃ template, abbr.expand.forShell shell = some template ∧ c ∈ template) ∨
    (∃ unit, abbr.number = some unit ∧ c ∈ unit) ∨ c ∈ token

variable {engine : RegexLite} {abbr : Abbr} {token : Text} {bindings : Bindings} {c : Char}

theorem exists_of_resolvedAfterOpen {afterOpen capture after : Text}
    (h : resolvedAfterOpen afterOpen bindings = some (capture, after)) :
    ∃ name, afterOpen = name ++ '}' :: after ∧ resolveCapture name bindings = some capture := by
  unfold resolvedAfterOpen at h
  split at h
  · cases h
  · next name rest hsplit =>
    obtain ⟨_, hcapture, heq⟩ := Option.map_eq_some_iff.mp h
    obtain ⟨rfl, rfl⟩ := Prod.mk.inj heq
    exact ⟨name, (splitOnce_singleton_eq_some.mp hsplit).1, hcapture⟩

/-- Substitution takes its characters from the text and from the captures. -/
theorem mem_of_mem_substitute {text : Text} (h : c ∈ substitute text bindings) :
    c ∈ text ∨ ∃ name capture, resolveCapture name bindings = some capture ∧ c ∈ capture := by
  induction hlen : text.length using Nat.strong_induction_on generalizing text with
  | _ n ih =>
    cases text with
    | nil => simp at h
    | cons d s =>
      simp only [List.length_cons] at hlen
      by_cases hd : d = '{'
      · subst hd
        cases hopen : resolvedAfterOpen s bindings with
        | none =>
          rw [substitute_open_none hopen, List.mem_cons] at h
          rcases h with rfl | h
          · exact Or.inl List.mem_cons_self
          · exact (ih s.length (by omega) h rfl).imp_left (List.mem_cons_of_mem _)
        | some parts =>
          obtain ⟨capture, after⟩ := parts
          have hshort := resolvedAfterOpen_length hopen
          obtain ⟨name, rfl, hcapture⟩ := exists_of_resolvedAfterOpen hopen
          rw [substitute_open_some hopen, List.mem_append] at h
          rcases h with h | h
          · exact Or.inr ⟨name, capture, hcapture, h⟩
          · refine (ih after.length (by omega) h rfl).imp_left fun hafter => ?_
            simp [hafter]
      · rw [substitute_cons_ne hd, List.mem_cons] at h
        rcases h with rfl | h
        · exact Or.inl List.mem_cons_self
        · exact (ih s.length (by omega) h rfl).imp_left (List.mem_cons_of_mem _)

theorem infix_of_matchGlobKey {key captured : Text} (h : matchGlobKey key token = some captured) :
    captured <:+: token := by
  unfold matchGlobKey at h
  split at h
  · split at h
    · obtain rfl := Option.some.inj h
      exact List.nil_infix
    · cases h
  · simp only at h
    split at h
    · cases h
    · split at h
      · obtain rfl := Option.some.inj h
        exact (List.drop_suffix _ _).isInfix.trans (List.take_prefix _ _).isInfix
      · cases h

/-- A key without a `match` field captures no text. -/
theorem captures_of_matchAbbrKey {key : Text} (h : matchAbbrKey key token = some bindings) :
    bindings.glob = none ∧ bindings.regex = none := by
  unfold matchAbbrKey at h
  split at h
  · split at h
    · obtain rfl := Option.some.inj h
      exact ⟨rfl, rfl⟩
    · cases h
  · split at h
    · split at h
      · obtain rfl := Option.some.inj h
        exact ⟨rfl, rfl⟩
      · cases h
    · obtain ⟨rest, -, h⟩ := Option.bind_eq_some_iff.mp h
      obtain ⟨digits, -, h⟩ := Option.bind_eq_some_iff.mp h
      split at h
      · cases h
      · obtain ⟨n, -, h⟩ := Option.bind_eq_some_iff.mp h
        split at h
        · cases h
        · obtain rfl := Option.some.inj h
          exact ⟨rfl, rfl⟩

/-- What a match captures is a part of the token. -/
theorem infix_of_capture (hengine : engine.CapturesOfToken)
    (hmatch : matchRule engine abbr token = some bindings) {name capture : Text}
    (hcapture : resolveCapture name bindings = some capture) : capture <:+: token := by
  unfold matchRule at hmatch
  split at hmatch
  · obtain ⟨captured, hglob, rfl⟩ := Option.map_eq_some_iff.mp hmatch
    by_cases hstar : name = globCaptureName
    · rw [resolveCapture, if_pos hstar] at hcapture
      obtain rfl := Option.some.inj hcapture
      exact infix_of_matchGlobKey hglob
    · simp [resolveCapture, hstar] at hcapture
  · obtain ⟨groups, hgroups, rfl⟩ := Option.map_eq_some_iff.mp hmatch
    by_cases hstar : name = globCaptureName
    · simp [resolveCapture, hstar] at hcapture
    · rw [resolveCapture_regex hstar rfl] at hcapture
      obtain ⟨group, hgroup, rfl⟩ := Option.map_eq_some_iff.mp hcapture
      have hmem := mem_of_groupNamed hgroup
      unfold matchRegexKey at hgroups
      split at hgroups
      · cases hgroups
      · obtain ⟨captures, hcaptures, rfl⟩ := Option.map_eq_some_iff.mp hgroups
        obtain ⟨⟨groupName, i⟩, -, rfl⟩ := List.mem_map.mp hmem
        show (captures i).getD [] <:+: token
        cases htext : captures i with
        | none => exact List.nil_infix
        | some text => exact hengine _ _ _ hcaptures i text htext
  · obtain ⟨hglob, hregex⟩ := captures_of_matchAbbrKey hmatch
    rw [resolveCapture_without_captures hglob hregex] at hcapture
    cases hcapture

/-- Rendering takes its characters from the template, the unit and the captures. -/
theorem mem_of_rendersTo {template text : Text} {cursor : Option ℕ}
    (h : RendersTo abbr template bindings text cursor) (hc : c ∈ text) :
    c ∈ template ∨ (∃ unit, abbr.number = some unit ∧ c ∈ unit) ∨
      ∃ name capture, resolveCapture name bindings = some capture ∧ c ∈ capture := by
  obtain ⟨base, hbase, hrender, -⟩ := h
  have hfrom : c ∈ base ∨ ∃ name capture, resolveCapture name bindings = some capture ∧
      c ∈ capture := by
    rw [← show (renderBase base bindings).1 = text from congrArg Prod.fst hrender] at hc
    cases hsplit : splitOnce cursorPlaceholder base with
    | none =>
      rw [renderBase_of_none hsplit] at hc
      exact mem_of_mem_substitute hc
    | some parts =>
      rw [renderBase_of_some hsplit, List.mem_append] at hc
      have hparts := eq_append_of_splitOnce hsplit
      rcases hc with hc | hc
      · exact (mem_of_mem_substitute hc).imp_left fun hleft => by simp [hparts, hleft]
      · exact (mem_of_mem_substitute hc).imp_left fun hright => by simp [hparts, hright]
  rcases hfrom with hmem | hcapture
  · unfold RepeatsTo at hbase
    split at hbase
    · exact Or.inl (hbase ▸ hmem)
    · obtain ⟨unit, hunit, -, rfl, -⟩ := hbase
      rcases mem_of_mem_replaceAll hmem with hmem | hmem
      · obtain ⟨copy, hcopy, hin⟩ := List.mem_flatten.mp hmem
        exact Or.inr (Or.inl ⟨unit, hunit, (List.mem_replicate.mp hcopy).2 ▸ hin⟩)
      · exact Or.inl hmem
  · exact Or.inr (Or.inr hcapture)

/-- An expansion is made of what its rule and the token offer. -/
theorem offers_of_expand (hengine : engine.CapturesOfToken) {config : Config} {shell : Shell}
    {commandExists : Text → Bool} {text : Text} {cursor : Option ℕ}
    (h : expand engine config token shell commandExists = .expanded text cursor) :
    ∃ abbr ∈ config.abbr, (matchRule engine abbr token).isSome ∧
      ∀ c ∈ text, Offers abbr shell token c := by
  obtain ⟨abbr, hmem, bindings, hmatch, htry⟩ := expand_eq_expanded h
  obtain ⟨template, text', cursor', htemplate, hrender, -, hresult⟩ := tryExpandRule_eq_some htry
  obtain ⟨rfl, rfl⟩ := ExpandResult.expanded.inj hresult
  refine ⟨abbr, hmem, by simp [hmatch], fun c hc => ?_⟩
  rcases mem_of_rendersTo (renderWithCursor_eq_some.mp hrender) hc with hfrom | hfrom | hfrom
  · exact Or.inl ⟨template, htemplate, hfrom⟩
  · exact Or.inr (Or.inl hfrom)
  · obtain ⟨name, capture, hcapture, hc⟩ := hfrom
    exact Or.inr (Or.inr ((infix_of_capture hengine hmatch hcapture).subset hc))

end Runex
