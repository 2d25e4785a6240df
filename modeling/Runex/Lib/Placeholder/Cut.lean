import Runex.Lib.Placeholder

/-!
# Cutting a text at the placeholders of known names

Which names are known is a parameter. A text has at most one cut whose slots are exactly the
occurrences of known placeholders, and when no known name has a brace a left-to-right scan finds
it. Filling a cut replaces every known placeholder at once.

## Main definitions

- `Placeholder.Piece` — a character that stands for itself, or a slot
- `Placeholder.Cuts` — the slots are the occurrences of known placeholders
- `Placeholder.Fills` — the text of a cut whose slots have got what their names stand for
- `Placeholder.cut` — the scan

## Main results

- `Placeholder.Cuts.unique` — there is at most one cut
- `Placeholder.fills_iff` — what stands for the names fills a cut in one way
- `Placeholder.cuts_cut` — the scan finds it
-/

namespace Placeholder

open Search

/-- A piece of a cut text. -/
inductive Piece where
  | char (c : Char)
  | slot (name : Text)
  deriving DecidableEq

namespace Piece

/-- The text the piece was cut from. -/
def source : Piece → Text
  | char c => [c]
  | slot name => token name

/-- The piece with its slot filled. -/
def fill (value : Text → Text) : Piece → Text
  | char c => [c]
  | slot name => value name

theorem source_ne_nil (piece : Piece) : piece.source ≠ [] := by
  cases piece with
  | char c => simp [source]
  | slot name => exact token_ne_nil name

end Piece

open Piece

/-- The pieces make up the text, and their slots are the occurrences of known placeholders. -/
structure Cuts (known : Text → Prop) (text : Text) (pieces : List Piece) : Prop where
  source_eq : pieces.flatMap source = text
  known_of_slot : ∀ name, slot name ∈ pieces → known name
  slot_of_occurrence : ∀ pre name post, known name → text = pre ++ (token name ++ post) →
    ∃ before after, pieces = before ++ slot name :: after ∧ before.flatMap source = pre

variable {known : Text → Prop} {text : Text} {pieces : List Piece}

theorem cuts_nil : Cuts known [] [] where
  source_eq := rfl
  known_of_slot := by simp
  slot_of_occurrence := by
    intro pre name post _ htext
    have hlen := congrArg List.length htext
    simp only [List.length_nil, List.length_append, token, List.length_cons] at hlen
    omega

/-- An occurrence at the very start is the first piece. -/
theorem Cuts.head_of_occurrence {name post : Text} (h : Cuts known text pieces)
    (hname : known name) (htext : text = token name ++ post) :
    ∃ after, pieces = slot name :: after := by
  obtain ⟨before, after, hpieces, hbefore⟩ := h.slot_of_occurrence [] name post hname htext
  cases before with
  | nil => exact ⟨after, hpieces⟩
  | cons piece before =>
    rw [List.flatMap_cons, List.append_eq_nil_iff] at hbefore
    exact absurd hbefore.1 piece.source_ne_nil

/-- The pieces after the first cut the text after it. -/
theorem Cuts.tail {piece : Piece} (h : Cuts known text (piece :: pieces)) :
    ∃ rest, text = piece.source ++ rest ∧ Cuts known rest pieces := by
  refine ⟨pieces.flatMap source, by rw [← h.source_eq, List.flatMap_cons], rfl, ?_, ?_⟩
  · exact fun name hmem => h.known_of_slot name (List.mem_cons_of_mem _ hmem)
  · intro pre name post hname htext
    have hfull : text = (piece.source ++ pre) ++ (token name ++ post) := by
      rw [← h.source_eq, List.flatMap_cons, htext, List.append_assoc]
    obtain ⟨before, after, hpieces, hbefore⟩ := h.slot_of_occurrence _ name post hname hfull
    cases before with
    | nil =>
      simp only [List.flatMap_nil, List.nil_eq, List.append_eq_nil_iff] at hbefore
      exact absurd hbefore.1 piece.source_ne_nil
    | cons first before =>
      rw [List.cons_append, List.cons.injEq] at hpieces
      obtain ⟨rfl, hpieces⟩ := hpieces
      rw [List.flatMap_cons, List.append_right_inj] at hbefore
      exact ⟨before, after, hpieces, hbefore⟩

/-- A text has at most one cut. -/
theorem Cuts.unique {other : List Piece} (h : Cuts known text pieces)
    (h' : Cuts known text other) : pieces = other := by
  induction pieces generalizing text other with
  | nil =>
    cases other with
    | nil => rfl
    | cons piece other =>
      have hsource := h'.source_eq.trans h.source_eq.symm
      rw [List.flatMap_cons, List.flatMap_nil, List.append_eq_nil_iff] at hsource
      exact absurd hsource.1 piece.source_ne_nil
  | cons piece pieces ih =>
    cases other with
    | nil =>
      have hsource := h.source_eq.trans h'.source_eq.symm
      rw [List.flatMap_cons, List.flatMap_nil, List.append_eq_nil_iff] at hsource
      exact absurd hsource.1 piece.source_ne_nil
    | cons first other =>
      obtain ⟨rest, htext, htail⟩ := h.tail
      obtain ⟨rest', htext', htail'⟩ := h'.tail
      have hsame : piece = first := by
        cases piece with
        | slot name =>
          obtain ⟨_, hfirst⟩ := h'.head_of_occurrence
            (h.known_of_slot name List.mem_cons_self) htext
          exact (List.cons.inj hfirst).1.symm
        | char c =>
          cases first with
          | slot name =>
            obtain ⟨_, hpiece⟩ := h.head_of_occurrence
              (h'.known_of_slot name List.mem_cons_self) htext'
            exact (List.cons.inj hpiece).1
          | char d =>
            have hchars := htext.symm.trans htext'
            simp only [source, List.singleton_append, List.cons.injEq] at hchars
            rw [hchars.1]
      subst hsame
      have hrest : rest = rest' := List.append_cancel_left (htext.symm.trans htext')
      subst hrest
      rw [ih htail htail']

/-- The text of the pieces, each slot replaced by something its name stands for. -/
inductive Fills (stands : Text → Text → Prop) : List Piece → Text → Prop where
  | nil : Fills stands [] []
  | char {pieces : List Piece} {text : Text} (c : Char) (h : Fills stands pieces text) :
      Fills stands (char c :: pieces) (c :: text)
  | slot {name value : Text} {pieces : List Piece} {text : Text} (hvalue : stands name value)
      (h : Fills stands pieces text) : Fills stands (slot name :: pieces) (value ++ text)

/-- Where a name stands for one text at most, the slots of a cut are filled in one way. -/
theorem fills_iff {stands : Text → Text → Prop} {value : Text → Option Text} {result : Text}
    (hstands : ∀ name text, stands name text ↔ value name = some text)
    (hslots : ∀ name, slot name ∈ pieces → ∃ text, stands name text) :
    Fills stands pieces result ↔ result = pieces.flatMap (fill fun name => (value name).getD []) := by
  induction pieces generalizing result with
  | nil =>
    refine ⟨fun h => ?_, fun h => h ▸ Fills.nil⟩
    cases h
    rfl
  | cons piece pieces ih =>
    have ih {rest : Text} := @ih rest fun name hmem => hslots name (List.mem_cons_of_mem _ hmem)
    rw [List.flatMap_cons]
    cases piece with
    | char c =>
      refine ⟨fun h => ?_, fun h => h ▸ Fills.char c (ih.mpr rfl)⟩
      cases h with
      | char _ hrest => rw [ih.mp hrest]; rfl
    | slot name =>
      obtain ⟨text, htext⟩ := hslots name List.mem_cons_self
      have hvalue : fill (fun name => (value name).getD []) (slot name) = text := by
        rw [fill, (hstands name text).mp htext, Option.getD_some]
      rw [hvalue]
      refine ⟨fun h => ?_, fun h => h ▸ Fills.slot htext (ih.mpr rfl)⟩
      cases h with
      | slot hother hrest =>
        have hsame := ((hstands _ _).mp hother).symm.trans ((hstands _ _).mp htext)
        rw [ih.mp hrest, Option.some.inj hsame]

/-- The name of the known placeholder a text starts with. -/
def slotAt (known : Text → Bool) : Text → Option Text
  | [] => none
  | c :: s =>
    if c = '{' then
      ((splitOnce ['}'] s).map Prod.fst).filter known
    else none

/-- The scan of `cut`, with a number of characters to skip. -/
def cutGo (known : Text → Bool) : ℕ → Text → List Piece
  | _, [] => []
  | skip + 1, _ :: s => cutGo known skip s
  | 0, c :: s =>
    match slotAt known (c :: s) with
    | some name => slot name :: cutGo known (name.length + 1) s
    | none => char c :: cutGo known 0 s

/-- A text cut at its known placeholders. -/
def cut (known : Text → Bool) (text : Text) : List Piece := cutGo known 0 text

section Scan

variable {known : Text → Bool} {name : Text}

theorem slotAt_eq_some {text : Text} : slotAt known text = some name ↔
    known name = true ∧ '}' ∉ name ∧ ∃ post, text = token name ++ post := by
  cases text with
  | nil => simp [slotAt, token]
  | cons c s =>
    by_cases hc : c = '{'
    · subst hc
      simp only [slotAt, if_true, Option.filter_eq_some_iff, Option.map_eq_some_iff, Prod.exists,
        exists_and_right, exists_eq_right, splitOnce_singleton_eq_some, token, List.cons_append,
        List.append_assoc, List.nil_append, List.cons.injEq, true_and]
      tauto
    · simp [slotAt, hc, token]

theorem cutGo_eq_drop (known : Text → Bool) (skip : ℕ) (text : Text) :
    cutGo known skip text = cut known (text.drop skip) := by
  induction text generalizing skip with
  | nil => cases skip <;> rfl
  | cons c s ih =>
    cases skip with
    | zero => rfl
    | succ skip => rw [cutGo, ih skip, List.drop_succ_cons]

@[simp] theorem cut_nil : cut known [] = [] := rfl

theorem cut_token (hname : known name = true) (hclose : '}' ∉ name) (post : Text) :
    cut known (token name ++ post) = slot name :: cut known post := by
  have hslot : slotAt known (token name ++ post) = some name :=
    slotAt_eq_some.mpr ⟨hname, hclose, post, rfl⟩
  rw [token, List.cons_append] at hslot ⊢
  rw [cut, cutGo, hslot]
  simp only [cutGo_eq_drop]
  congr 2
  simp [List.drop_append]

theorem cut_cons {c : Char} {s : Text} (h : slotAt known (c :: s) = none) :
    cut known (c :: s) = char c :: cut known s := by
  rw [cut, cutGo, h]
  rfl

/-- Induction along the scan. -/
theorem cut_induction (known : Text → Bool) {motive : Text → Prop} (nil : motive [])
    (slot : ∀ name post, known name = true → '}' ∉ name → motive post →
      motive (token name ++ post))
    (char : ∀ c s, slotAt known (c :: s) = none → motive s → motive (c :: s)) (text : Text) :
    motive text := by
  induction hlen : text.length using Nat.strong_induction_on generalizing text with
  | _ n ih =>
    cases text with
    | nil => exact nil
    | cons c s =>
      cases hslot : slotAt known (c :: s) with
      | none => exact char c s hslot (ih s.length (by simp [← hlen]) s rfl)
      | some name =>
        obtain ⟨hname, hclose, post, htext⟩ := slotAt_eq_some.mp hslot
        rw [htext] at hlen ⊢
        refine slot name post hname hclose (ih post.length ?_ post rfl)
        simp only [List.length_append, token, List.length_cons] at hlen
        omega

/-- A character that is in no known placeholder stands for itself wherever it occurs. -/
theorem char_mem_cut {c : Char} (hc : ∀ name, known name = true → c ∉ token name) {text : Text}
    (h : c ∈ text) : char c ∈ cut known text := by
  induction text using cut_induction known with
  | nil => exact absurd h (by simp)
  | slot name post hname hclose ih =>
    rw [cut_token hname hclose]
    rcases List.mem_append.mp h with h | h
    · exact absurd h (hc name hname)
    · exact List.mem_cons_of_mem _ (ih h)
  | char d s hslot ih =>
    rw [cut_cons hslot]
    rcases List.mem_cons.mp h with rfl | h
    · exact List.mem_cons_self
    · exact List.mem_cons_of_mem _ (ih h)

end Scan

/-- A character that starts no known placeholder stands for itself. -/
theorem Cuts.char_cons {c : Char} (h : Cuts known text pieces)
    (hnone : ∀ name post, known name → c :: text ≠ token name ++ post) :
    Cuts known (c :: text) (char c :: pieces) where
  source_eq := by rw [List.flatMap_cons, h.source_eq]; rfl
  known_of_slot := by
    intro name hmem
    exact h.known_of_slot name (by simpa using hmem)
  slot_of_occurrence := by
    intro pre name post hname htext
    cases pre with
    | nil => exact absurd htext (hnone name post hname)
    | cons d pre =>
      rw [List.cons_append, List.cons.injEq] at htext
      obtain ⟨rfl, htext⟩ := htext
      obtain ⟨before, after, rfl, rfl⟩ := h.slot_of_occurrence pre name post hname htext
      exact ⟨char c :: before, after, rfl, rfl⟩

/-- Names without braces: an occurrence that does not start with this placeholder comes after
    it. -/
theorem Cuts.slot_cons {name : Text} (h : Cuts known text pieces) (hname : known name)
    (hfree : ∀ name, known name → '{' ∉ name ∧ '}' ∉ name) :
    Cuts known (token name ++ text) (slot name :: pieces) where
  source_eq := by rw [List.flatMap_cons, h.source_eq]; rfl
  known_of_slot := by
    intro other hmem
    rcases List.mem_cons.mp hmem with heq | hmem
    · rw [Piece.slot.injEq] at heq
      exact heq ▸ hname
    · exact h.known_of_slot other hmem
  slot_of_occurrence := by
    intro pre other post hother htext
    rcases List.append_eq_append_iff.mp htext with ⟨rest, hpre, hrest⟩ | ⟨rest, hsplit, hrest⟩
    · obtain ⟨before, after, rfl, rfl⟩ := h.slot_of_occurrence rest other post hother hrest
      exact ⟨slot name :: before, after, rfl, by rw [List.flatMap_cons, hpre]; rfl⟩
    · cases pre with
      | nil =>
        -- Both placeholders start the text, so they have the same name.
        have hsame : other = name := by
          have hleft : splitOnce ['}'] (other ++ '}' :: post) = some (other, post) :=
            splitOnce_singleton_eq_some.mpr ⟨rfl, (hfree other hother).2⟩
          have hright : splitOnce ['}'] (name ++ '}' :: text) = some (name, text) :=
            splitOnce_singleton_eq_some.mpr ⟨rfl, (hfree name hname).2⟩
          have hbodies : name ++ '}' :: text = other ++ '}' :: post := by
            simpa [token] using htext
          rw [hbodies, hleft, Option.some.injEq, Prod.mk.injEq] at hright
          exact hright.1
        exact ⟨[], pieces, by rw [hsame]; rfl, rfl⟩
      | cons c pre =>
        cases rest with
        | nil =>
          rw [List.append_nil] at hsplit
          rw [List.nil_append] at hrest
          obtain ⟨before, after, rfl, hbefore⟩ :=
            h.slot_of_occurrence [] other post hother hrest.symm
          refine ⟨slot name :: before, after, rfl, ?_⟩
          rw [List.flatMap_cons, hbefore, List.append_nil, ← hsplit]
          rfl
        | cons d rest =>
          -- The brace of the other placeholder would be inside this name.
          simp only [token, List.cons_append, List.cons.injEq] at hsplit hrest
          obtain ⟨-, hinside⟩ := hsplit
          have hmem : '{' ∈ name ++ ['}'] := by
            rw [hinside, hrest.1]
            simp
          simp [(hfree name hname).1] at hmem

/-- The scan finds the cut when no known name has a brace. -/
theorem cuts_cut {known : Text → Bool}
    (hfree : ∀ name, known name = true → '{' ∉ name ∧ '}' ∉ name) (text : Text) :
    Cuts (fun name => known name = true) text (cut known text) := by
  induction text using cut_induction known with
  | nil => exact cuts_nil
  | slot name post hname hclose ih =>
    rw [cut_token hname hclose]
    exact ih.slot_cons hname hfree
  | char c s hslot ih =>
    rw [cut_cons hslot]
    refine ih.char_cons fun name post hname htext => ?_
    rw [slotAt_eq_some.mpr ⟨hname, (hfree name hname).2, post, htext⟩] at hslot
    exact absurd hslot (by simp)

end Placeholder
