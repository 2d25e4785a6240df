import Runex.Lib.Text
import Runex.Lib.Search

/-!
# Placeholders in braces

A placeholder is a name of capitals and underscores in braces. A template is cut at its
placeholders and filled all at once; a template that is written as a list of well-formed pieces is
cut into these pieces.

## Main definitions

- `Placeholder.token` — a placeholder
- `Placeholder.Sealed`, `Placeholder.Closed` — no placeholder goes on past the end of a text
- `Placeholder.Clear` — no placeholder occurs in a text
- `Placeholder.Quoting`, `Placeholder.kept` — quoting functions that leave placeholders alone
- `Placeholder.segments`, `Placeholder.substituteAll` — cut a template, and fill it at once
- `Placeholder.WellFormed`, `Placeholder.holes` — a template given by its pieces

## Main results

- `Placeholder.token_infix_flatMap` — a quoted text contains the placeholders of what was kept
- `Placeholder.segments_flatMap` — cutting a template of well-formed pieces
-/

namespace Placeholder

open Search

-- ════════════════════════════════════════════════════════════════════════
-- Tokens
-- ════════════════════════════════════════════════════════════════════════

def isNameChar (c : Char) : Bool := c.isUpper || c == '_'

/-- A name that can be written in braces. -/
def IsName (name : Text) : Prop := name ≠ [] ∧ ∀ c ∈ name, isNameChar c = true

instance (name : Text) : Decidable (IsName name) := inferInstanceAs (Decidable (_ ∧ _))

/-- `{name}`. -/
def token (name : Text) : Text := '{' :: (name ++ ['}'])

/-- A character after which a placeholder can go on. -/
def opens (c : Char) : Bool := c == '{' || isNameChar c

/-- A character of some placeholder. -/
def isTokenChar (c : Char) : Bool := opens c || c == '}'

theorem token_ne_nil (name : Text) : token name ≠ [] := by simp [token]

theorem isTokenChar_of_mem_token {name : Text} (hname : IsName name) {c : Char}
    (h : c ∈ token name) : isTokenChar c = true := by
  simp only [token, List.mem_cons, List.mem_append, List.not_mem_nil, or_false] at h
  rcases h with rfl | h | rfl
  · rfl
  · simp [isTokenChar, opens, hname.2 c h]
  · rfl

theorem not_isNameChar_open : isNameChar '{' = false := by decide

theorem not_isNameChar_close : isNameChar '}' = false := by decide

/-- A placeholder occurs in another only if it is the same. -/
theorem token_infix_token {m n : Text} (hm : IsName m) (hn : IsName n)
    (h : token m <:+: token n) : m = n := by
  obtain ⟨before, after, heq⟩ := h
  have hopen : '{' ∉ n := fun hmem => by simpa [not_isNameChar_open] using hn.2 _ hmem
  cases before with
  | cons c before =>
    -- The opening brace of `m` would be a character of the name `n`.
    simp only [token, List.cons_append, List.append_assoc, List.cons.injEq] at heq
    have hmem : '{' ∈ n ++ ['}'] := by rw [← heq.2]; simp
    simp [hopen] at hmem
  | nil =>
    simp only [token, List.nil_append, List.cons_append, List.append_assoc, List.cons.injEq,
      true_and] at heq
    have hclose : ∀ s : Text, IsName s → '}' ∉ s :=
      fun s hs hmem => by simpa [not_isNameChar_close] using hs.2 _ hmem
    have hm' : splitOnce ['}'] (m ++ '}' :: after) = some (m, after) :=
      splitOnce_singleton_eq_some.mpr ⟨rfl, hclose m hm⟩
    have hn' : splitOnce ['}'] (n ++ ['}']) = some (n, []) :=
      splitOnce_singleton_eq_some.mpr ⟨rfl, hclose n hn⟩
    rw [← heq] at hn'
    simp only [hm', Option.some.injEq, Prod.mk.injEq] at hn'
    exact hn'.1

-- ════════════════════════════════════════════════════════════════════════
-- Sealed texts
-- ════════════════════════════════════════════════════════════════════════

/-- No placeholder that starts in the text goes on past its end. -/
def Sealed (s : Text) : Prop := ∀ c ∈ s.getLast?, opens c = false

/-- The text ends with a character of no placeholder. -/
def Closed (s : Text) : Prop := ∀ c ∈ s.getLast?, isTokenChar c = false

instance (s : Text) : Decidable (Sealed s) := inferInstanceAs (Decidable (∀ c ∈ s.getLast?, _))

instance (s : Text) : Decidable (Closed s) := inferInstanceAs (Decidable (∀ c ∈ s.getLast?, _))

/-- None of these placeholders occurs in the text. -/
def Free (names : List Text) (s : Text) : Prop := ∀ name ∈ names, ¬ token name <:+: s

instance (names : List Text) (s : Text) : Decidable (Free names s) :=
  inferInstanceAs (Decidable (∀ name ∈ names, _))

@[simp] theorem free_nil (s : Text) : Free [] s := nofun

theorem free_append_names {names names' : List Text} {s : Text} :
    Free (names ++ names') s ↔ Free names s ∧ Free names' s := by
  simp [Free, or_imp, forall_and]

/-- No placeholder of any name occurs in the text. -/
def Clear (s : Text) : Prop := ∀ name, IsName name → ¬ token name <:+: s

theorem Clear.free {s : Text} (h : Clear s) {names : List Text} (hnames : ∀ n ∈ names, IsName n) :
    Free names s := fun name hname => h name (hnames name hname)

theorem Closed.sealed {s : Text} (h : Closed s) : Sealed s := by
  intro c hc
  have := h c hc
  simp only [isTokenChar, Bool.or_eq_false_iff] at this
  exact this.1

theorem getLast?_token (name : Text) : (token name).getLast? = some '}' := by
  simp [token, List.getLast?_cons, List.getLast?_append]

theorem sealed_token (name : Text) : Sealed (token name) := by
  intro c hc
  rw [getLast?_token, Option.mem_some_iff] at hc
  subst hc
  decide

theorem Sealed.of_append {s t : Text} (h : Sealed (s ++ t)) : Sealed t := by
  intro c hc
  refine h c ?_
  rw [Option.mem_def] at hc ⊢
  simp [List.getLast?_append, hc]

theorem Sealed.append {s t : Text} (hs : Sealed s) (ht : Sealed t) : Sealed (s ++ t) := by
  intro c hc
  cases hlast : t.getLast? with
  | none => exact hs c (by simpa [List.getLast?_append, hlast] using hc)
  | some d => exact ht c (by simpa [List.getLast?_append, hlast] using hc)

theorem Closed.append_left {s t : Text} (hne : t ≠ []) (h : Closed t) : Closed (s ++ t) := by
  rwa [Closed, List.getLast?_append_of_ne_nil _ hne]

theorem Sealed.append_singleton {s : Text} {c : Char} (h : opens c = false) : Sealed (s ++ [c]) := by
  intro d hd
  rw [List.getLast?_concat, Option.mem_some_iff] at hd
  exact hd ▸ h

theorem Sealed.intercalate {sep : Text} (hsep : Sealed sep) {pieces : List Text}
    (h : ∀ s ∈ pieces, Sealed s) : Sealed (sep.intercalate pieces) := by
  induction pieces with
  | nil => simp [Sealed]
  | cons s pieces ih =>
    cases pieces with
    | nil => simpa using h
    | cons t pieces =>
      rw [List.intercalate_cons_cons]
      exact ((h s (by simp)).append hsep).append (ih fun u hu => h u (List.mem_cons_of_mem s hu))

/-- A proper beginning of a placeholder ends where the placeholder can go on. -/
theorem prefix_token_cases {name s : Text} (hname : IsName name) (h : s <+: token name) :
    s = [] ∨ s = token name ∨ ¬ Sealed s := by
  cases s with
  | nil => exact Or.inl rfl
  | cons c s =>
    rw [token, List.cons_prefix_cons] at h
    obtain ⟨rfl, hs⟩ := h
    rw [List.prefix_concat_iff] at hs
    rcases hs with rfl | hs
    · exact Or.inr (Or.inl rfl)
    · refine Or.inr (Or.inr fun hsealed => ?_)
      cases hlast : s.getLast? with
      | none =>
        have := hsealed '{' (by simp [List.getLast?_eq_none_iff.mp hlast])
        exact absurd this (by decide)
      | some d =>
        have hopens := hsealed d (by simp [List.getLast?_cons, hlast])
        have hmem : d ∈ name := hs.subset (List.mem_of_getLast? hlast)
        simp [opens, hname.2 d hmem] at hopens

/-- A placeholder at the start of a text that goes on lies within its sealed beginning. -/
theorem token_prefix_of_sealed {name s t : Text} (hname : IsName name) (hs : Sealed s)
    (hne : s ≠ []) (h : token name <+: s ++ t) : token name <+: s := by
  rcases List.prefix_or_prefix_of_prefix h (List.prefix_append s t) with hp | hp
  · exact hp
  · rcases prefix_token_cases hname hp with hnil | htoken | hnot
    · exact absurd hnil hne
    · exact htoken ▸ List.prefix_rfl
    · exact absurd hs hnot

/-- A placeholder of a text that goes on after a sealed part lies in that part or after it. -/
theorem infix_append_of_sealed {name s : Text} (hname : IsName name) (hs : Sealed s) (t : Text) :
    token name <:+: s ++ t ↔ token name <:+: s ∨ token name <:+: t := by
  induction s with
  | nil => simp [token]
  | cons c s ih =>
    have hs' : Sealed s := Sealed.of_append (s := [c]) hs
    rw [List.cons_append, List.infix_cons_iff, ih hs', List.infix_cons_iff, or_assoc]
    refine or_congr_left ⟨fun h => ?_, fun h => h.trans (List.prefix_append (c :: s) t)⟩
    exact token_prefix_of_sealed hname hs (by simp) h

/-- A placeholder of a text that goes on with a character of no placeholder lies in the text. -/
theorem token_infix_concat {name s : Text} {c : Char} (hc : isTokenChar c = false) :
    token name <:+: s ++ [c] ↔ token name <:+: s := by
  rw [List.infix_concat_iff]
  refine or_iff_right fun ⟨before, hsuffix⟩ => ?_
  have hlast := congrArg List.getLast? hsuffix
  simp only [List.getLast?_append, getLast?_token, List.getLast?_singleton, Option.some_or,
    Option.some.injEq] at hlast
  subst hlast
  exact absurd hc (by decide)

/-- A text without placeholder characters. -/
def Plain (s : Text) : Prop := ∀ c ∈ s, isTokenChar c = false

instance (s : Text) : Decidable (Plain s) := inferInstanceAs (Decidable (∀ c ∈ s, _))

theorem Plain.sealed {s : Text} (h : Plain s) : Sealed s := by
  intro c hc
  have hplain := h c (List.mem_of_getLast? hc)
  simp only [isTokenChar, Bool.or_eq_false_iff] at hplain
  exact hplain.1

theorem Plain.clear {s : Text} (h : Plain s) : Clear s := by
  intro name _ hsub
  have hopen : '{' ∈ s := hsub.subset (by simp [token])
  exact absurd (h _ hopen) (by decide)

theorem token_infix_append_plain {name : Text} (s : Text) {t : Text} (ht : Plain t) :
    token name <:+: s ++ t ↔ token name <:+: s := by
  induction t generalizing s with
  | nil => rw [List.append_nil]
  | cons c t ih =>
    rw [List.append_cons, ih (s ++ [c]) fun d hd => ht d (by simp [hd]),
      token_infix_concat (ht c (by simp))]

section Free

variable {names : List Text} (hnames : ∀ n ∈ names, IsName n)

include hnames

theorem free_append_iff {s : Text} (hs : Sealed s) (t : Text) :
    Free names (s ++ t) ↔ Free names s ∧ Free names t := by
  simp only [Free, ← forall₂_and]
  refine forall₂_congr fun name hname => ?_
  rw [infix_append_of_sealed (hnames name hname) hs, not_or]

/-- A text put together from sealed pieces is free of what each of them is free of. -/
theorem free_flatten_iff {pieces : List Text} (h : ∀ s ∈ pieces, Sealed s) :
    Free names pieces.flatten ↔ ∀ s ∈ pieces, Free names s := by
  induction pieces with
  | nil => simp [Free, token]
  | cons s pieces ih =>
    rw [List.flatten_cons, free_append_iff hnames (h s (by simp)), List.forall_mem_cons,
      ih fun t ht => h t (by simp [ht])]

/-- The same with a separator between the pieces. -/
theorem free_intercalate_iff {sep : Text} (hsep : Sealed sep) (hfree : Free names sep)
    {pieces : List Text} (h : ∀ s ∈ pieces, Sealed s) :
    Free names (sep.intercalate pieces) ↔ ∀ s ∈ pieces, Free names s := by
  induction pieces with
  | nil => simp [Free, token]
  | cons s pieces ih =>
    cases pieces with
    | nil => simp
    | cons t pieces =>
      rw [List.intercalate_cons_cons, List.append_assoc, free_append_iff hnames (h s (by simp)),
        free_append_iff hnames hsep,
        ih fun u hu => h u (List.mem_cons_of_mem s hu)]
      simp only [List.forall_mem_cons (a := s)]
      exact and_congr_right fun _ => and_iff_right hfree

end Free

/-- What a quoting function writes for each character: itself if it is a placeholder character,
    and none of them otherwise. -/
def Quoting (write : Char → Text) : Prop :=
  ∀ c, (isTokenChar c = true → write c = [c]) ∧
    (isTokenChar c = false → Plain (write c))

/-- The characters for which a quoting function writes anything. -/
def kept (write : Char → Text) (s : Text) : Text := s.filter fun c => !(write c).isEmpty

/-- A text of placeholder characters starts a quoted text when it starts what was kept. -/
theorem prefix_flatMap_iff {write : Char → Text} (hwrite : Quoting write) {q s : Text}
    (hq : ∀ c ∈ q, isTokenChar c = true) : q <+: s.flatMap write ↔ q <+: kept write s := by
  induction s generalizing q with
  | nil => simp [kept]
  | cons c s ih =>
    cases q with
    | nil => simp
    | cons d q =>
      have hd := hq d (by simp)
      by_cases hc : isTokenChar c = true
      · have hpiece := (hwrite c).1 hc
        have hkept : kept write (c :: s) = c :: kept write s := by simp [kept, hpiece]
        rw [List.flatMap_cons, hpiece, hkept, List.singleton_append, List.cons_prefix_cons,
          List.cons_prefix_cons, ih fun e he => hq e (by simp [he])]
      · have hother := (hwrite c).2 (by simpa using hc)
        cases hpiece : write c with
        | nil =>
          have hkept : kept write (c :: s) = kept write s := by simp [kept, hpiece]
          rw [List.flatMap_cons, hpiece, hkept, List.nil_append]
          exact ih hq
        | cons e piece =>
          have he : isTokenChar e = false := hother e (by simp [hpiece])
          have hkept : kept write (c :: s) = c :: kept write s := by simp [kept, hpiece]
          rw [List.flatMap_cons, hpiece, hkept, List.cons_append, List.cons_prefix_cons,
            List.cons_prefix_cons]
          constructor
          · rintro ⟨rfl, -⟩
            simp [hd] at he
          · rintro ⟨rfl, -⟩
            exact absurd hd hc

/-- A placeholder occurs in a quoted text when it occurs in what the quoting kept. -/
theorem token_infix_flatMap {write : Char → Text} (hwrite : Quoting write) {name : Text}
    (hname : IsName name) (s : Text) :
    token name <:+: s.flatMap write ↔ token name <:+: kept write s := by
  have hq : ∀ c ∈ token name, isTokenChar c = true := fun c => isTokenChar_of_mem_token hname
  induction s with
  | nil => simp [kept]
  | cons c s ih =>
    by_cases hc : isTokenChar c = true
    · have hpiece := (hwrite c).1 hc
      have hkept : kept write (c :: s) = c :: kept write s := by simp [kept, hpiece]
      have hstart := prefix_flatMap_iff hwrite (s := c :: s) hq
      rw [hkept, List.flatMap_cons, hpiece, List.singleton_append] at hstart
      rw [List.flatMap_cons, hpiece, hkept, List.singleton_append, List.infix_cons_iff,
        List.infix_cons_iff]
      exact or_congr hstart ih
    · have hother := (hwrite c).2 (by simpa using hc)
      have hfree : ¬ token name <:+: write c := fun h => by
        have hmem : '{' ∈ write c := h.subset (by simp [token])
        exact absurd (hother _ hmem) (by decide)
      have hclosed : Closed (write c) := fun d hd => hother d (List.mem_of_getLast? hd)
      rw [List.flatMap_cons, infix_append_of_sealed hname hclosed.sealed]
      simp only [hfree, false_or]
      refine Iff.trans ih ?_
      cases hpiece : write c with
      | nil =>
        have hkept : kept write (c :: s) = kept write s := by simp [kept, hpiece]
        rw [hkept]
      | cons e piece =>
        have hkept : kept write (c :: s) = c :: kept write s := by simp [kept, hpiece]
        have hnot : ¬ token name <+: c :: kept write s := fun h => by
          rw [token, List.cons_prefix_cons] at h
          exact hc (by rw [← h.1]; decide)
        rw [hkept, List.infix_cons_iff]
        simp only [hnot, false_or]

/-- A quoted text between plain delimiters is free of the placeholders that what was kept is free
    of. -/
theorem free_quoted {write : Char → Text} (hwrite : Quoting write) {names : List Text}
    (hnames : ∀ n ∈ names, IsName n) (opening closing : Text) (hopening : Plain opening)
    (hclosing : Plain closing) (s : Text) :
    Free names (opening ++ (s.flatMap write ++ closing)) ↔ Free names (kept write s) := by
  refine forall₂_congr fun name hname => not_congr ?_
  rw [infix_append_of_sealed (hnames name hname) hopening.sealed,
    token_infix_append_plain _ hclosing, token_infix_flatMap hwrite (hnames name hname)]
  exact or_iff_right (hopening.clear name (hnames name hname))

-- ════════════════════════════════════════════════════════════════════════
-- Filling all at once
-- ════════════════════════════════════════════════════════════════════════

/-- A piece of a template. -/
inductive Segment where
  | text (s : Text)
  | hole (name : Text)
  deriving DecidableEq

namespace Segment

/-- The piece with its placeholder filled. -/
def fill (value : Text → Text) : Segment → Text
  | .text s => s
  | .hole name => value name

/-- Put a character in front of the pieces. -/
def consChar (c : Char) : List Segment → List Segment
  | .text s :: rest => .text (c :: s) :: rest
  | pieces => .text [c] :: pieces

end Segment

open Segment

/-- A text given by its lines. -/
def joinLines (lines : List String) : Text := Text.join (lines.map String.toList)

/-- The scan of `segments`, with a number of characters to skip. -/
def segmentsGo (names : List Text) : ℕ → Text → List Segment
  | _, [] => []
  | skip + 1, _ :: s => segmentsGo names skip s
  | 0, c :: s =>
    match names.find? fun name => token name <+: c :: s with
    | some name => .hole name :: segmentsGo names (name.length + 1) s
    | none => consChar c (segmentsGo names 0 s)

/-- A template cut at its placeholders. -/
def segments (names : List Text) (t : Text) : List Segment := segmentsGo names 0 t

/-- Fill every placeholder of a template at once. -/
def substituteAll (names : List Text) (value : Text → Text) (t : Text) : Text :=
  (segments names t).flatMap (fill value)

theorem segmentsGo_eq_drop (names : List Text) (skip : ℕ) (t : Text) :
    segmentsGo names skip t = segmentsGo names 0 (t.drop skip) := by
  induction t generalizing skip with
  | nil => cases skip <;> rfl
  | cons c s ih =>
    cases skip with
    | zero => rfl
    | succ skip => rw [segmentsGo, ih skip, List.drop_succ_cons]

/-- Pieces as `segments` cuts them: no two texts in a row, and none that could be torn or contains
    a placeholder. -/
def WellFormed (own : List Text) : List Segment → Prop
  | [] => True
  | .hole name :: rest => name ∈ own ∧ WellFormed own rest
  | .text s :: rest => s ≠ [] ∧ Sealed s ∧ Clear s ∧ (∀ t, rest.head? ≠ some (.text t)) ∧
      WellFormed own rest

/-- The placeholders of a template, from left to right. -/
def holes (pieces : List Segment) : List Text :=
  pieces.filterMap fun
    | .text _ => none
    | .hole name => some name

theorem mem_holes {pieces : List Segment} {name : Text} :
    name ∈ holes pieces ↔ .hole name ∈ pieces := by
  simp only [holes, List.mem_filterMap]
  constructor
  · rintro ⟨piece, hpiece, heq⟩
    cases piece with
    | text s => simp at heq
    | hole n =>
      simp only [Option.some.injEq] at heq
      exact heq ▸ hpiece
  · exact fun h => ⟨.hole name, h, rfl⟩

theorem WellFormed.hole_mem {own : List Text} {pieces : List Segment} (h : WellFormed own pieces)
    {name : Text} (hmem : .hole name ∈ pieces) : name ∈ own := by
  induction pieces with
  | nil => simp at hmem
  | cons piece pieces ih =>
    cases piece with
    | hole n =>
      rcases List.mem_cons.mp hmem with heq | hmem
      · exact Segment.hole.inj heq ▸ h.1
      · exact ih h.2 hmem
    | text s => exact ih h.2.2.2.2 (by simpa using hmem)

theorem WellFormed.mono {own own' : List Text} {pieces : List Segment} (h : WellFormed own pieces)
    (hsub : own ⊆ own') : WellFormed own' pieces := by
  induction pieces with
  | nil => trivial
  | cons piece pieces ih =>
    cases piece with
    | hole name => exact ⟨hsub h.1, ih h.2⟩
    | text s => exact ⟨h.1, h.2.1, h.2.2.1, h.2.2.2.1, ih h.2.2.2.2⟩

theorem WellFormed.text {own : List Text} {pieces : List Segment} (h : WellFormed own pieces)
    {s : Text} (hmem : .text s ∈ pieces) : Sealed s ∧ Clear s := by
  induction pieces with
  | nil => simp at hmem
  | cons piece pieces ih =>
    cases piece with
    | hole n => exact ih h.2 (by simpa using hmem)
    | text t =>
      rcases List.mem_cons.mp hmem with heq | hmem
      · obtain rfl := Segment.text.inj heq
        exact ⟨h.2.1, h.2.2.1⟩
      · exact ih h.2.2.2.2 hmem

theorem segments_token_append {own : List Text} (hown : ∀ n ∈ own, IsName n) {name : Text}
    (hmem : name ∈ own) (t : Text) :
    segments own (token name ++ t) = .hole name :: segments own t := by
  have hfind : own.find? (fun n => token n <+: token name ++ t) = some name := by
    rw [List.find?_eq_some_iff_append]
    refine ⟨by simp, ?_⟩
    obtain ⟨before, after, hsplit, hbefore⟩ := List.eq_append_cons_of_mem hmem
    refine ⟨before, after, hsplit, fun n hn => ?_⟩
    have hn' : n ∈ own := by rw [hsplit]; simp [hn]
    simp only [Bool.not_eq_true', decide_eq_false_iff_not]
    intro hstart
    have hsub := (token_prefix_of_sealed (hown n hn') (sealed_token name) (token_ne_nil name)
      hstart).isInfix
    exact hbefore (token_infix_token (hown n hn') (hown name hmem) hsub ▸ hn)
  rw [segments, token, List.cons_append, segmentsGo, ← List.cons_append, ← token, hfind]
  simp only
  rw [segmentsGo_eq_drop, List.append_assoc]
  simp [segments]

theorem segments_text_append {own : List Text} (hown : ∀ n ∈ own, IsName n) {s : Text}
    (hs : Sealed s) (hfree : Free own s) (t : Text) :
    segments own (s ++ t) = s.foldr consChar (segments own t) := by
  induction s with
  | nil => rfl
  | cons c s ih =>
    have hfind : own.find? (fun n => token n <+: c :: (s ++ t)) = none := by
      rw [List.find?_eq_none]
      intro n hn hstart
      have hshort := token_prefix_of_sealed (s := c :: s) (hown n hn) hs (by simp)
        (by simpa using hstart)
      exact hfree n hn hshort.isInfix
    have hs' : Sealed s := Sealed.of_append (s := [c]) hs
    have hfree' : Free own s := fun n hn h => hfree n hn (h.trans (List.suffix_cons c s).isInfix)
    rw [List.cons_append, segments, segmentsGo, hfind, List.foldr_cons, ← ih hs' hfree']
    rfl

theorem foldr_consChar {s : Text} (hne : s ≠ []) {pieces : List Segment}
    (hhead : ∀ t, pieces.head? ≠ some (.text t)) :
    s.foldr consChar pieces = .text s :: pieces := by
  induction s with
  | nil => exact absurd rfl hne
  | cons c s ih =>
    rw [List.foldr_cons]
    cases s with
    | nil =>
      cases pieces with
      | nil => rfl
      | cons piece pieces =>
        cases piece with
        | text t => exact absurd rfl (hhead t)
        | hole name => rfl
    | cons d s => rw [ih (by simp)]; rfl

/-- Cutting a template that was put together from well-formed pieces gives the pieces back. -/
theorem segments_flatMap {own : List Text} (hown : ∀ n ∈ own, IsName n) {pieces : List Segment}
    (h : WellFormed own pieces) : segments own (pieces.flatMap (fill token)) = pieces := by
  induction pieces with
  | nil => rfl
  | cons piece pieces ih =>
    rw [List.flatMap_cons]
    cases piece with
    | hole name => rw [fill, segments_token_append hown h.1, ih h.2]
    | text s =>
      obtain ⟨hne, hs, hfree, hhead, hrest⟩ := h
      rw [fill, segments_text_append hown hs (hfree.free hown), ih hrest, foldr_consChar hne hhead]

/-- One pass over a text that looks for a placeholder. `inside` is set after an opening brace, to
    whether name characters followed it. -/
def freeScan : Option Bool → Text → Bool
  | _, [] => true
  | inside, c :: s =>
    if c = '{' then freeScan (some false) s
    else if c = '}' then inside != some true && freeScan none s
    else freeScan (if inside.isSome && isNameChar c then some true else none) s

theorem freeScan_nameChar {inside : Bool} {c : Char} (hc : isNameChar c = true) (s : Text) :
    freeScan (some inside) (c :: s) = freeScan (some true) s := by
  have hopen : c ≠ '{' := by rintro rfl; simp [not_isNameChar_open] at hc
  have hclose : c ≠ '}' := by rintro rfl; simp [not_isNameChar_close] at hc
  simp [freeScan, hopen, hclose, hc]

theorem freeScan_name {name : Text} (hname : IsName name) (s : Text) :
    freeScan (some false) (name ++ '}' :: s) = false := by
  have hinside : ∀ t : Text, (∀ c ∈ t, isNameChar c = true) →
      freeScan (some true) (t ++ '}' :: s) = false := by
    intro t
    induction t with
    | nil => simp [freeScan]
    | cons c t ih =>
      intro ht
      rw [List.cons_append, freeScan_nameChar (ht c (by simp))]
      exact ih fun d hd => ht d (by simp [hd])
  cases name with
  | nil => exact absurd rfl hname.1
  | cons c name =>
    rw [List.cons_append, freeScan_nameChar (hname.2 c (by simp))]
    exact hinside name fun d hd => hname.2 d (by simp [hd])

/-- A text that passes the scan contains no placeholder of any name. -/
theorem clear_of_freeScan {inside : Option Bool} {s : Text} (h : freeScan inside s = true) :
    Clear s := by
  intro name hname
  induction s generalizing inside with
  | nil => simp [token]
  | cons c s ih =>
    rw [List.infix_cons_iff, not_or]
    constructor
    · rintro ⟨rest, hrest⟩
      simp only [token, List.cons_append, List.append_assoc, List.nil_append,
        List.cons.injEq] at hrest
      obtain ⟨rfl, rfl⟩ := hrest
      simp [freeScan, freeScan_name hname] at h
    · rw [freeScan] at h
      split at h
      · exact ih h
      · split at h
        · exact ih (Bool.and_eq_true_iff.mp h).2
        · exact ih h

-- ════════════════════════════════════════════════════════════════════════
-- Pieces given by their lines
-- ════════════════════════════════════════════════════════════════════════

@[simp] theorem joinLines_singleton (line : String) : joinLines [line] = line.toList := by
  simp [joinLines, Text.join, List.intercalate]

theorem joinLines_cons (line next : String) (lines : List String) :
    joinLines (line :: next :: lines) = line.toList ++ '\n' :: joinLines (next :: lines) := by
  simp [joinLines, Text.join, List.intercalate]

/-- Lines of at most `n` characters. -/
theorem length_joinLines_le {lines : List String} {n : ℕ}
    (h : ∀ line ∈ lines, line.toList.length ≤ n) :
    (joinLines lines).length ≤ lines.length * (n + 1) := by
  induction lines with
  | nil => exact Nat.zero_le _
  | cons line lines ih =>
    have hline := h line List.mem_cons_self
    have hrest := ih fun other hmem => h other (List.mem_cons_of_mem line hmem)
    have hmul : (lines.length + 1) * (n + 1) = lines.length * (n + 1) + (n + 1) := Nat.succ_mul _ _
    cases lines with
    | nil =>
      rw [joinLines_singleton, List.length_singleton]
      omega
    | cons next lines =>
      rw [joinLines_cons, List.length_append, List.length_cons, List.length_cons]
      omega

theorem joinLines_ne_nil (line next : String) (lines : List String) :
    joinLines (line :: next :: lines) ≠ [] := by
  simp [joinLines_cons]

theorem getLast?_joinLines {line : String} {lines : List String} (hne : lines ≠ [])
    (h : lines.getLast? = some "") : (joinLines (line :: lines)).getLast? = some '\n' := by
  induction lines generalizing line with
  | nil => exact absurd rfl hne
  | cons next lines ih =>
    rw [joinLines_cons, List.getLast?_append, List.getLast?_cons]
    cases lines with
    | nil =>
      simp only [List.getLast?_singleton, Option.some.injEq] at h
      subst h
      simp
    | cons last lines =>
      rw [ih (by simp) (by simpa [List.getLast?_cons] using h)]
      rfl

/-- Lines that all end with a line break are closed. -/
theorem closed_joinLines {line : String} {lines : List String} (hne : lines ≠ [])
    (h : lines.getLast? = some "") : Closed (joinLines (line :: lines)) := by
  rw [Closed, getLast?_joinLines hne h]
  intro c hc
  rw [Option.mem_some_iff] at hc
  subst hc
  decide

/-- A text is sealed when its last line is. -/
theorem sealed_joinLines_cons (line next : String) (lines : List String) :
    Sealed (joinLines (line :: next :: lines)) ↔ Sealed (joinLines (next :: lines)) := by
  rw [joinLines_cons]
  refine ⟨fun h => Sealed.of_append (s := line.toList ++ ['\n']) (by simpa using h), fun h => ?_⟩
  intro c hc
  cases hlast : (joinLines (next :: lines)).getLast? with
  | none =>
    simp only [List.getLast?_append, List.getLast?_cons, hlast, Option.getD_none, Option.some_or,
      Option.mem_def, Option.some.injEq] at hc
    subst hc
    decide
  | some d =>
    simp only [List.getLast?_append, List.getLast?_cons, hlast, Option.getD_some, Option.some_or,
      Option.mem_def, Option.some.injEq] at hc
    exact h c (by simpa [hlast] using hc)

/-- No placeholder spans lines. -/
theorem clear_joinLines_cons (line next : String) (lines : List String) :
    Clear (joinLines (line :: next :: lines)) ↔
      Clear line.toList ∧ Clear (joinLines (next :: lines)) := by
  have hclosed : Closed (line.toList ++ ['\n']) := by
    intro c hc
    simp only [List.getLast?_append, List.getLast?_singleton, Option.some_or, Option.mem_def,
      Option.some.injEq] at hc
    subst hc
    decide
  have hline : ∀ name, token name <:+: line.toList ++ ['\n'] ↔ token name <:+: line.toList :=
    fun name => token_infix_concat (by decide)
  have hsplit : ∀ name, IsName name → (token name <:+: joinLines (line :: next :: lines) ↔
      token name <:+: line.toList ∨ token name <:+: joinLines (next :: lines)) := by
    intro name hname
    rw [joinLines_cons, List.append_cons, infix_append_of_sealed hname hclosed.sealed, hline]
  constructor
  · intro h
    exact ⟨fun name hname hsub => h name hname ((hsplit name hname).mpr (Or.inl hsub)),
      fun name hname hsub => h name hname ((hsplit name hname).mpr (Or.inr hsub))⟩
  · rintro ⟨hfirst, hrest⟩ name hname hsub
    rcases (hsplit name hname).mp hsub with hsub | hsub
    · exact hfirst name hname hsub
    · exact hrest name hname hsub

theorem clear_joinLines {lines : List String} (h : ∀ line ∈ lines, Clear line.toList) :
    Clear (joinLines lines) := by
  induction lines with
  | nil => exact clear_of_freeScan (show freeScan none [] = true from rfl)
  | cons line lines ih =>
    have hrest := ih fun l hl => h l (List.mem_cons_of_mem line hl)
    cases lines with
    | nil => simpa using h line (by simp)
    | cons next lines => exact (clear_joinLines_cons line next lines).mpr ⟨h line (by simp), hrest⟩

end Placeholder
