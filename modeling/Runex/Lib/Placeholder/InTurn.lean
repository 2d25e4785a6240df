import Runex.Lib.Placeholder

/-!
# Replacing placeholders in turn

Filling a template by replacing one placeholder after the other over the growing text, against
filling all of them at once. The template cannot be torn at the edge of an inserted text, since
no piece of it ends where a placeholder could go on. So the two ways differ exactly where an
inserted text contains a placeholder that is replaced after it, and they do differ there: a
replacement raises the number of quotes, or keeps it and shortens the text.

## Main definitions

- `Placeholder.replaceEach` — replace the placeholders in turn
- `Placeholder.Replaceable` — what is asked of the names and values
- `Placeholder.fillAtOnce` — fill all of them at once
- `Placeholder.Grows` — the measure that a replacement raises

## Main results

- `Placeholder.replaceEach_pieces` — the replacements act on the pieces one by one
- `Placeholder.replaceEach_eq_substituteAll_iff` — when the two ways of filling agree
-/

namespace Placeholder

open Search Segment

-- ════════════════════════════════════════════════════════════════════════
-- One replacement
-- ════════════════════════════════════════════════════════════════════════

section Replace

variable {name value : Text}

/-- A replacement acts on a sealed beginning and on the rest separately. -/
theorem replaceAll_append_of_sealed (hname : IsName name) {s : Text} (hs : Sealed s) (t : Text) :
    replaceAll (token name) value (s ++ t) =
      replaceAll (token name) value s ++ replaceAll (token name) value t := by
  induction s using scan_induction (token_ne_nil name) with
  | nil => rfl
  | hit s ih =>
    rw [List.append_assoc, replaceAll_pat_append (token_ne_nil name),
      replaceAll_pat_append (token_ne_nil name), ih hs.of_append, List.append_assoc]
  | miss c s h ih =>
    have hlong : ¬ token name <+: c :: (s ++ t) := fun hp =>
      h (token_prefix_of_sealed hname hs (by simp) hp)
    have hs' : Sealed s := Sealed.of_append (s := [c]) hs
    rw [List.cons_append, replaceAll_cons hlong, replaceAll_cons h, ih hs', List.cons_append]

/-- A replacement does not change the end of a closed text. -/
theorem getLast?_replaceAll {s : Text} (hs : Closed s) :
    (replaceAll (token name) value s).getLast? = s.getLast? := by
  induction s using scan_induction (token_ne_nil name) with
  | nil => rfl
  | hit s ih =>
    have hne : s ≠ [] := by
      rintro rfl
      have := hs '}' (by rw [List.append_nil, getLast?_token]; rfl)
      exact absurd this (by decide)
    have hlast : (token name ++ s).getLast? = s.getLast? := by
      rw [List.getLast?_append_of_ne_nil _ hne]
    have hs' : Closed s := by rwa [Closed, ← hlast]
    rw [replaceAll_pat_append (token_ne_nil name), hlast, List.getLast?_append, ih hs']
    cases hend : s.getLast? with
    | none => exact absurd (List.getLast?_eq_none_iff.mp hend) hne
    | some c => rfl
  | miss c s h ih =>
    rw [replaceAll_cons h]
    cases s with
    | nil => rfl
    | cons d s =>
      have hs' : Closed (d :: s) := by simpa [Closed, List.getLast?_cons] using hs
      rw [List.getLast?_cons, ih hs']
      simp [List.getLast?_cons]

theorem Closed.replaceAll {s : Text} (hs : Closed s) :
    Closed (replaceAll (token name) value s) := by
  rwa [Closed, getLast?_replaceAll hs]

end Replace

-- ════════════════════════════════════════════════════════════════════════
-- Replacing in turn
-- ════════════════════════════════════════════════════════════════════════

/-- Replace the placeholders one after the other, over the growing text. -/
def replaceEach (slots : List (Text × Text)) (t : Text) : Text :=
  slots.foldl (fun t slot => replaceAll (token slot.1) slot.2 t) t

@[simp] theorem replaceEach_nil (t : Text) : replaceEach [] t = t := rfl

@[simp] theorem replaceEach_cons (slot : Text × Text) (slots : List (Text × Text)) (t : Text) :
    replaceEach (slot :: slots) t = replaceEach slots (replaceAll (token slot.1) slot.2 t) := rfl

theorem length_replaceEach_le {slots : List (Text × Text)}
    (h : ∀ slot ∈ slots, slot.2.length ≤ (token slot.1).length) (t : Text) :
    (replaceEach slots t).length ≤ t.length := by
  induction slots generalizing t with
  | nil => exact Nat.le_refl _
  | cons slot slots ih =>
    refine (ih (fun other hmem => h other (List.mem_cons_of_mem slot hmem)) _).trans ?_
    exact length_replaceAll_le (List.cons_ne_nil _ _) (h slot List.mem_cons_self) t

/-- The text is sealed before each of the replacements. -/
def Robust : List (Text × Text) → Text → Prop
  | [], _ => True
  | slot :: slots, s => Sealed s ∧ Robust slots (replaceAll (token slot.1) slot.2 s)

variable {slots : List (Text × Text)}

theorem Closed.robust {s : Text} (h : Closed s) : Robust slots s := by
  induction slots generalizing s with
  | nil => trivial
  | cons slot slots ih => exact ⟨h.sealed, ih h.replaceAll⟩

theorem Closed.replaceEach {s : Text} (h : Closed s) : Closed (replaceEach slots s) := by
  induction slots generalizing s with
  | nil => exact h
  | cons slot slots ih => exact ih h.replaceAll

theorem Free.replaceEach_eq {s : Text} (h : Free (slots.map Prod.fst) s) :
    replaceEach slots s = s := by
  induction slots with
  | nil => rfl
  | cons slot slots ih =>
    rw [replaceEach_cons, replaceAll_of_absent (h slot.1 (by simp))]
    exact ih fun name hname => h name (by simp_all)

/-- A beginning without placeholders stays as it is. -/
theorem Free.replaceEach_append {s : Text} (h : Free (slots.map Prod.fst) s) (hs : Sealed s)
    (hnames : ∀ slot ∈ slots, IsName slot.1) (t : Text) :
    replaceEach slots (s ++ t) = s ++ replaceEach slots t := by
  induction slots generalizing t with
  | nil => rfl
  | cons slot slots ih =>
    rw [replaceEach_cons, replaceAll_append_of_sealed (hnames slot (by simp)) hs,
      replaceAll_of_absent (h slot.1 (by simp)), replaceEach_cons]
    exact ih (fun name hname => h name (by simp_all)) (fun slot hslot => hnames slot (by simp [hslot]))
      _

theorem Free.robust {s : Text} (hs : Sealed s) (h : Free (slots.map Prod.fst) s) :
    Robust slots s := by
  induction slots with
  | nil => trivial
  | cons slot slots ih =>
    refine ⟨hs, ?_⟩
    rw [replaceAll_of_absent (h slot.1 (by simp))]
    exact ih fun name hname => h name (by simp_all)

/-- Every name can be written in braces. -/
def Named (slots : List (Text × Text)) : Prop := ∀ slot ∈ slots, IsName slot.1

theorem Named.isName (hnames : Named slots) {name : Text} (h : name ∈ slots.map Prod.fst) :
    IsName name := by
  obtain ⟨slot, hslot, rfl⟩ := List.mem_map.mp h
  exact hnames slot hslot

theorem replaceAll_flatten {name value : Text} (hname : IsName name) {pieces : List Text}
    (h : ∀ s ∈ pieces, Sealed s) :
    replaceAll (token name) value pieces.flatten =
      (pieces.map (replaceAll (token name) value)).flatten := by
  induction pieces with
  | nil => rfl
  | cons s pieces ih =>
    rw [List.flatten_cons, replaceAll_append_of_sealed hname (h s (by simp)),
      ih fun t ht => h t (by simp [ht]), List.map_cons, List.flatten_cons]

/-- The replacements act on robust pieces one by one. -/
theorem replaceEach_flatten (hnames : Named slots) {pieces : List Text}
    (h : ∀ s ∈ pieces, Robust slots s) :
    replaceEach slots pieces.flatten = (pieces.map (replaceEach slots)).flatten := by
  induction slots generalizing pieces with
  | nil =>
    have hid : replaceEach [] = id := rfl
    rw [hid, List.map_id]
    rfl
  | cons slot slots ih =>
    rw [replaceEach_cons, replaceAll_flatten (hnames slot (by simp)) fun s hs => (h s hs).1,
      ih (fun s hs => hnames s (by simp [hs]))]
    · rw [List.map_map]
      rfl
    · intro s hs
      obtain ⟨piece, hpiece, rfl⟩ := List.mem_map.mp hs
      exact (h piece hpiece).2

/-- The value of a placeholder. -/
def valueOf (slots : List (Text × Text)) (name : Text) : Text := (slots.lookup name).getD []

theorem valueOf_cons (n value : Text) (slots : List (Text × Text)) (name : Text) :
    valueOf ((n, value) :: slots) name = if name = n then value else valueOf slots name := by
  rw [valueOf, List.lookup_cons]
  by_cases h : name = n
  · simp [h]
  · rw [if_neg h, beq_false_of_ne h, valueOf]

theorem valueOf_of_mem {slots : List (Text × Text)} (hnodup : (slots.map Prod.fst).Nodup)
    {slot : Text × Text} (h : slot ∈ slots) : valueOf slots slot.1 = slot.2 := by
  induction slots with
  | nil => simp at h
  | cons first slots ih =>
    rw [List.map_cons, List.nodup_cons] at hnodup
    rw [valueOf_cons]
    rcases List.mem_cons.mp h with rfl | h
    · rw [if_pos rfl]
    · have hne : slot.1 ≠ first.1 := fun heq => hnodup.1 (heq ▸ List.mem_map_of_mem h)
      rw [if_neg hne, ih hnodup.2 h]

/-- The placeholders replaced after this one. -/
def later : List (Text × Text) → Text → List (Text × Text)
  | [], _ => []
  | slot :: slots, name => if slot.1 = name then slots else later slots name

/-- The names after this one. -/
def after : List Text → Text → List Text
  | [], _ => []
  | n :: names, name => if n = name then names else after names name

theorem after_sublist (names : List Text) (name : Text) : (after names name).Sublist names := by
  induction names with
  | nil => exact List.Sublist.refl _
  | cons n names ih =>
    rw [after]
    split
    · exact List.sublist_cons_self n names
    · exact ih.cons n

theorem map_fst_later (slots : List (Text × Text)) (name : Text) :
    (later slots name).map Prod.fst = after (slots.map Prod.fst) name := by
  induction slots with
  | nil => rfl
  | cons slot slots ih =>
    rw [later, List.map_cons, after]
    split
    · rfl
    · exact ih

theorem later_sublist (slots : List (Text × Text)) (name : Text) :
    (later slots name).Sublist slots := by
  induction slots with
  | nil => exact List.Sublist.refl _
  | cons slot slots ih =>
    rw [later]
    split
    · exact List.sublist_cons_self slot slots
    · exact ih.cons slot

/-- A value can be inserted: it is closed, or it is sealed and contains no placeholder. -/
def Insertable (names : List Text) (value : Text) : Prop :=
  Closed value ∨ (Sealed value ∧ Free names value)

instance (names : List Text) (value : Text) : Decidable (Insertable names value) :=
  inferInstanceAs (Decidable (_ ∨ _))

theorem Insertable.robust {value : Text} (h : Insertable (slots.map Prod.fst) value) :
    Robust slots value := by
  rcases h with h | ⟨hs, hfree⟩
  · exact h.robust
  · exact hfree.robust hs

theorem Insertable.mono {names names' : List Text} {value : Text} (h : Insertable names value)
    (hsub : names' ⊆ names) : Insertable names' value :=
  h.imp_right fun ⟨hs, hfree⟩ => ⟨hs, fun name hname => hfree name (hsub hname)⟩

/-- A placeholder is untouched until its turn, and its value is then subject to the later
    replacements. -/
theorem replaceEach_token (hnames : Named slots)
    (hvalues : ∀ slot ∈ slots, Insertable (slots.map Prod.fst) slot.2) {name : Text}
    (hmem : name ∈ slots.map Prod.fst) :
    replaceEach slots (token name) = replaceEach (later slots name) (valueOf slots name) ∧
      Robust slots (token name) := by
  have hname : IsName name := hnames.isName hmem
  induction slots with
  | nil => simp at hmem
  | cons slot slots ih =>
    obtain ⟨n, value⟩ := slot
    by_cases hn : n = name
    · subst hn
      have hreplace : replaceAll (token n) value (token n) = value := by
        have h : replaceAll (token n) value (token n ++ []) = value ++ replaceAll (token n) value [] :=
          replaceAll_pat_append (token_ne_nil n) []
        simpa using h
      have hrobust : Robust slots value :=
        ((hvalues (n, value) (by simp)).mono (by simp)).robust
      simp only [replaceEach_cons, hreplace, later, valueOf, List.lookup_cons_self, if_true,
        Option.getD_some, Robust]
      exact ⟨trivial, sealed_token n, hrobust⟩
    · have hother : ¬ token n <:+: token name := fun h =>
        hn (token_infix_token (hnames (n, value) (by simp)) hname h)
      have hmem' : name ∈ slots.map Prod.fst := by
        simpa [Ne.symm hn] using hmem
      obtain ⟨heq, hrobust⟩ := ih (fun s hs => hnames s (by simp [hs]))
        (fun s hs => (hvalues s (by simp [hs])).mono (by simp)) hmem'
      have hlookup : valueOf ((n, value) :: slots) name = valueOf slots name := by
        rw [valueOf_cons, if_neg (Ne.symm hn)]
      rw [replaceEach_cons, replaceAll_of_absent hother, later, if_neg hn, hlookup]
      exact ⟨heq, sealed_token name, by rwa [replaceAll_of_absent hother]⟩

/-- Replacing in turn, piece by piece of the template. -/
theorem replaceEach_pieces (hnames : Named slots)
    (hvalues : ∀ slot ∈ slots, Insertable (slots.map Prod.fst) slot.2) {own : List Text}
    (hown : own ⊆ slots.map Prod.fst) {pieces : List Segment} (hpieces : WellFormed own pieces) :
    replaceEach slots (pieces.flatMap (fill token)) = pieces.flatMap
      (fill fun name => replaceEach (later slots name) (valueOf slots name)) := by
  have hall : ∀ name ∈ slots.map Prod.fst, IsName name := fun name => hnames.isName
  have hrobust : ∀ s ∈ pieces.map (fill token), Robust slots s := by
    intro s hs
    obtain ⟨piece, hpiece, rfl⟩ := List.mem_map.mp hs
    cases piece with
    | text s =>
      obtain ⟨hsealed, hclear⟩ := hpieces.text hpiece
      exact (hclear.free hall).robust hsealed
    | hole name => exact (replaceEach_token hnames hvalues (hown (hpieces.hole_mem hpiece))).2
  rw [List.flatMap_def, replaceEach_flatten hnames hrobust, List.map_map, ← List.flatMap_def]
  refine List.flatMap_congr fun piece hpiece => ?_
  cases piece with
  | text s => exact ((hpieces.text hpiece).2.free hall).replaceEach_eq
  | hole name => exact (replaceEach_token hnames hvalues (hown (hpieces.hole_mem hpiece))).1

-- ════════════════════════════════════════════════════════════════════════
-- Every replacement shows
-- ════════════════════════════════════════════════════════════════════════

/-- Characters that values contain and placeholders do not. -/
def isMark (c : Char) : Bool := c == '\'' || c == '"'

/-- More marks, or as many in less text. -/
def Grows (s t : Text) : Prop :=
  s.countP isMark < t.countP isMark ∨ (s.countP isMark = t.countP isMark ∧ t.length < s.length)

/-- A value that contains a mark or is shorter than its placeholder. -/
def Showing (slot : Text × Text) : Prop :=
  0 < slot.2.countP isMark ∨ slot.2.length < (token slot.1).length

instance (slot : Text × Text) : Decidable (Showing slot) := inferInstanceAs (Decidable (_ ∨ _))

theorem showing_of_mem {slot : Text × Text} {c : Char} (hc : isMark c = true) (h : c ∈ slot.2) :
    Showing slot :=
  Or.inl (List.countP_pos_iff.mpr ⟨c, h, hc⟩)

theorem isTokenChar_of_isMark {c : Char} (h : isMark c = true) : isTokenChar c = false := by
  simp only [isMark, Bool.or_eq_true, beq_iff_eq] at h
  rcases h with rfl | rfl <;> decide

/-- A value that ends with a mark, as a quoted one does. -/
theorem closed_showing_of_getLast? {value : Text} {c : Char} (hc : isMark c = true)
    (h : value.getLast? = some c) (name : Text) : Closed value ∧ Showing (name, value) := by
  refine ⟨fun d hd => ?_, showing_of_mem hc (List.mem_of_getLast? h)⟩
  rw [h, Option.mem_some_iff] at hd
  exact hd ▸ isTokenChar_of_isMark hc

theorem Grows.trans {s t u : Text} (h : Grows s t) (h' : Grows t u) : Grows s u := by
  unfold Grows at *
  omega

theorem Grows.ne {s t : Text} (h : Grows s t) : s ≠ t := by
  rintro rfl
  unfold Grows at h
  omega

theorem countP_token {name : Text} (hname : IsName name) : (token name).countP isMark = 0 := by
  rw [List.countP_eq_zero]
  intro c hc hmark
  have htoken := isTokenChar_of_mem_token hname hc
  simp [isTokenChar_of_isMark hmark] at htoken

/-- A replacement leaves the text as it is or grows it. -/
theorem replaceAll_grows {slot : Text × Text} (hname : IsName slot.1) (hshow : Showing slot)
    (s : Text) :
    replaceAll (token slot.1) slot.2 s = s ∨ Grows s (replaceAll (token slot.1) slot.2 s) := by
  have hzero := countP_token hname
  induction s using scan_induction (token_ne_nil slot.1) with
  | nil => exact Or.inl rfl
  | hit s ih =>
    refine Or.inr ?_
    rw [replaceAll_pat_append (token_ne_nil slot.1)]
    unfold Showing at hshow
    simp only [Grows, List.countP_append, List.length_append, hzero] at ih ⊢
    rcases ih with heq | ih
    · rw [heq]
      omega
    · omega
  | miss c s h ih =>
    rw [replaceAll_cons h]
    rcases ih with heq | ih
    · exact Or.inl (by rw [heq])
    · refine Or.inr ?_
      simp only [Grows, List.countP_cons, List.length_cons] at ih ⊢
      omega

theorem replaceAll_ne_of_infix {slot : Text × Text} (hname : IsName slot.1) (hshow : Showing slot)
    {s : Text} (h : token slot.1 <:+: s) : Grows s (replaceAll (token slot.1) slot.2 s) := by
  have hzero := countP_token hname
  obtain ⟨⟨before, after⟩, hsplit⟩ := Option.ne_none_iff_exists'.mp fun hnone =>
    splitOnce_eq_none.mp hnone h
  rw [replaceAll_of_splitOnce (token_ne_nil slot.1) hsplit]
  conv_lhs => rw [eq_append_of_splitOnce hsplit]
  unfold Showing at hshow
  have hafter := replaceAll_grows hname hshow after
  simp only [Grows, List.countP_append, List.length_append, hzero] at hafter ⊢
  rcases hafter with heq | hafter
  · rw [heq]
    omega
  · omega

theorem replaceEach_grows (hnames : Named slots) (hshow : ∀ slot ∈ slots, Showing slot)
    (s : Text) :
    (replaceEach slots s = s ∧ Free (slots.map Prod.fst) s) ∨ Grows s (replaceEach slots s) := by
  induction slots generalizing s with
  | nil => exact Or.inl ⟨rfl, by simp [Free]⟩
  | cons slot slots ih =>
    have hname := hnames slot (by simp)
    have hrest := ih (fun s hs => hnames s (by simp [hs])) (fun s hs => hshow s (by simp [hs]))
    rw [replaceEach_cons]
    by_cases hsub : token slot.1 <:+: s
    · have hgrows := replaceAll_ne_of_infix hname (hshow slot (by simp)) hsub
      rcases hrest (replaceAll (token slot.1) slot.2 s) with ⟨heq, -⟩ | h
      · exact Or.inr (by rwa [heq])
      · exact Or.inr (hgrows.trans h)
    · rw [replaceAll_of_absent hsub]
      rcases hrest s with ⟨heq, hfree⟩ | h
      · refine Or.inl ⟨heq, fun name hname => ?_⟩
        rw [List.map_cons, List.mem_cons] at hname
        rcases hname with rfl | hname
        · exact hsub
        · exact hfree name hname
      · exact Or.inr h

/-- The later replacements leave a text as it is or grow it. -/
theorem later_grows (hnames : Named slots) (hshow : ∀ slot ∈ slots, Showing slot) (name s : Text) :
    (replaceEach (later slots name) s = s ∧ Free ((later slots name).map Prod.fst) s) ∨
      Grows s (replaceEach (later slots name) s) :=
  replaceEach_grows (fun slot hslot => hnames slot ((later_sublist slots name).subset hslot))
    (fun slot hslot => hshow slot ((later_sublist slots name).subset hslot)) s

/-- A text put together from pieces that grow or stay grows unless every piece stays. -/
theorem flatMap_grows {α : Type} {pieces : List α} {f g : α → Text}
    (h : ∀ a ∈ pieces, f a = g a ∨ Grows (f a) (g a)) :
    (∀ a ∈ pieces, f a = g a) ∨ Grows (pieces.flatMap f) (pieces.flatMap g) := by
  induction pieces with
  | nil => exact Or.inl (by simp)
  | cons a pieces ih =>
    have hrest := ih fun b hb => h b (by simp [hb])
    have ha := h a (by simp)
    rw [List.flatMap_cons, List.flatMap_cons]
    rcases hrest with hrest | hrest
    · rcases ha with ha | ha
      · exact Or.inl fun b hb => by
          rcases List.mem_cons.mp hb with rfl | hb
          · exact ha
          · exact hrest b hb
      · have heq : pieces.flatMap f = pieces.flatMap g := List.flatMap_congr hrest
        refine Or.inr ?_
        rw [heq]
        simp only [Grows, List.countP_append, List.length_append] at ha ⊢
        omega
    · refine Or.inr ?_
      simp only [Grows, List.countP_append, List.length_append] at ha hrest ⊢
      rcases ha with ha | ha
      · rw [ha]
        omega
      · omega

theorem flatMap_eq_iff_of_grows {α : Type} {pieces : List α} {f g : α → Text}
    (h : ∀ a ∈ pieces, f a = g a ∨ Grows (f a) (g a)) :
    pieces.flatMap g = pieces.flatMap f ↔ ∀ a ∈ pieces, f a = g a := by
  constructor
  · intro heq
    rcases flatMap_grows h with hall | hgrows
    · exact hall
    · exact absurd heq.symm hgrows.ne
  · intro heq
    exact (List.flatMap_congr heq).symm

/-- Slots whose names can be written in braces, and whose values can be inserted and show. -/
structure Replaceable (slots : List (Text × Text)) : Prop where
  named : Named slots
  insertable : ∀ slot ∈ slots, Insertable (slots.map Prod.fst) slot.2
  showing : ∀ slot ∈ slots, Showing slot

/-- Fill the placeholders of a template at once, each with its value. -/
def fillAtOnce (slots : List (Text × Text)) (t : Text) : Text :=
  substituteAll (slots.map Prod.fst) (valueOf slots) t

/-- A template filled at once contains the placeholders of the values. -/
theorem free_fillAtOnce_iff (hnames : Named slots) {names : List Text}
    (hfree : ∀ name ∈ names, IsName name) {pieces : List Segment}
    (hpieces : WellFormed (slots.map Prod.fst) pieces)
    (hsealed : ∀ name ∈ holes pieces, Sealed (valueOf slots name)) :
    Free names (fillAtOnce slots (pieces.flatMap (fill token))) ↔
      ∀ name ∈ holes pieces, Free names (valueOf slots name) := by
  have hown : ∀ n ∈ slots.map Prod.fst, IsName n := fun n => hnames.isName
  have hpiece : ∀ s ∈ pieces.map (fill (valueOf slots)), Sealed s := by
    intro s hs
    obtain ⟨piece, hpiece, rfl⟩ := List.mem_map.mp hs
    cases piece with
    | text s => exact (hpieces.text hpiece).1
    | hole name => exact hsealed name (mem_holes.mpr hpiece)
  rw [fillAtOnce, substituteAll, segments_flatMap hown hpieces, List.flatMap_def,
    free_flatten_iff hfree hpiece, List.forall_mem_map]
  constructor
  · intro h name hname
    exact h (.hole name) (mem_holes.mp hname)
  · intro h piece hpiece
    cases piece with
    | text s => exact (hpieces.text hpiece).2.free hfree
    | hole name => exact h name (mem_holes.mpr hpiece)

/-- Replacing in turn fills the template as if all at once, exactly when every inserted value is
    the intended one and contains no placeholder that is replaced after it. The intended value may
    itself have been written by such a chain, as long as that only grew it. -/
theorem replaceEach_eq_substituteAll_iff (h : Replaceable slots) {own : List Text}
    (hown : own ⊆ slots.map Prod.fst) {pieces : List Segment} (hpieces : WellFormed own pieces)
    {intended : Text → Text}
    (hintended : ∀ name ∈ own, intended name = valueOf slots name ∨
      Grows (intended name) (valueOf slots name)) :
    replaceEach slots (pieces.flatMap (fill token)) =
        substituteAll own intended (pieces.flatMap (fill token)) ↔
      ∀ name ∈ holes pieces, intended name = valueOf slots name ∧
        Free (after (slots.map Prod.fst) name) (intended name) := by
  obtain ⟨hnames, hvalues, hshow⟩ := h
  have hownNames : ∀ n ∈ own, IsName n := fun n hn => hnames.isName (hown hn)
  rw [replaceEach_pieces hnames hvalues hown hpieces, substituteAll,
    segments_flatMap hownNames hpieces, flatMap_eq_iff_of_grows]
  · constructor
    · intro h name hmem
      have hhole := mem_holes.mp hmem
      have heq : intended name = replaceEach (later slots name) (valueOf slots name) :=
        h (.hole name) hhole
      rw [← map_fst_later]
      rcases later_grows hnames hshow name (valueOf slots name) with ⟨hsame, hfree⟩ | hgrows
      · rw [hsame] at heq
        exact ⟨heq, by rwa [heq]⟩
      · rcases hintended name (hpieces.hole_mem hhole) with hint | hint
        · exact absurd (hint.symm.trans heq) hgrows.ne
        · exact absurd heq (hint.trans hgrows).ne
    · intro h piece hpiece
      cases piece with
      | text s => rfl
      | hole name =>
        obtain ⟨heq, hfree⟩ := h name (mem_holes.mpr hpiece)
        rw [← map_fst_later] at hfree
        simp only [fill]
        rw [← heq, hfree.replaceEach_eq]
  · intro piece hpiece
    cases piece with
    | text s => exact Or.inl rfl
    | hole name =>
      simp only [fill]
      rcases later_grows hnames hshow name (valueOf slots name) with ⟨hsame, -⟩ | hgrows
      · rw [hsame]
        exact hintended name (hpieces.hole_mem hpiece)
      · rcases hintended name (hpieces.hole_mem hpiece) with hint | hint
        · exact Or.inr (by rwa [hint])
        · exact Or.inr (hint.trans hgrows)

/-- The same for the values the slots themselves have. -/
theorem replaceEach_eq_fillAtOnce_iff (h : Replaceable slots) {pieces : List Segment}
    (hpieces : WellFormed (slots.map Prod.fst) pieces) :
    replaceEach slots (pieces.flatMap (fill token)) =
        fillAtOnce slots (pieces.flatMap (fill token)) ↔
      ∀ name ∈ holes pieces, Free (after (slots.map Prod.fst) name) (valueOf slots name) := by
  rw [fillAtOnce, replaceEach_eq_substituteAll_iff h (List.Subset.refl _) hpieces
    fun name _ => Or.inl rfl]
  simp only [true_and]

/-- What replacing in turn writes is the intended text, or grows from it. -/
theorem fillAtOnce_eq_or_grows (h : Replaceable slots) {pieces : List Segment}
    (hpieces : WellFormed (slots.map Prod.fst) pieces) :
    fillAtOnce slots (pieces.flatMap (fill token)) =
        replaceEach slots (pieces.flatMap (fill token)) ∨
      Grows (fillAtOnce slots (pieces.flatMap (fill token)))
        (replaceEach slots (pieces.flatMap (fill token))) := by
  obtain ⟨hnames, hvalues, hshow⟩ := h
  have hownNames : ∀ n ∈ slots.map Prod.fst, IsName n := fun n => hnames.isName
  rw [replaceEach_pieces hnames hvalues (List.Subset.refl _) hpieces, fillAtOnce, substituteAll,
    segments_flatMap hownNames hpieces]
  have hpiece : ∀ piece ∈ pieces, fill (valueOf slots) piece =
      fill (fun name => replaceEach (later slots name) (valueOf slots name)) piece ∨
      Grows (fill (valueOf slots) piece)
        (fill (fun name => replaceEach (later slots name) (valueOf slots name)) piece) := by
    intro piece _
    cases piece with
    | text s => exact Or.inl rfl
    | hole name =>
      exact (later_grows hnames hshow name (valueOf slots name)).imp_left fun h => h.1.symm
  exact (flatMap_grows hpiece).imp_left List.flatMap_congr

/-- The marks of a value that is inserted show. -/
theorem countP_replaceEach_pos (h : Replaceable slots) {pieces : List Segment}
    (hpieces : WellFormed (slots.map Prod.fst) pieces) (name : Text) (hname : name ∈ holes pieces)
    {c : Char} (hc : isMark c = true) (hmem : c ∈ valueOf slots name) :
    0 < (replaceEach slots (pieces.flatMap (fill token))).countP isMark := by
  have hown : ∀ n ∈ slots.map Prod.fst, IsName n := fun n => h.named.isName
  have honce : 0 < (fillAtOnce slots (pieces.flatMap (fill token))).countP isMark := by
    rw [fillAtOnce, substituteAll, segments_flatMap hown hpieces, List.countP_pos_iff]
    exact ⟨c, List.mem_flatMap.mpr ⟨.hole name, mem_holes.mp hname, hmem⟩, hc⟩
  rcases fillAtOnce_eq_or_grows h hpieces with heq | hgrows
  · rwa [← heq]
  · unfold Grows at hgrows
    omega

end Placeholder
