import Runex.Lib.Search

/-!
# Shell patterns

Pattern matching as in a shell: a text matches a pattern as a whole, and the expansions
`${s#p}`, `${s##p}`, `${s%p}`, `${s%%p}` and `${s//p/value}` remove or replace what matches. Matches
in `case`, `[[` and `//` compare characters up to a map `fold`, the identity unless the shell
ignores case.

## Main definitions

- `Elem`, `Pattern` — quoted text, `?`, bracket expressions and `*`
- `literal`, `unquoted` — the pattern of a quoted text, and of an unquoted one
- `isMatch` — whether a text matches
- `removeShortestPrefix`, `removeLongestPrefix`, `removeShortestSuffix`, `removeLongestSuffix`
- `replaceMatches` — every match replaced, from left to right

## Main results

- `isMatch_append` — a concatenated pattern matches concatenated texts
- `removeShortestPrefix_append` and its three siblings — which cut an expansion makes
- `removeLongestSuffix_from`, `removeShortestPrefix_upTo`, `removeLongestPrefix_upTo` — the cuts at
  the first and the last occurrence
-/

namespace ShellPattern

open Search

variable {α : Type*}

/-- One element of a pattern. -/
inductive Elem (α : Type*) where
  /-- A character that stands for itself. -/
  | char (c : α)
  /-- `?`. -/
  | anyChar
  /-- `[...]`. -/
  | oneOf (test : α → Bool)
  /-- `*`. -/
  | anyString

abbrev Pattern (α : Type*) := List (Elem α)

/-- A quoted text. -/
def literal (s : List α) : Pattern α := s.map .char

/-- A character outside quotes, in a text without brackets, escapes and groups. -/
def unquotedElem (c : Char) : Elem Char :=
  if c = '*' then .anyString else if c = '?' then .anyChar else .char c

/-- An unquoted text without brackets, escapes and groups. -/
def unquoted (s : List Char) : Pattern Char := s.map unquotedElem

variable [DecidableEq α]

/-- Whether an element other than `*` matches a character. -/
def Elem.accepts (fold : α → α) : Elem α → α → Bool
  | .char d, c => fold d == fold c
  | .anyChar, _ => true
  | .oneOf test, c => test (fold c)
  | .anyString, _ => false

/-- Whether the whole text matches. -/
def isMatch (fold : α → α) : Pattern α → List α → Bool
  | [], s => s.isEmpty
  | .anyString :: p, s => s.tails.any (isMatch fold p)
  | _ :: _, [] => false
  | e :: p, c :: s => e.accepts fold c && isMatch fold p s

-- ════════════════════════════════════════════════════════════════════════
-- Matching
-- ════════════════════════════════════════════════════════════════════════

section Matching

variable {fold : α → α} {p q : Pattern α} {s : List α}

@[simp] theorem isMatch_nil : isMatch fold [] s = true ↔ s = [] := by
  simp [isMatch]

theorem isMatch_anyString : isMatch fold (.anyString :: p) s = true ↔
    ∃ l r, s = l ++ r ∧ isMatch fold p r = true := by
  simp only [isMatch, List.any_eq_true, List.mem_tails]
  constructor
  · rintro ⟨r, ⟨l, rfl⟩, h⟩
    exact ⟨l, r, rfl, h⟩
  · rintro ⟨l, r, rfl, h⟩
    exact ⟨r, List.suffix_append l r, h⟩

theorem isMatch_cons {e : Elem α} (he : e ≠ .anyString) : isMatch fold (e :: p) s = true ↔
    ∃ c r, s = c :: r ∧ e.accepts fold c = true ∧ isMatch fold p r = true := by
  cases e with
  | anyString => exact absurd rfl he
  | char _ => cases s <;> simp [isMatch]
  | anyChar => cases s <;> simp [isMatch]
  | oneOf _ => cases s <;> simp [isMatch]

/-- A concatenated pattern matches concatenated texts. -/
theorem isMatch_append : isMatch fold (p ++ q) s = true ↔
    ∃ l r, s = l ++ r ∧ isMatch fold p l = true ∧ isMatch fold q r = true := by
  induction p generalizing s with
  | nil => simp
  | cons e p ih =>
    by_cases he : e = .anyString
    · subst he
      simp only [List.cons_append, isMatch_anyString, ih]
      constructor
      · rintro ⟨l, _, rfl, m, r, rfl, hm, hr⟩
        exact ⟨l ++ m, r, by simp, ⟨l, m, rfl, hm⟩, hr⟩
      · rintro ⟨_, r, rfl, ⟨l, m, rfl, hm⟩, hr⟩
        exact ⟨l, m ++ r, by simp, m, r, rfl, hm, hr⟩
    · simp only [List.cons_append, isMatch_cons he, ih]
      constructor
      · rintro ⟨c, _, rfl, hc, l, r, rfl, hl, hr⟩
        exact ⟨c :: l, r, rfl, ⟨c, l, rfl, hc, hl⟩, hr⟩
      · rintro ⟨_, r, rfl, ⟨c, l, rfl, hc, hl⟩, hr⟩
        exact ⟨c, l ++ r, rfl, hc, l, r, rfl, hl, hr⟩

@[simp] theorem isMatch_star : isMatch fold [.anyString] s = true :=
  isMatch_anyString.mpr ⟨s, [], by simp, rfl⟩

/-- Quoted text that folding keeps apart from any other matches itself only. -/
theorem isMatch_literal_of_fold {pat : List α} (hfold : ∀ d ∈ pat, ∀ c, fold d = fold c → d = c) :
    isMatch fold (literal pat) s = true ↔ s = pat := by
  induction pat generalizing s with
  | nil => simp [literal]
  | cons d pat ih =>
    have hd : ∀ c, fold d = fold c ↔ d = c := fun c => ⟨hfold d (by simp) c, congrArg fold⟩
    have hpat := ih (s := s.tail) fun e he => hfold e (List.mem_cons_of_mem d he)
    rw [literal, List.map_cons, ← literal, isMatch_cons (by simp)]
    cases s with
    | nil => simp
    | cons c s => simpa [Elem.accepts, hd, eq_comm (a := d)] using fun _ => hpat

@[simp] theorem isMatch_literal {pat : List α} : isMatch id (literal pat) s = true ↔ s = pat :=
  isMatch_literal_of_fold fun _ _ _ h => h

/-- `*"pat"`. -/
theorem isMatch_endsWith {pat : List α} (hfold : ∀ d ∈ pat, ∀ c, fold d = fold c → d = c) :
    isMatch fold (.anyString :: literal pat) s = true ↔ pat <:+ s := by
  simp only [isMatch_anyString, isMatch_literal_of_fold hfold, exists_eq_right]
  exact exists_congr fun l => eq_comm

/-- `"pat"*`. -/
theorem isMatch_startsWith {pat : List α} :
    isMatch id (literal pat ++ [.anyString]) s = true ↔ pat <+: s := by
  simp only [isMatch_append, isMatch_literal, isMatch_star, and_true]
  constructor
  · rintro ⟨_, r, rfl, rfl⟩
    exact List.prefix_append _ r
  · rintro ⟨r, rfl⟩
    exact ⟨pat, r, rfl, rfl⟩

/-- `*"pat"*`. -/
theorem isMatch_contains {pat : List α} :
    isMatch id (.anyString :: (literal pat ++ [.anyString])) s = true ↔ pat <:+: s := by
  simp only [isMatch_anyString, isMatch_startsWith]
  constructor
  · rintro ⟨l, _, rfl, r, rfl⟩
    exact ⟨l, r, by simp⟩
  · rintro ⟨l, r, rfl⟩
    exact ⟨l, pat ++ r, by simp, List.prefix_append pat r⟩

/-- `*[...]*`. -/
theorem isMatch_containsOneOf {test : α → Bool} :
    isMatch id [.anyString, .oneOf test, .anyString] s = true ↔ s.any test = true := by
  simp only [isMatch_anyString, isMatch_cons (e := .oneOf test) (by simp), Elem.accepts, id_eq,
    isMatch_star, and_true, List.any_eq_true]
  constructor
  · rintro ⟨l, _, rfl, c, r, rfl, hc⟩
    exact ⟨c, by simp, hc⟩
  · rintro ⟨c, hmem, hc⟩
    obtain ⟨l, r, rfl⟩ := List.append_of_mem hmem
    exact ⟨l, c :: r, rfl, c, r, rfl, hc⟩

end Matching

-- ════════════════════════════════════════════════════════════════════════
-- Removing a prefix or a suffix
-- ════════════════════════════════════════════════════════════════════════

/-- The first place to cut a text of length `n` at. -/
def firstCut (n : ℕ) (fits : ℕ → Bool) : Option ℕ := (List.range (n + 1)).find? fits

/-- The last place to cut a text of length `n` at. -/
def lastCut (n : ℕ) (fits : ℕ → Bool) : Option ℕ := (List.range (n + 1)).reverse.find? fits

/-- `${s#p}`. -/
def removeShortestPrefix (p : Pattern α) (s : List α) : List α :=
  match firstCut s.length fun k => isMatch id p (s.take k) with
  | some k => s.drop k
  | none => s

/-- `${s##p}`. -/
def removeLongestPrefix (p : Pattern α) (s : List α) : List α :=
  match lastCut s.length fun k => isMatch id p (s.take k) with
  | some k => s.drop k
  | none => s

/-- `${s%p}`. -/
def removeShortestSuffix (p : Pattern α) (s : List α) : List α :=
  match lastCut s.length fun k => isMatch id p (s.drop k) with
  | some k => s.take k
  | none => s

/-- `${s%%p}`. -/
def removeLongestSuffix (p : Pattern α) (s : List α) : List α :=
  match firstCut s.length fun k => isMatch id p (s.drop k) with
  | some k => s.take k
  | none => s

section Cuts

variable {p : Pattern α} {s l r : List α}

omit [DecidableEq α] in
theorem firstCut_eq_some {n k : ℕ} {fits : ℕ → Bool} (hk : k ≤ n) (hfits : fits k = true)
    (hfirst : ∀ j < k, fits j = false) : firstCut n fits = some k :=
  List.find?_range_eq_some.mpr ⟨hfits, by simpa using Nat.lt_succ_of_le hk, by simpa using hfirst⟩

omit [DecidableEq α] in
theorem lastCut_eq_some {n k : ℕ} {fits : ℕ → Bool} (hk : k ≤ n) (hfits : fits k = true)
    (hlast : ∀ j, k < j → j ≤ n → fits j = false) : lastCut n fits = some k := by
  induction n with
  | zero =>
    obtain rfl : k = 0 := by omega
    simp [lastCut, hfits]
  | succ n ih =>
    rw [lastCut, List.range_succ, List.reverse_append, List.reverse_singleton,
      List.singleton_append, List.find?_cons]
    rcases Nat.lt_or_ge n k with hlt | hge
    · obtain rfl : k = n + 1 := by omega
      rw [hfits]
    · rw [hlast (n + 1) (by omega) le_rfl]
      exact ih hge fun j hj hle => hlast j hj (by omega)

omit [DecidableEq α] in
theorem firstCut_eq_none {n : ℕ} {fits : ℕ → Bool} (h : ∀ k, fits k = false) :
    firstCut n fits = none := by
  simp [firstCut, h]

omit [DecidableEq α] in
theorem lastCut_eq_none {n : ℕ} {fits : ℕ → Bool} (h : ∀ k, fits k = false) :
    lastCut n fits = none := by
  simp [lastCut, h]

/-- The shortest matching prefix is removed. -/
theorem removeShortestPrefix_append (hmatch : isMatch id p l = true)
    (hshortest : ∀ l' r', l ++ r = l' ++ r' → isMatch id p l' = true → l.length ≤ l'.length) :
    removeShortestPrefix p (l ++ r) = r := by
  have hcut : firstCut (l ++ r).length (fun k => isMatch id p ((l ++ r).take k)) =
      some l.length := by
    refine firstCut_eq_some (by simp) (by simpa using hmatch) fun j hj => ?_
    rw [← Bool.not_eq_true]
    intro hfits
    have hle := hshortest _ _ (List.take_append_drop j (l ++ r)).symm hfits
    rw [List.length_take] at hle
    omega
  rw [removeShortestPrefix, hcut]
  simp

/-- The longest matching prefix is removed. -/
theorem removeLongestPrefix_append (hmatch : isMatch id p l = true)
    (hlongest : ∀ l' r', l ++ r = l' ++ r' → isMatch id p l' = true → l'.length ≤ l.length) :
    removeLongestPrefix p (l ++ r) = r := by
  have hcut : lastCut (l ++ r).length (fun k => isMatch id p ((l ++ r).take k)) =
      some l.length := by
    refine lastCut_eq_some (by simp) (by simpa using hmatch) fun j hj hle => ?_
    rw [← Bool.not_eq_true]
    intro hfits
    have hle' := hlongest _ _ (List.take_append_drop j (l ++ r)).symm hfits
    rw [List.length_take] at hle'
    omega
  rw [removeLongestPrefix, hcut]
  simp

/-- The shortest matching suffix is removed. -/
theorem removeShortestSuffix_append (hmatch : isMatch id p r = true)
    (hshortest : ∀ l' r', l ++ r = l' ++ r' → isMatch id p r' = true → r.length ≤ r'.length) :
    removeShortestSuffix p (l ++ r) = l := by
  have hcut : lastCut (l ++ r).length (fun k => isMatch id p ((l ++ r).drop k)) =
      some l.length := by
    refine lastCut_eq_some (by simp) (by simpa using hmatch) fun j hj hle => ?_
    rw [← Bool.not_eq_true]
    intro hfits
    have hle' := hshortest _ _ (List.take_append_drop j (l ++ r)).symm hfits
    rw [List.length_append] at hle
    rw [List.length_drop, List.length_append] at hle'
    omega
  rw [removeShortestSuffix, hcut]
  simp

/-- The longest matching suffix is removed. -/
theorem removeLongestSuffix_append (hmatch : isMatch id p r = true)
    (hlongest : ∀ l' r', l ++ r = l' ++ r' → isMatch id p r' = true → r'.length ≤ r.length) :
    removeLongestSuffix p (l ++ r) = l := by
  have hcut : firstCut (l ++ r).length (fun k => isMatch id p ((l ++ r).drop k)) =
      some l.length := by
    refine firstCut_eq_some (by simp) (by simpa using hmatch) fun j hj => ?_
    rw [← Bool.not_eq_true]
    intro hfits
    have hle := hlongest _ _ (List.take_append_drop j (l ++ r)).symm hfits
    rw [List.length_drop, List.length_append] at hle
    omega
  rw [removeLongestSuffix, hcut]
  simp

/-- Without a matching prefix nothing is removed. -/
theorem removePrefix_of_none (h : ∀ l r, s = l ++ r → isMatch id p l = false) :
    removeShortestPrefix p s = s ∧ removeLongestPrefix p s = s := by
  have hfits : ∀ k, isMatch id p (s.take k) = false := fun k =>
    h _ _ (List.take_append_drop k s).symm
  rw [removeShortestPrefix, removeLongestPrefix, firstCut_eq_none hfits, lastCut_eq_none hfits]
  exact ⟨rfl, rfl⟩

/-- Without a matching suffix nothing is removed. -/
theorem removeSuffix_of_none (h : ∀ l r, s = l ++ r → isMatch id p r = false) :
    removeShortestSuffix p s = s ∧ removeLongestSuffix p s = s := by
  have hfits : ∀ k, isMatch id p (s.drop k) = false := fun k =>
    h _ _ (List.take_append_drop k s).symm
  rw [removeShortestSuffix, removeLongestSuffix, firstCut_eq_none hfits, lastCut_eq_none hfits]
  exact ⟨rfl, rfl⟩

end Cuts

-- ════════════════════════════════════════════════════════════════════════
-- Patterns of a fixed length
-- ════════════════════════════════════════════════════════════════════════

section FixedLength

variable {p : Pattern α} {s l r : List α}

/-- A pattern without `*` matches texts of its own length. -/
theorem length_of_isMatch {fold : α → α} (hp : Elem.anyString ∉ p)
    (h : isMatch fold p s = true) : s.length = p.length := by
  induction p generalizing s with
  | nil => simp [isMatch_nil.mp h]
  | cons e p ih =>
    rw [List.mem_cons, not_or] at hp
    obtain ⟨c, r, rfl, -, hr⟩ := (isMatch_cons (Ne.symm hp.1)).mp h
    simp [ih hp.2 hr]

theorem removeShortestPrefix_of_fixed (hp : Elem.anyString ∉ p) (h : isMatch id p l = true) :
    removeShortestPrefix p (l ++ r) = r :=
  removeShortestPrefix_append h fun _ _ _ h' =>
    ((length_of_isMatch hp h).trans (length_of_isMatch hp h').symm).le

theorem removeShortestSuffix_of_fixed (hp : Elem.anyString ∉ p) (h : isMatch id p r = true) :
    removeShortestSuffix p (l ++ r) = l :=
  removeShortestSuffix_append h fun _ _ _ h' =>
    ((length_of_isMatch hp h).trans (length_of_isMatch hp h').symm).le

omit [DecidableEq α] in
theorem anyString_not_mem_literal (pat : List α) : Elem.anyString ∉ literal pat := by
  simp [literal]

/-- `${s#"pat"}` removes the text where it is a prefix. -/
theorem removeShortestPrefix_literal (pat s : List α) :
    removeShortestPrefix (literal pat) s = (stripPrefix? pat s).getD s := by
  cases hstrip : stripPrefix? pat s with
  | none =>
    refine (removePrefix_of_none fun l r hs => ?_).1
    rw [← Bool.not_eq_true, isMatch_literal]
    rintro rfl
    exact stripPrefix?_eq_none.mp hstrip ⟨r, hs.symm⟩
  | some rest =>
    obtain rfl := stripPrefix?_eq_some.mp hstrip
    exact removeShortestPrefix_of_fixed (anyString_not_mem_literal pat) (isMatch_literal.mpr rfl)

/-- `${s%"pat"}` removes the text where it is a suffix. -/
theorem removeShortestSuffix_literal (pat s : List α) :
    removeShortestSuffix (literal pat) s = (stripSuffix? pat s).getD s := by
  cases hstrip : stripSuffix? pat s with
  | none =>
    refine (removeSuffix_of_none fun l r hs => ?_).1
    rw [← Bool.not_eq_true, isMatch_literal]
    rintro rfl
    exact stripSuffix?_eq_none.mp hstrip ⟨l, hs.symm⟩
  | some rest =>
    obtain rfl := stripSuffix?_eq_some.mp hstrip
    exact removeShortestSuffix_of_fixed (anyString_not_mem_literal pat) (isMatch_literal.mpr rfl)

/-- The test whether `${s#"pat"}` leaves the text as it is. -/
theorem removeShortestPrefix_eq_self (pat s : List α) :
    (pat ≠ [] ∧ removeShortestPrefix (literal pat) s = s) ↔ stripPrefix? pat s = none := by
  rw [removeShortestPrefix_literal]
  cases hstrip : stripPrefix? pat s with
  | none =>
    have hne : pat ≠ [] := by
      rintro rfl
      exact stripPrefix?_eq_none.mp hstrip (List.nil_prefix)
    simp [hne]
  | some rest =>
    obtain rfl := stripPrefix?_eq_some.mp hstrip
    simp

/-- The test whether `${s%"pat"}` leaves the text as it is. -/
theorem removeShortestSuffix_eq_self (pat s : List α) :
    (pat ≠ [] ∧ removeShortestSuffix (literal pat) s = s) ↔ stripSuffix? pat s = none := by
  rw [removeShortestSuffix_literal]
  cases hstrip : stripSuffix? pat s with
  | none =>
    have hne : pat ≠ [] := by
      rintro rfl
      exact stripSuffix?_eq_none.mp hstrip (List.nil_suffix)
    simp [hne]
  | some rest =>
    obtain rfl := stripSuffix?_eq_some.mp hstrip
    simp

end FixedLength

-- ════════════════════════════════════════════════════════════════════════
-- First and last occurrences
-- ════════════════════════════════════════════════════════════════════════

section Occurrences

/-- `${s%%"pat"*}` is what is before the first occurrence. -/
theorem removeLongestSuffix_from (pat s : List α) :
    removeLongestSuffix (literal pat ++ [.anyString]) s =
      ((splitOnce pat s).map Prod.fst).getD s := by
  cases hsplit : splitOnce pat s with
  | none =>
    refine (removeSuffix_of_none fun l r hs => ?_).2
    rw [← Bool.not_eq_true, isMatch_startsWith]
    intro hstart
    exact splitOnce_eq_none.mp hsplit (hstart.isInfix.trans ⟨l, [], by simp [hs]⟩)
  | some parts =>
    obtain ⟨before, after⟩ := parts
    obtain rfl := eq_append_of_splitOnce hsplit
    refine removeLongestSuffix_append (isMatch_startsWith.mpr (List.prefix_append pat after))
      fun l r hs hmatch => ?_
    have hle := length_le_of_splitOnce hsplit hs (isMatch_startsWith.mp hmatch)
    have hlen := congrArg List.length hs
    simp only [List.length_append] at hlen ⊢
    omega

/-- `${s#*"pat"}` is what is after the first occurrence. -/
theorem removeShortestPrefix_upTo (pat s : List α) :
    removeShortestPrefix (.anyString :: literal pat) s =
      ((splitOnce pat s).map Prod.snd).getD s := by
  have hends : ∀ l, isMatch id (.anyString :: literal pat) l = true ↔ pat <:+ l := fun l =>
    isMatch_endsWith fun _ _ _ h => h
  cases hsplit : splitOnce pat s with
  | none =>
    refine (removePrefix_of_none fun l r hs => ?_).1
    rw [← Bool.not_eq_true, hends]
    intro hsuffix
    exact splitOnce_eq_none.mp hsplit (hsuffix.isInfix.trans ⟨[], r, by simp [hs]⟩)
  | some parts =>
    obtain ⟨before, after⟩ := parts
    obtain rfl := eq_append_of_splitOnce hsplit
    rw [← List.append_assoc]
    refine removeShortestPrefix_append ((hends _).mpr (List.suffix_append before pat))
      fun l r hs hmatch => ?_
    obtain ⟨front, rfl⟩ := (hends l).mp hmatch
    have hcut : before ++ (pat ++ after) = front ++ (pat ++ r) := by simpa using hs
    have hle := length_le_of_splitOnce hsplit hcut (List.prefix_append pat r)
    simp only [List.length_append]
    omega

/-- `${s##*c}` is what is after the last occurrence. -/
theorem removeLongestPrefix_upTo (c : α) (s : List α) :
    removeLongestPrefix [.anyString, .char c] s = ((splitLast c s).map Prod.snd).getD s := by
  have hends : ∀ l, isMatch id (.anyString :: literal [c]) l = true ↔ [c] <:+ l := fun l =>
    isMatch_endsWith fun _ _ _ h => h
  change removeLongestPrefix (.anyString :: literal [c]) s = _
  cases hsplit : splitLast c s with
  | none =>
    refine (removePrefix_of_none fun l r hs => ?_).2
    rw [← Bool.not_eq_true, hends]
    rintro ⟨front, rfl⟩
    exact splitLast_eq_none.mp hsplit (by simp [hs])
  | some parts =>
    obtain ⟨before, after⟩ := parts
    obtain ⟨rfl, hafter⟩ := splitLast_eq_some.mp hsplit
    rw [List.append_cons]
    refine removeLongestPrefix_append ((hends _).mpr (List.suffix_append before [c]))
      fun l r hs hmatch => ?_
    obtain ⟨front, rfl⟩ := (hends l).mp hmatch
    -- A later occurrence would be one in `after`.
    by_contra hlt
    simp only [List.length_append, List.length_singleton, Nat.not_le] at hlt
    have hs' : (before ++ [c]) ++ after = front ++ (c :: r) := by simpa using hs
    rcases List.append_eq_append_iff.mp hs' with ⟨mid, -, hmid⟩ | ⟨mid, hbefore, hmid⟩
    · exact hafter (by simp [hmid])
    · have hlen := congrArg List.length hbefore
      simp only [List.length_append, List.length_singleton] at hlen
      obtain rfl : mid = [] := List.eq_nil_of_length_eq_zero (by omega)
      exact hafter (by simp [← show c :: r = after from hmid])

/-- `${s%%[...]*}` is what is before the first of these characters. -/
theorem removeLongestSuffix_fromOneOf {test : α → Bool} {l r : List α}
    (hl : ∀ c ∈ l, test c = false) (hr : ∀ c ∈ r.head?, test c = true) :
    removeLongestSuffix [.oneOf test, .anyString] (l ++ r) = l := by
  have hstarts : ∀ r, isMatch id [.oneOf test, .anyString] r = true ↔
      ∃ c t, r = c :: t ∧ test c = true := by
    intro r
    simp [isMatch_cons (e := .oneOf test) (by simp), Elem.accepts]
  -- A match begins with one of the characters, and so not inside `l`.
  have hafter : ∀ l' c t, l ++ r = l' ++ c :: t → test c = true → l.length ≤ l'.length := by
    intro l' c t hs hc
    rcases List.append_eq_append_iff.mp hs with ⟨mid, rfl, -⟩ | ⟨mid, rfl, hmid⟩
    · simp
    · cases mid with
      | nil => simp
      | cons d mid =>
        obtain ⟨rfl, -⟩ := List.cons.inj hmid
        simp [hl c (by simp)] at hc
  cases r with
  | nil =>
    refine (removeSuffix_of_none fun l' r' hs => ?_).2.trans (List.append_nil l)
    rw [← Bool.not_eq_true, hstarts]
    rintro ⟨c, t, rfl, hc⟩
    have hle := hafter l' c t hs hc
    have hlen := congrArg List.length hs
    simp at hlen
    omega
  | cons c t =>
    refine removeLongestSuffix_append ((hstarts _).mpr ⟨c, t, rfl, hr c rfl⟩)
      fun l' r' hs hmatch => ?_
    obtain ⟨d, u, rfl, hd⟩ := (hstarts r').mp hmatch
    have hle := hafter l' d u hs hd
    have hlen := congrArg List.length hs
    simp only [List.length_append, List.length_cons] at hlen ⊢
    omega

end Occurrences

-- ════════════════════════════════════════════════════════════════════════
-- Replacing every match
-- ════════════════════════════════════════════════════════════════════════

/-- The length of the longest match at the start. -/
def longestMatch (fold : α → α) (p : Pattern α) (s : List α) : Option ℕ :=
  lastCut s.length fun k => isMatch fold p (s.take k)

/-- The scan behind `replaceMatches`; `skip` elements of a match are still to be dropped. -/
def replaceMatchesGo (fold : α → α) (p : Pattern α) (value : List α) : ℕ → List α → List α
  | _, [] => []
  | skip + 1, _ :: s => replaceMatchesGo fold p value skip s
  | 0, c :: s =>
    match longestMatch fold p (c :: s) with
    | some (k + 1) => value ++ replaceMatchesGo fold p value k s
    | _ => c :: replaceMatchesGo fold p value 0 s

/-- `${s//p/value}` for a quoted value and a pattern that does not match the empty text. -/
def replaceMatches (fold : α → α) (p : Pattern α) (value s : List α) : List α :=
  replaceMatchesGo fold p value 0 s

section Replacing

variable {fold : α → α} {p : Pattern α}

theorem longestMatch_of_prefix {l r : List α} (hp : Elem.anyString ∉ p)
    (h : isMatch fold p l = true) : longestMatch fold p (l ++ r) = some l.length := by
  refine lastCut_eq_some (by simp) (by simpa using h) fun j hj hle => ?_
  rw [← Bool.not_eq_true]
  intro hfits
  have hlen := (length_of_isMatch hp hfits).trans (length_of_isMatch hp h).symm
  rw [List.length_take] at hlen
  omega

theorem longestMatch_eq_none {s : List α} (h : ∀ l r, s = l ++ r → isMatch fold p l = false) :
    longestMatch fold p s = none :=
  lastCut_eq_none fun k => h _ _ (List.take_append_drop k s).symm

/-- Replacing a quoted text. -/
theorem replaceMatches_literal {pat : List α} (hpat : pat ≠ []) (value s : List α) :
    replaceMatches id (literal pat) value s = replaceAll pat value s := by
  have hgo : ∀ skip, replaceMatchesGo id (literal pat) value skip s =
      replaceGo pat value skip s := by
    induction s with
    | nil => intro skip; cases skip <;> rfl
    | cons c s ih =>
      intro skip
      cases skip with
      | succ skip => exact ih skip
      | zero =>
        rw [replaceMatchesGo, replaceGo]
        by_cases hstart : pat <+: c :: s
        · obtain ⟨rest, hrest⟩ := hstart
          obtain ⟨k, hk⟩ := Nat.exists_eq_succ_of_ne_zero (List.length_pos_of_ne_nil hpat).ne'
          rw [if_pos ⟨rest, hrest⟩, ← hrest,
            longestMatch_of_prefix (anyString_not_mem_literal pat) (isMatch_literal.mpr rfl), hk]
          simp [ih]
        · rw [if_neg hstart, longestMatch_eq_none]
          · simp [ih]
          · intro l r hs
            rw [← Bool.not_eq_true, isMatch_literal]
            rintro rfl
            exact hstart ⟨r, hs.symm⟩
  exact hgo 0

/-- Replacing single characters. -/
theorem replaceMatches_singleton {e : Elem α} (he : e ≠ .anyString) (value s : List α) :
    replaceMatches fold [e] value s =
      s.flatMap fun c => if e.accepts fold c then value else [c] := by
  have hfixed : Elem.anyString ∉ [e] := by simpa using Ne.symm he
  induction s with
  | nil => rfl
  | cons c s ih =>
    rw [replaceMatches, replaceMatchesGo, List.flatMap_cons, ← ih, replaceMatches]
    by_cases haccepts : e.accepts fold c = true
    · have hmatch : isMatch fold [e] [c] = true := (isMatch_cons he).mpr ⟨c, [], rfl, haccepts, rfl⟩
      have hlongest : longestMatch fold [e] (c :: s) = some 1 := longestMatch_of_prefix hfixed hmatch
      rw [hlongest, if_pos haccepts]
    · rw [longestMatch_eq_none, if_neg haccepts]
      · rfl
      · intro l r hs
        rw [← Bool.not_eq_true, isMatch_cons he]
        rintro ⟨d, t, rfl, hd, -⟩
        obtain ⟨rfl, -⟩ := List.cons.inj hs
        exact haccepts hd

/-- Deleting single characters. -/
theorem replaceMatches_singleton_nil {e : Elem α} (he : e ≠ .anyString) (s : List α) :
    replaceMatches fold [e] [] s = s.filter fun c => !e.accepts fold c := by
  rw [replaceMatches_singleton he]
  induction s with
  | nil => rfl
  | cons c s ih =>
    rw [List.flatMap_cons, List.filter_cons, ih]
    cases e.accepts fold c <;> rfl

end Replacing

end ShellPattern
