import Runex.App.BashStaticDispatcher.Functions
import Runex.Domain.Expand.Glob
import Runex.Domain.Expand.Rendering
import Runex.Domain.Hook
import Mathlib.Data.List.TakeWhile

/-!
# The expansions of the dispatcher

What the parameter expansions and patterns of the Bash functions compute, in the terms of the
program: blankness, the number of a token, the capture of a glob, the text around the cursor
placeholder, command position.

## Main results

- `cygIsBlank_eq`, `cygIsCommandPosition_eq` — the predicates are those of the program
- `matchAbbrKey_number`, `matchGlobKey_eq` — so is what a token matches
- `cygGlobText_eq` — so is the text of a glob rule, with the cursor counted in characters
-/

namespace Runex

open Search ShellPattern
open Text (byteLen isAsciiDigit)

-- ════════════════════════════════════════════════════════════════════════
-- Blankness
-- ════════════════════════════════════════════════════════════════════════

theorem isWhitespace_iff {c : Char} :
    Text.isWhitespace c = true ↔ c ∈ asciiBlanks ∨ c ∈ multibyteWhitespace := by
  have hmem : ∀ codes : List ℕ, c.toNat ∈ codes → c ∈ codes.map Char.ofNat := fun codes h =>
    List.mem_map.mpr ⟨c.toNat, h, Char.ofNat_toNat c⟩
  constructor
  · intro h
    simp only [Text.isWhitespace, Bool.or_eq_true, Bool.and_eq_true, decide_eq_true_eq,
      beq_iff_eq] at h
    have hcode : c.toNat ∈ [0x09, 0x0A, 0x0B, 0x0C, 0x0D, 0x20] ∨ c.toNat ∈
        [0x85, 0xA0, 0x1680, 0x2000, 0x2001, 0x2002, 0x2003, 0x2004, 0x2005, 0x2006, 0x2007,
          0x2008, 0x2009, 0x200A, 0x2028, 0x2029, 0x202F, 0x205F, 0x3000] := by
      simp only [List.mem_cons, List.not_mem_nil, or_false]
      omega
    exact hcode.imp (hmem _) (hmem _)
  · intro h
    have hall : ∀ d ∈ asciiBlanks ++ multibyteWhitespace, Text.isWhitespace d = true := by decide
    exact hall c (List.mem_append.mpr h)

/-- The loop over the words removes every character of them. -/
theorem foldl_replaceMatches_nil (chars : List Char) (s : Text) :
    (chars.map fun c => [c]).foldl (fun rest c => replaceMatches id (literal c) [] rest) s =
      s.filter fun c => !chars.contains c := by
  induction chars generalizing s with
  | nil => simp
  | cons d chars ih =>
    rw [List.map_cons, List.foldl_cons, ih, literal, List.map_singleton,
      replaceMatches_singleton_nil (by simp), List.filter_filter]
    congr 1
    funext c
    simp only [Elem.accepts, id_eq, List.contains_cons, Bool.not_or, Bool.beq_comm (a := d)]
    exact Bool.and_comm _ _

theorem cygIsBlank_eq (text : Text) : cygIsBlank id text = Text.isBlank text := by
  rw [Bool.eq_iff_iff, Text.isBlank, List.all_eq_true, cygIsBlank, decide_eq_true_eq,
    blankMultibyte, foldl_replaceMatches_nil, replaceMatches_singleton_nil (by simp),
    List.filter_filter, List.filter_eq_nil_iff]
  apply forall₂_congr
  intro c _
  have hcontains : multibyteWhitespace.contains c = true ↔ c ∈ multibyteWhitespace :=
    List.contains_iff_mem
  rw [isWhitespace_iff, ← hcontains]
  generalize multibyteWhitespace.contains c = multibyte
  cases multibyte <;> simp [Elem.accepts]

-- ════════════════════════════════════════════════════════════════════════
-- Numbers
-- ════════════════════════════════════════════════════════════════════════

/-- The value of digits is less than the power of their number. -/
theorem ofDigitChars_lt {digits : Text} (h : digits.all isAsciiDigit = true) :
    Nat.ofDigitChars 10 digits 0 < 10 ^ digits.length := by
  induction digits with
  | nil => simp
  | cons d digits ih =>
    rw [List.all_cons, Bool.and_eq_true] at h
    have hd : d.toNat - '0'.toNat ≤ 9 := by
      have hdigit := h.1
      simp only [isAsciiDigit, Bool.and_eq_true, decide_eq_true_eq, Char.le_def] at hdigit
      have hle : d.toNat ≤ '9'.toNat := hdigit.2
      have h9 : '9'.toNat = 57 := rfl
      have h0 : '0'.toNat = 48 := rfl
      omega
    have hle := Nat.mul_le_mul_left (10 ^ digits.length) hd
    have hrest := ih h.2
    rw [Nat.ofDigitChars_cons, Nat.ofDigitChars_eq_ofDigitChars_zero, List.length_cons, Nat.pow_succ,
      Nat.mul_zero, Nat.zero_add]
    omega

/-- Digits that do not begin with a zero have a value of that many digits. -/
theorem le_ofDigitChars {d : Char} {digits : Text} (h : isAsciiDigit d = true) (hd : d ≠ '0') :
    10 ^ digits.length ≤ Nat.ofDigitChars 10 (d :: digits) 0 := by
  have hpos : 1 ≤ d.toNat - '0'.toNat := by
    simp only [isAsciiDigit, Bool.and_eq_true, decide_eq_true_eq, Char.le_def] at h
    have hle : '0'.toNat ≤ d.toNat := h.1
    have hne : d.toNat ≠ '0'.toNat := fun heq => hd (Char.toNat_inj.mp heq)
    omega
  have hle := Nat.mul_le_mul_left (10 ^ digits.length) hpos
  rw [Nat.ofDigitChars_cons, Nat.ofDigitChars_eq_ofDigitChars_zero, Nat.mul_zero, Nat.zero_add]
  omega

theorem ofDigitChars_zeros {zeros : Text} (h : ∀ c ∈ zeros, c = '0') (digits : Text) :
    Nat.ofDigitChars 10 (zeros ++ digits) 0 = Nat.ofDigitChars 10 digits 0 := by
  rw [List.eq_replicate_of_mem h, Nat.ofDigitChars_append, Nat.ofDigitChars_replicate_zero,
    Nat.mul_zero]

/-- Digits are zeros and the rest. -/
theorem exists_zeros (rest : Text) : ∃ zeros digits, rest = zeros ++ digits ∧
    (∀ c ∈ zeros, c = '0') ∧ ∀ c ∈ digits.head?, c ≠ '0' := by
  refine ⟨rest.takeWhile (· == '0'), rest.dropWhile (· == '0'),
    (List.takeWhile_append_dropWhile).symm, ?_, ?_⟩
  · intro c hc
    simpa using List.mem_takeWhile_imp hc
  · intro c hc
    have hhead := List.head?_dropWhile_not (· == '0') rest
    rw [Option.mem_def.mp hc] at hhead
    simpa using hhead

/-- The zeros at the start are removed. -/
theorem removeZeros {zeros digits : Text} (hzeros : ∀ c ∈ zeros, c = '0')
    (hdigits : ∀ c ∈ digits.head?, c ≠ '0') :
    removeShortestPrefix
      (literal (removeLongestSuffix [.oneOf (· != '0'), .anyString] (zeros ++ digits)))
      (zeros ++ digits) = digits := by
  have hcut : removeLongestSuffix [.oneOf (· != '0'), .anyString] (zeros ++ digits) = zeros :=
    removeLongestSuffix_fromOneOf (fun c hc => by simpa using hzeros c hc)
      fun c hc => by simpa using hdigits c hc
  rw [hcut, removeShortestPrefix_literal, stripPrefix?_append, Option.getD_some]

/-- The range check on at most three digits is the one on the parsed number. -/
theorem digits_in_range {zeros digits : Text} (hzeros : ∀ c ∈ zeros, c = '0')
    (hdigits : ∀ c ∈ digits.head?, c ≠ '0') (hall : digits.all isAsciiDigit = true) :
    ((parseU32 (zeros ++ digits)).bind fun n =>
        if n = 0 ∨ n > maxNumericRepeat then none else some n) =
      if digits = [] then none
      else if digits.length > 3 then none
      else if Nat.ofDigitChars 10 digits 0 > 128 then none
      else some (Nat.ofDigitChars 10 digits 0) := by
  have hmax : maxNumericRepeat = 128 := rfl
  rw [parseU32, ofDigitChars_zeros hzeros]
  cases digits with
  | nil => simp
  | cons d digits =>
    have hpos : 10 ^ digits.length ≤ Nat.ofDigitChars 10 (d :: digits) 0 :=
      le_ofDigitChars (List.all_eq_true.mp hall d (by simp)) (hdigits d rfl)
    have hlt := ofDigitChars_lt hall
    have hone := Nat.one_le_pow digits.length 10 (by omega)
    generalize Nat.ofDigitChars 10 (d :: digits) 0 = n at *
    rw [if_neg (List.cons_ne_nil d digits)]
    rw [List.length_cons] at hlt ⊢
    by_cases hlength : digits.length + 1 > 3
    · -- Four digits that do not begin with a zero are a thousand at least.
      have hthousand : 10 ^ 3 ≤ 10 ^ digits.length := Nat.pow_le_pow_right (by omega) (by omega)
      rw [if_pos hlength]
      split
      · rw [Option.bind_some, if_pos (by omega)]
      · rfl
    · have hbound : 10 ^ (digits.length + 1) ≤ 10 ^ 3 := Nat.pow_le_pow_right (by omega) (by omega)
      rw [if_neg hlength, if_pos (by omega), Option.bind_some, hmax]
      by_cases hn : n > 128
      · rw [if_pos hn, if_pos (Or.inr hn)]
      · rw [if_neg hn, if_neg (by omega)]

/-- The guards on the token between prefix and suffix are those on the number. -/
theorem cygPatternNumber_eq (pre suf token : Text) :
    cygPatternNumber id pre suf token =
      (stripPrefix? pre token).bind fun rest => (stripSuffix? suf rest).bind fun rest =>
        if rest = [] ∨ ¬ rest.all isAsciiDigit then none
        else (parseU32 rest).bind fun n =>
          if n = 0 ∨ n > maxNumericRepeat then none else some n := by
  unfold cygPatternNumber
  simp only [removeShortestPrefix_eq_self, removeShortestSuffix_eq_self]
  cases hpre : stripPrefix? pre token with
  | none => simp
  | some rest =>
    rw [if_neg (by simp), removeShortestPrefix_literal, hpre, Option.getD_some, Option.bind_some]
    cases hsuf : stripSuffix? suf rest with
    | none => simp
    | some digits =>
      have hrest : (if suf ≠ [] then removeShortestSuffix (literal suf) rest else rest) =
          digits := by
        rw [removeShortestSuffix_literal, hsuf, Option.getD_some, ite_eq_left_iff, not_not]
        rintro rfl
        simpa using stripSuffix?_eq_some.mp hsuf
      rw [if_neg (by simp), hrest, Option.bind_some]
      by_cases hne : digits = []
      · rw [if_pos hne, if_pos (Or.inl hne)]
      · rw [if_neg hne]
        by_cases hall : digits.all isAsciiDigit = true
        · have hplain : isMatch id [.anyString, .oneOf (fun c => !isAsciiDigit c), .anyString]
              digits = false := by
            rw [← Bool.not_eq_true, isMatch_containsOneOf]
            simpa [List.any_eq_true, List.all_eq_true] using hall
          have hguard : ¬ (digits = [] ∨ ¬ digits.all isAsciiDigit) := by simp [hne, hall]
          obtain ⟨zeros, digits, rfl, hzeros, hdigits⟩ := exists_zeros digits
          rw [List.all_append, Bool.and_eq_true] at hall
          rw [hplain, removeZeros hzeros hdigits, ← digits_in_range hzeros hdigits hall.2,
            if_neg Bool.false_ne_true, if_neg hguard]
        · have hother : isMatch id [.anyString, .oneOf (fun c => !isAsciiDigit c), .anyString]
              digits = true := by
            rw [isMatch_containsOneOf]
            simpa [List.any_eq_true, List.all_eq_true] using hall
          rw [hother, if_pos rfl, if_pos (Or.inr hall)]

/-- A key with its prefix and suffix around the placeholder matches as the program says. -/
theorem matchAbbrKey_eq_cygPatternNumber {key pre suf : Text} (token : Text) (hkey : '{' ∈ key)
    (hsplit : splitOnceNumberPlaceholder key = some (pre, suf)) :
    matchAbbrKey key token =
      (cygPatternNumber id pre suf token).map fun n => { number := some n } := by
  rw [matchAbbrKey, if_neg (not_not_intro hkey), hsplit, cygPatternNumber_eq, Option.map_bind]
  simp only [Option.bind_eq_bind]
  congr 1
  funext rest
  rw [Function.comp_apply, Option.map_bind]
  congr 1
  funext digits
  rw [Function.comp_apply]
  split
  · rfl
  · rw [Option.map_bind]
    congr 1
    funext n
    rw [Function.comp_apply]
    split <;> rfl

-- ════════════════════════════════════════════════════════════════════════
-- Globs
-- ════════════════════════════════════════════════════════════════════════

theorem anyString_not_mem_unquoted {key : Text} (h : '*' ∉ key) : Elem.anyString ∉ unquoted key := by
  intro hmem
  obtain ⟨c, hc, helem⟩ := List.mem_map.mp hmem
  unfold unquotedElem at helem
  split at helem
  · next hstar => exact h (hstar ▸ hc)
  · split at helem <;> simp at helem

/-- Without a `*` a key is a pattern of single characters. -/
theorem isMatch_unquoted {key token : Text} (h : '*' ∉ key) :
    isMatch id (unquoted key) token = true ↔ FixedMatches key token := by
  induction key generalizing token with
  | nil => cases token <;> simp [unquoted, FixedMatches]
  | cons p key ih =>
    rw [List.mem_cons, not_or] at h
    have helem : unquotedElem p ≠ .anyString := by
      rw [unquotedElem, if_neg (Ne.symm h.1)]
      split <;> simp
    have haccepts : ∀ c, (unquotedElem p).accepts id c = true ↔ p = '?' ∨ p = c := by
      intro c
      rw [unquotedElem, if_neg (Ne.symm h.1)]
      by_cases hmark : p = '?' <;> simp [hmark, Elem.accepts]
    rw [unquoted, List.map_cons, ← unquoted, isMatch_cons helem]
    cases token with
    | nil => simp [FixedMatches]
    | cons c token => simp [FixedMatches, haccepts, ih h.2]

/-- Around a `*` it is the two fixed parts with any text between them. -/
theorem isMatch_unquoted_star {head tail token : Text} (hhead : '*' ∉ head) (htail : '*' ∉ tail) :
    isMatch id (unquoted (head ++ '*' :: tail)) token = true ↔
      ∃ h w t, token = h ++ (w ++ t) ∧ FixedMatches head h ∧ FixedMatches tail t := by
  have hpattern : unquoted (head ++ '*' :: tail) = unquoted head ++ .anyString :: unquoted tail := by
    rw [unquoted, List.map_append, List.map_cons]
    rfl
  simp only [hpattern, isMatch_append, isMatch_anyString, isMatch_unquoted hhead,
    isMatch_unquoted htail]
  constructor
  · rintro ⟨h, _, rfl, hh, w, t, rfl, ht⟩
    exact ⟨h, w, t, rfl, hh, ht⟩
  · rintro ⟨h, w, t, rfl, hh, ht⟩
    exact ⟨h, w ++ t, rfl, hh, w, t, rfl, ht⟩

theorem removeShortestPrefix_unquoted {head h : Text} (hhead : '*' ∉ head)
    (hh : FixedMatches head h) (rest : Text) :
    removeShortestPrefix (unquoted head) (h ++ rest) = rest :=
  removeShortestPrefix_of_fixed (anyString_not_mem_unquoted hhead) ((isMatch_unquoted hhead).mpr hh)

theorem removeShortestSuffix_unquoted {tail t : Text} (htail : '*' ∉ tail)
    (ht : FixedMatches tail t) (rest : Text) :
    removeShortestSuffix (unquoted tail) (rest ++ t) = rest :=
  removeShortestSuffix_of_fixed (anyString_not_mem_unquoted htail) ((isMatch_unquoted htail).mpr ht)

/-- A key is matched as a pattern, and what is between the matches of its head and its tail is the
    capture. -/
theorem matchGlobKey_eq {key head tail : Text} (token : Text) (hcount : key.count '*' ≤ 1)
    (hkey : key = head ++ '*' :: tail ∨ ('*' ∉ key ∧ head = key ∧ tail = [])) :
    matchGlobKey key token =
      if isMatch id (unquoted key) token then
        some (removeShortestSuffix (unquoted tail) (removeShortestPrefix (unquoted head) token))
      else none := by
  rcases hkey with rfl | ⟨hstar, rfl, rfl⟩
  · rw [List.count_append, List.count_cons_self] at hcount
    have hhead : '*' ∉ head := List.count_eq_zero.mp (by omega)
    have htail : '*' ∉ tail := List.count_eq_zero.mp (by omega)
    split
    · next hmatch =>
      obtain ⟨h, w, t, rfl, hh, ht⟩ := (isMatch_unquoted_star hhead htail).mp hmatch
      rw [removeShortestPrefix_unquoted hhead hh, removeShortestSuffix_unquoted htail ht]
      exact (matchGlobKey_of_star hhead).mpr ⟨h, t, rfl, hh, ht⟩
    · next hmatch =>
      rw [Option.eq_none_iff_forall_ne_some]
      intro w hw
      obtain ⟨h, t, htoken, hh, ht⟩ := (matchGlobKey_of_star hhead).mp hw
      exact hmatch ((isMatch_unquoted_star hhead htail).mpr ⟨h, w, t, htoken, hh, ht⟩)
  · split
    · next hmatch =>
      have hfixed := (isMatch_unquoted hstar).mp hmatch
      have hfront : removeShortestPrefix (unquoted head) token = [] := by
        simpa using removeShortestPrefix_unquoted hstar hfixed []
      have hback : removeShortestSuffix (unquoted []) ([] : Text) = [] := rfl
      rw [hfront, hback]
      exact (matchGlobKey_of_not_mem hstar).mpr ⟨hfixed, rfl⟩
    · next hmatch =>
      rw [Option.eq_none_iff_forall_ne_some]
      intro w hw
      exact hmatch ((isMatch_unquoted hstar).mpr ((matchGlobKey_of_not_mem hstar).mp hw).1)

-- ════════════════════════════════════════════════════════════════════════
-- Cursor placeholders
-- ════════════════════════════════════════════════════════════════════════

/-- A place in a text, counted in characters and in bytes, or none. -/
def SamePlace (text : Text) : Option ℕ → Option ℕ → Prop
  | none, none => True
  | some chars, some bytes => ∃ before after, text = before ++ after ∧ before.length = chars ∧
      byteLen before = bytes
  | _, _ => False

/-- The text of a glob rule is what the program renders, before the cap. -/
theorem cygGlobText_eq (template captured : Text) :
    (cygGlobText id template captured).1 = (renderBase template { glob := some captured }).1 ∧
      SamePlace (cygGlobText id template captured).1 (cygGlobText id template captured).2
        (renderBase template { glob := some captured }).2 := by
  have hreplace : ∀ text, replaceMatches id (literal globCapturePlaceholder) captured text =
      substitute text { glob := some captured } := by
    intro text
    rw [replaceMatches_literal globCapturePlaceholder_ne_nil, substitute_glob]
  unfold cygGlobText
  simp only [hreplace, removeLongestSuffix_from, removeShortestPrefix_upTo]
  cases hsplit : splitOnce cursorPlaceholder template with
  | none =>
    rw [if_neg, renderBase_of_none hsplit]
    · exact ⟨rfl, trivial⟩
    · rw [isMatch_contains]
      exact splitOnce_eq_none.mp hsplit
  | some parts =>
    obtain ⟨left, right⟩ := parts
    rw [if_pos, renderBase_of_some hsplit]
    · exact ⟨rfl, _, _, rfl, rfl, rfl⟩
    · rw [isMatch_contains, eq_append_of_splitOnce hsplit]
      exact ⟨left, right, by simp⟩

-- ════════════════════════════════════════════════════════════════════════
-- Command position
-- ════════════════════════════════════════════════════════════════════════

theorem dropTrailingSpaces_eq (s : Text) : dropTrailingSpaces s = trimTrailingSpaces s := by
  induction s using List.reverseRecOn with
  | nil =>
    rw [dropTrailingSpaces]
    rfl
  | append_singleton s c ih =>
    have hlast : lastChar (s ++ [c]) = [c] := by simp [lastChar]
    have hinit : (s ++ [c]).take ((s ++ [c]).length - 1) = s := by simp
    rw [dropTrailingSpaces, hlast, hinit, ih, trimTrailingSpaces, trimTrailingSpaces,
      List.rdropWhile_concat]
    by_cases hc : c = ' ' <;> simp [hc]

section CommandPosition

variable {shell : GitBash}

/-- The option `nocasematch` makes no difference to operators. -/
theorem endsLikeOperator_eq (hshell : shell.Documented) (s : DispatcherState) (text : Text) :
    endsLikeOperator (shell.fold s) text = endsWithPipelineOperator text := by
  have hfold : ∀ op : Text, (∀ d ∈ op, d ∈ ['&', '|', ';']) →
      isMatch (shell.fold s) (.anyString :: literal op) text = decide (op <:+ text) := by
    intro op hop
    rw [Bool.eq_iff_iff, decide_eq_true_eq]
    refine isMatch_endsWith fun d hd c hdc => ?_
    unfold GitBash.fold at hdc
    split at hdc
    · exact hshell.operators_have_no_case d (hop d hd) c hdc
    · exact hdc
  rw [endsLikeOperator, endsWithPipelineOperator, hfold _ (by decide), hfold _ (by decide),
    hfold _ (by decide), hfold _ (by decide)]

/-- The word `sudo` at the end, and what is before it. -/
theorem stripTrailingSudo_eq (pre : Text) :
    stripTrailingSudo pre =
      if removeLongestPrefix [.anyString, .char ' '] pre = "sudo".toList then
        some (if removeLongestPrefix [.anyString, .char ' '] pre = pre then []
          else pre.take (pre.length - (removeLongestPrefix [.anyString, .char ' '] pre).length))
      else none := by
  rw [removeLongestPrefix_upTo, stripTrailingSudo]
  cases hsplit : splitLast ' ' pre with
  | none => simp
  | some parts =>
    obtain ⟨before, word⟩ := parts
    obtain ⟨rfl, -⟩ := splitLast_eq_some.mp hsplit
    have hne : word ≠ before ++ ' ' :: word := by
      intro h
      have hlength := congrArg List.length h
      simp only [List.length_append, List.length_cons] at hlength
      omega
    have hbefore : (before ++ ' ' :: word).take ((before ++ ' ' :: word).length - word.length) =
        before ++ [' '] := by
      rw [List.append_cons, List.length_append, Nat.add_sub_cancel, List.take_left]
    rw [Option.map_some, Option.getD_some, if_neg hne, hbefore]

theorem cygIsCommandPosition_eq (hshell : shell.Documented) (pre : Text) (s : DispatcherState) :
    cygIsCommandPosition shell pre s = { s with cmdPos := isCommandPosition pre } := by
  unfold cygIsCommandPosition isCommandPosition
  simp only [dropTrailingSpaces_eq, endsLikeOperator_eq hshell, stripTrailingSudo_eq]
  generalize trimTrailingSpaces pre = trimmed
  by_cases hnil : trimmed = []
  · simp only [if_pos hnil]
  · by_cases hop : endsWithPipelineOperator trimmed = true
    · simp only [if_neg hnil, if_pos hop]
    · simp only [if_neg hnil, if_neg hop]
      by_cases hsudo : removeLongestPrefix [.anyString, .char ' '] trimmed = "sudo".toList
      · simp only [if_pos hsudo]
        generalize trimTrailingSpaces _ = before
        by_cases hbefore : before = []
        · simp only [if_pos hbefore]
        · simp only [if_neg hbefore]
          cases endsWithPipelineOperator before <;> rfl
      · simp only [if_neg hsudo]

end CommandPosition

end Runex
