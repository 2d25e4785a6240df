import Runex.Lib.ShellLiteral
import Runex.Lib.Toml

/-!
# The notation of TOML

A reader of TOML text in which the values are basic strings and arrays. It goes through the text
character by character, by the rules for white space, comments, table headers, keys, the escapes of
basic strings and arrays over several lines, and refuses every other value. What it reads is all
there is in the text: headers, entries and comments, in their order.

## Main definitions

- `Toml.Notation.basicString` — the reader of a basic string
- `Toml.Notation.expressions` — the reader of a text

## Main results

- `Toml.Notation.scan_quoted` — quoted text is one basic string
- `Toml.Notation.expressions_block` — a block of lines is a header and the entries of the lines
-/

namespace Toml

namespace Notation

open Search ShellLiteral

-- ════════════════════════════════════════════════════════════════════════
-- Basic strings
-- ════════════════════════════════════════════════════════════════════════

inductive StringMode where
  | start
  /-- Right after the opening quote. -/
  | opened
  | inside
  | escaped
  /-- In an escape that still has `left` hexadecimal digits. -/
  | unicode (left code : ℕ)
  /-- After two quotes: a third one would open a string over several lines. -/
  | empty
  | closed
  deriving DecidableEq

/-- The escapes of one character. -/
def simpleEscape (c : Char) : Option Char :=
  match c with
  | 'b' => some '\x08'
  | 't' => some '\t'
  | 'n' => some '\n'
  | 'f' => some '\x0c'
  | 'r' => some '\r'
  | '"' => some '"'
  | '\\' => some '\\'
  | _ => none

/-- A character of a string that is not a quote. -/
def insideStep (c : Char) : Verdict StringMode Char :=
  if c = '\\' then .move .escaped []
  else if isControl c then .fail
  else .move .inside [c]

/-- One more digit of the code of a character. -/
def unicodeStep (left code : ℕ) (c : Char) : Verdict StringMode Char :=
  match hexDigit? c with
  | none => .fail
  | some digit =>
    let code := 16 * code + digit
    if left > 1 then .move (.unicode (left - 1) code) []
    else if code.isValidChar then .move .inside [Char.ofNat code]
    else .fail

def stringStep : StringMode → Char → Verdict StringMode Char
  | .start, c => if c = '"' then .move .opened [] else .fail
  | .opened, c => if c = '"' then .move .empty [] else insideStep c
  | .inside, c => if c = '"' then .move .closed [] else insideStep c
  | .escaped, 'u' => .move (.unicode 4 0) []
  | .escaped, 'U' => .move (.unicode 8 0) []
  | .escaped, c =>
    match simpleEscape c with
    | some d => .move .inside [d]
    | none => .fail
  | .unicode left code, c => unicodeStep left code c
  | .empty, c => if c = '"' then .fail else .stop
  | .closed, _ => .stop

/-- A basic string with its quotes. -/
def basicString : Scanner StringMode Char Char := ⟨stringStep, (· ∈ [.empty, .closed])⟩

-- ════════════════════════════════════════════════════════════════════════
-- White space and comments
-- ════════════════════════════════════════════════════════════════════════

def isBlank (c : Char) : Bool := c = ' ' ∨ c = '\t'

def skipBlanks (s : Text) : Text := s.dropWhile isBlank

def isLineBreak (c : Char) : Bool := c = '\n' ∨ c = '\r'

/-- The text of a comment after its `#`, and the text after it. -/
def readComment (s : Text) : Option (Text × Text) :=
  let text := s.takeWhile fun c => !isLineBreak c
  if text.all fun c => !isControl c then some (text, s.dropWhile fun c => !isLineBreak c) else none

def readNewline : Text → Option Text
  | '\n' :: s => some s
  | '\r' :: '\n' :: s => some s
  | _ => none

/-- White space, line breaks and comments: the comments, and the text after them. -/
def readGap : ℕ → Text → Option (List Text × Text)
  | 0, _ => none
  | fuel + 1, s =>
    match skipBlanks s with
    | '#' :: s => do
      let (text, s) ← readComment s
      let s ← readNewline s
      let (texts, s) ← readGap fuel s
      some (text :: texts, s)
    | s =>
      match readNewline s with
      | some s => readGap fuel s
      | none => some ([], s)

-- ════════════════════════════════════════════════════════════════════════
-- Values and keys
-- ════════════════════════════════════════════════════════════════════════

mutual

/-- A value, the comments inside it, and the text after it. -/
def readValue : ℕ → Text → Option (Item × List Text × Text)
  | 0, _ => none
  | fuel + 1, s =>
    match s with
    | '"' :: _ => (basicString.scan .start s).map fun (value, s) => (.string value, [], s)
    | '[' :: s => (readItems fuel s).map fun (items, comments, s) => (.array items, comments, s)
    | _ => none

/-- The values of an array up to its closing bracket. -/
def readItems : ℕ → Text → Option (List Item × List Text × Text)
  | 0, _ => none
  | fuel + 1, s => do
    let (before, s) ← readGap (s.length + 1) s
    match s with
    | ']' :: s => some ([], before, s)
    | s => do
      let (item, inside, s) ← readValue fuel s
      let (after, s) ← readGap (s.length + 1) s
      match s with
      | ',' :: s => do
        let (items, comments, s) ← readItems fuel s
        some (item :: items, before ++ inside ++ after ++ comments, s)
      | ']' :: s => some ([item], before ++ inside ++ after, s)
      | _ => none

end

/-- A bare key, or one in quotes. -/
def readSimpleKey (s : Text) : Option (Text × Text) :=
  if s.head? = some '"' then basicString.scan .start s
  else if s.takeWhile isBare = [] then none
  else some (s.takeWhile isBare, s.dropWhile isBare)

/-- Keys with dots between them, and the text after them and after the white space there. -/
def readKey : ℕ → Text → Option (List Text × Text)
  | 0, _ => none
  | fuel + 1, s => do
    let (name, s) ← readSimpleKey s
    match skipBlanks s with
    | '.' :: s => do
      let (names, s) ← readKey fuel (skipBlanks s)
      some (name :: names, s)
    | s => some ([name], s)

-- ════════════════════════════════════════════════════════════════════════
-- Lines
-- ════════════════════════════════════════════════════════════════════════

/-- What stands in a text. -/
inductive Expression where
  /-- `[key]`. -/
  | table (key : List Text)
  /-- `[[key]]`. -/
  | arrayOfTables (key : List Text)
  /-- `key = value`. -/
  | entry (key : List Text) (value : Item)
  | comment (text : Text)

/-- A header or an entry. -/
def readStatement (s : Text) : Option (List Expression × Text) :=
  match s with
  | '[' :: '[' :: s => do
    let (key, s) ← readKey (s.length + 1) (skipBlanks s)
    let s ← stripPrefix? "]]".toList s
    some ([.arrayOfTables key], s)
  | '[' :: s => do
    let (key, s) ← readKey (s.length + 1) (skipBlanks s)
    let s ← stripPrefix? "]".toList s
    some ([.table key], s)
  | s => do
    let (key, s) ← readKey (s.length + 1) s
    let s ← stripPrefix? "=".toList s
    let (value, comments, s) ← readValue (s.length + 1) (skipBlanks s)
    some (comments.map .comment ++ [.entry key value], s)

/-- Whether a line starts with a header or an entry: not with a comment, and it is not empty. -/
def startsStatement (s : Text) : Bool :=
  match s with
  | [] => false
  | c :: _ => c ≠ '#' ∧ !isLineBreak c

/-- The end of a line, after a comment if there is one. -/
def readLineEnd (s : Text) : Option (List Expression × Text) := do
  let (comments, s) ← match s with
    | '#' :: s => (readComment s).map fun (text, s) => ([.comment text], s)
    | s => some ([], s)
  if s = [] then some (comments, []) else (readNewline s).map fun s => (comments, s)

/-- A line, which a value may continue over further ones. -/
def readLine (s : Text) : Option (List Expression × Text) := do
  let s := skipBlanks s
  let (found, s) ← if startsStatement s then readStatement s else some ([], s)
  let (comments, s) ← readLineEnd (skipBlanks s)
  some (found ++ comments, s)

def readText : ℕ → Text → Option (List Expression)
  | 0, _ => none
  | fuel + 1, s => do
    let (found, s) ← readLine s
    if s = [] then some found
    else do
      let rest ← readText fuel s
      some (found ++ rest)

/-- What stands in a text, where it has this notation. -/
def expressions (text : Text) : Option (List Expression) := readText (text.length + 1) text

-- ════════════════════════════════════════════════════════════════════════
-- Quoted values
-- ════════════════════════════════════════════════════════════════════════

/-- A character of a quoted text is read, wherever in the string it stands. -/
theorem drive_escape {c : Char} (hc : isControl c = false) {mode : StringMode}
    (hmode : mode = .opened ∨ mode = .inside) :
    basicString.drive mode (escape c) = some (.inside, [c]) := by
  by_cases hescape : c = '"' ∨ c = '\\'
  · have hslash : basicString.step mode '\\' = .move .escaped [] := by
      rcases hmode with rfl | rfl
      · decide
      · decide
    rw [escape, if_pos hescape, Scanner.drive_cons hslash]
    rcases hescape with rfl | rfl
    · rfl
    · rfl
  · rw [not_or] at hescape
    have hstep : basicString.step mode c = .move .inside [c] := by
      rcases hmode with rfl | rfl
      · simp [basicString, stringStep, insideStep, hescape, hc]
      · simp [basicString, stringStep, insideStep, hescape, hc]
    rw [escape, if_neg (not_or.mpr hescape), Scanner.drive_cons hstep]
    rfl

/-- A quoted text is one string. Nothing of what follows belongs to it, if that is not a quote. -/
theorem scan_quoted {s rest : Text} (h : ∀ c ∈ s, isControl c = false)
    (hrest : rest.head? ≠ some '"') :
    basicString.scan .start (quoted s ++ rest) = some (s, rest) := by
  have hopen : basicString.drive .start ['"'] = some (.opened, []) := by decide
  have hend : ∀ mode, mode = .empty ∨ mode = .closed →
      basicString.scan mode rest = some ([], rest) := by
    intro mode hmode
    cases rest with
    | nil => rcases hmode with rfl | rfl <;> rfl
    | cons c rest =>
      have hquote : c ≠ '"' := fun heq => hrest (by rw [heq]; rfl)
      refine Scanner.scan_cons_stop ?_ rest
      rcases hmode with rfl | rfl
      · simp [basicString, stringStep, hquote]
      · rfl
  cases s with
  | nil =>
    have hquotes : basicString.drive .start ['"', '"'] = some (.empty, []) := by decide
    exact Scanner.scan_of_drive hquotes (hend .empty (Or.inl rfl))
  | cons c s =>
    rw [List.forall_mem_cons] at h
    have hfirst := drive_escape h.1 (Or.inl rfl)
    have hothers := Scanner.drive_flatMap fun d hd => drive_escape (h.2 d hd) (Or.inr rfl)
    have hclose : basicString.drive .inside ['"'] = some (.closed, []) := by decide
    have hall := Scanner.drive_append hopen
      (Scanner.drive_append hfirst (Scanner.drive_append hothers hclose))
    have hscan := Scanner.scan_of_drive hall (hend .closed (Or.inr rfl))
    simpa [quoted] using hscan

/-- An escape of a code, and what would open a string over several lines. -/
example : basicString.scan .start "\"\\u0041\\t\" #".toList = some ("A\t".toList, " #".toList) ∧
    basicString.scan .start "\"\"\"".toList = none := by
  decide

theorem readValue_quoted {s rest : Text} (h : ∀ c ∈ s, isControl c = false)
    (hrest : rest.head? ≠ some '"') (fuel : ℕ) :
    readValue (fuel + 1) (quoted s ++ rest) = some (.string s, [], rest) := by
  have hscan := scan_quoted h hrest
  rw [quoted, List.cons_append] at hscan ⊢
  rw [readValue, hscan]
  rfl

/-- No gap before a character of a value or a delimiter, and a blank is one. -/
theorem readGap_stop {pre s : Text} {c : Char} (hpre : pre = [] ∨ pre = [' '])
    (hc : c ∉ [' ', '\t', '#', '\n', '\r']) (fuel : ℕ) :
    readGap (fuel + 1) (pre ++ c :: s) = some ([], c :: s) := by
  simp only [List.mem_cons, List.not_mem_nil, or_false, not_or] at hc
  obtain ⟨hspace, htab, hhash, hnewline, hreturn⟩ := hc
  have hblanks : skipBlanks (pre ++ c :: s) = c :: s := by
    rcases hpre with rfl | rfl
    · simp [skipBlanks, isBlank, hspace, htab]
    · simp [skipBlanks, isBlank, hspace, htab]
  have hbreak : readNewline (c :: s) = none := by
    rw [readNewline]
    · intro _ heq
      exact hnewline (List.cons.inj heq).1
    · intro _ heq
      exact hreturn (List.cons.inj heq).1
  rw [readGap, hblanks]
  split
  · next heq => exact absurd (List.cons.inj heq).1 hhash
  · rw [hbreak]

/-- The first value of an array, with the comma or the bracket after it. -/
theorem readItems_cons {s tail pre : Text} {c : Char} (h : ∀ c ∈ s, isControl c = false)
    (hpre : pre = [] ∨ pre = [' ']) (hc : c = ',' ∨ c = ']') (fuel : ℕ) :
    readItems (fuel + 2) (pre ++ (quoted s ++ c :: tail)) =
      if c = ']' then some ([.string s], [], tail)
      else (readItems (fuel + 1) tail).map fun (items, comments, rest) =>
        (.string s :: items, comments, rest) := by
  have hquote : (c :: tail).head? ≠ some '"' := by
    rcases hc with rfl | rfl
    · simp
    · simp
  have hbefore : readGap ((pre ++ (quoted s ++ c :: tail)).length + 1)
      (pre ++ (quoted s ++ c :: tail)) = some ([], quoted s ++ c :: tail) := by
    rw [quoted, List.cons_append]
    exact readGap_stop hpre (by decide) _
  have hafter : readGap ((c :: tail).length + 1) (c :: tail) = some ([], c :: tail) := by
    have hstop : c ∉ [' ', '\t', '#', '\n', '\r'] := by
      rcases hc with rfl | rfl
      · decide
      · decide
    exact readGap_stop (Or.inl rfl) hstop _
  have hvalue := readValue_quoted h hquote fuel
  have hopen : ∃ t, quoted s ++ c :: tail = '"' :: t := ⟨_, rfl⟩
  obtain ⟨t, ht⟩ := hopen
  rw [readItems, hbefore]
  simp only [Option.bind_eq_bind, Option.bind_some]
  rw [ht] at hvalue ⊢
  split
  · next hclose => exact absurd (List.cons.inj hclose).1 (by decide)
  · simp only [hvalue, Option.bind_some, hafter]
    rcases hc with rfl | rfl
    · rw [if_neg (by decide), Option.map_eq_bind]
      rfl
    · rfl

/-- The strings of an array. -/
theorem readItems_quoted {values : List Text} (h : ∀ s ∈ values, ∀ c ∈ s, isControl c = false)
    {pre : Text} (hpre : pre = [] ∨ pre = [' ']) (rest : Text) {fuel : ℕ}
    (hfuel : values.length < fuel) :
    readItems fuel (pre ++ (", ".toList.intercalate (values.map quoted) ++ ']' :: rest)) =
      some (values.map .string, [], rest) := by
  induction values generalizing fuel pre with
  | nil =>
    obtain ⟨fuel, rfl⟩ := Nat.exists_eq_add_one_of_ne_zero (Nat.ne_zero_of_lt hfuel)
    have hgap : readGap ((pre ++ ']' :: rest).length + 1) (pre ++ ']' :: rest) =
        some ([], ']' :: rest) := readGap_stop hpre (by decide) _
    rw [List.map_nil, List.intercalate_nil, List.nil_append, readItems, hgap]
    rfl
  | cons s values ih =>
    rw [List.length_cons] at hfuel
    obtain ⟨fuel, rfl⟩ : ∃ k, fuel = k + 2 := ⟨fuel - 2, by omega⟩
    rw [List.forall_mem_cons] at h
    cases values with
    | nil =>
      rw [List.map_singleton, List.intercalate_singleton, readItems_cons h.1 hpre (Or.inr rfl),
        if_pos rfl]
      rfl
    | cons t values =>
      have hrest := ih h.2 (Or.inr rfl) (Nat.lt_of_succ_lt_succ hfuel)
      have htext : pre ++ (", ".toList.intercalate ((s :: t :: values).map quoted) ++ ']' :: rest) =
          pre ++ (quoted s ++ ',' :: ([' '] ++
            (", ".toList.intercalate ((t :: values).map quoted) ++ ']' :: rest))) := by
        simp [List.intercalate_cons_cons]
      rw [htext, readItems_cons h.1 hpre (Or.inl rfl), if_neg (by decide), hrest]
      rfl

theorem readValue_quotedArray {values : List Text}
    (h : ∀ s ∈ values, ∀ c ∈ s, isControl c = false) (rest : Text) {fuel : ℕ}
    (hfuel : values.length < fuel) :
    readValue (fuel + 1) (quotedArray values ++ rest) =
      some (.array (values.map .string), [], rest) := by
  have hitems := readItems_quoted h (Or.inl rfl) rest hfuel
  rw [quotedArray, List.cons_append, List.append_assoc, List.singleton_append, readValue]
  rw [List.nil_append] at hitems
  rw [hitems]
  rfl

-- ════════════════════════════════════════════════════════════════════════
-- Lines of a block
-- ════════════════════════════════════════════════════════════════════════

section Lines

variable {name key value rest : Text} {item : Item}

/-- A line of text reads as some expressions, whatever lines follow it. -/
def ReadsLine (line : Text) (found : List Expression) : Prop :=
  ∀ rest, readLine (line ++ '\n' :: rest) = some (found, rest)

theorem readsLine_empty : ReadsLine [] [] := fun _ => rfl

theorem skipBlanks_cons {c : Char} (hc : isBlank c = false) (s : Text) :
    skipBlanks (c :: s) = c :: s := by
  rw [skipBlanks, List.dropWhile_cons_of_neg (by simp [hc])]

/-- What a bare key does not start with. -/
theorem exists_head_of_isBareKey (hkey : IsBareKey key) :
    ∃ c t, key = c :: t ∧ isBlank c = false ∧ c ≠ '#' ∧ c ≠ '[' ∧ c ≠ '"' ∧
      isLineBreak c = false := by
  obtain ⟨c, t, rfl⟩ := List.exists_cons_of_ne_nil hkey.1
  have hbare := hkey.2 c List.mem_cons_self
  have hne : ∀ d, isBare d = false → c ≠ d := fun d hd heq => by simp [heq, hd] at hbare
  have hspace := hne ' ' (by decide)
  have htab := hne '\t' (by decide)
  have hnewline := hne '\n' (by decide)
  have hreturn := hne '\r' (by decide)
  exact ⟨c, t, rfl, by simp [isBlank, hspace, htab], hne '#' (by decide), hne '[' (by decide),
    hne '"' (by decide), by simp [isLineBreak, hnewline, hreturn]⟩

/-- A bare key ends where it is followed by something else than a dot. -/
theorem readKey_bare (hkey : IsBareKey key) {c d : Char} {next : Text} (rest : Text) (fuel : ℕ)
    (hc : isBare c = false) (hnext : skipBlanks (c :: rest) = d :: next) (hd : d ≠ '.') :
    readKey (fuel + 1) (key ++ c :: rest) = some ([key], d :: next) := by
  obtain ⟨k, t, hhead, -, -, -, hquote, -⟩ := exists_head_of_isBareKey hkey
  have htake : (key ++ c :: rest).takeWhile isBare = key := by
    rw [List.takeWhile_append_of_pos hkey.2, List.takeWhile_cons_of_neg (by simp [hc]),
      List.append_nil]
  have hdrop : (key ++ c :: rest).dropWhile isBare = c :: rest := by
    rw [List.dropWhile_append_of_pos hkey.2, List.dropWhile_cons_of_neg (by simp [hc])]
  have hsimple : readSimpleKey (key ++ c :: rest) = some (key, c :: rest) := by
    rw [readSimpleKey, htake, hdrop, if_neg, if_neg hkey.1]
    simp [hhead, hquote]
  rw [readKey, hsimple]
  simp only [Option.bind_eq_bind, Option.bind_some, hnext]
  split
  · next heq => exact absurd (List.cons.inj heq).1 hd
  · rfl

/-- A statement up to the end of its line. -/
theorem readLine_of_readStatement {c : Char} {s : Text} {found : List Expression}
    (hblank : isBlank c = false) (hhash : c ≠ '#') (hbreak : isLineBreak c = false)
    (h : readStatement (c :: s) = some (found, '\n' :: rest)) :
    readLine (c :: s) = some (found, rest) := by
  have hstarts : startsStatement (c :: s) = true := by simp [startsStatement, hhash, hbreak]
  have hend : skipBlanks ('\n' :: rest) = '\n' :: rest := skipBlanks_cons (by decide) rest
  simp only [readLine, skipBlanks_cons hblank, hstarts, if_true, h, Option.bind_eq_bind,
    Option.bind_some, hend]
  simp [readLineEnd, readNewline]

theorem readsLine_header (hname : IsBareKey name) :
    ReadsLine ("[[".toList ++ (name ++ "]]".toList)) [.arrayOfTables [name]] := by
  intro rest
  obtain ⟨c, t, hhead, hblank, -⟩ := exists_head_of_isBareKey hname
  have hskip : skipBlanks (name ++ ']' :: ']' :: '\n' :: rest) =
      name ++ ']' :: ']' :: '\n' :: rest := by
    rw [hhead, List.cons_append, skipBlanks_cons hblank]
  have hkey := fun fuel => readKey_bare hname (']' :: '\n' :: rest) fuel
    (by decide : isBare ']' = false) (skipBlanks_cons (by decide) _) (by decide)
  have htext : "[[".toList ++ (name ++ "]]".toList) ++ '\n' :: rest =
      '[' :: '[' :: (name ++ ']' :: ']' :: '\n' :: rest) := by
    simp
  rw [htext]
  refine readLine_of_readStatement (by decide) (by decide) (by decide) ?_
  simp only [readStatement, hskip, hkey, Option.bind_eq_bind, Option.bind_some]
  rfl

/-- An entry whose value ends with its line. -/
theorem readsLine_entry (hkey : IsBareKey key)
    (hvalue : ∀ rest, readValue ((' ' :: (value ++ '\n' :: rest)).length + 1)
      (value ++ '\n' :: rest) = some (item, [], '\n' :: rest))
    (hblank : ∀ rest, skipBlanks (value ++ '\n' :: rest) = value ++ '\n' :: rest) :
    ReadsLine (line key value) [.entry [key] item] := by
  intro rest
  obtain ⟨c, t, hhead, hc, hhash, hbracket, -, hbreak⟩ := exists_head_of_isBareKey hkey
  have hname := fun fuel => readKey_bare (d := '=') hkey ('=' :: ' ' :: (value ++ '\n' :: rest)) fuel
    (by decide : isBare ' ' = false) rfl (by decide)
  have htext : line key value ++ '\n' :: rest =
      key ++ ' ' :: '=' :: ' ' :: (value ++ '\n' :: rest) := by
    simp [line]
  have hstrip : ∀ s, stripPrefix? "=".toList ('=' :: s) = some s := fun s => rfl
  have hskip : skipBlanks (' ' :: (value ++ '\n' :: rest)) = value ++ '\n' :: rest := hblank rest
  have hstatement : readStatement (key ++ ' ' :: '=' :: ' ' :: (value ++ '\n' :: rest)) =
      some ([.entry [key] item], '\n' :: rest) := by
    rw [readStatement]
    · simp only [hname, Option.bind_eq_bind, Option.bind_some, hstrip, hskip, hvalue]
      rfl
    · intro s heq
      rw [hhead] at heq
      exact hbracket (List.cons.inj heq).1
    · intro s heq
      rw [hhead] at heq
      exact hbracket (List.cons.inj heq).1
  rw [htext]
  rw [hhead] at hstatement ⊢
  exact readLine_of_readStatement hc hhash hbreak hstatement

theorem readsLine_quoted (hkey : IsBareKey key) {s : Text} (h : ∀ c ∈ s, isControl c = false) :
    ReadsLine (line key (quoted s)) [.entry [key] (.string s)] := by
  refine readsLine_entry hkey (fun rest => ?_) fun rest => skipBlanks_cons (by decide) _
  exact readValue_quoted h (by simp) _

theorem readsLine_quotedArray (hkey : IsBareKey key) {values : List Text}
    (h : ∀ s ∈ values, ∀ c ∈ s, isControl c = false) :
    ReadsLine (line key (quotedArray values)) [.entry [key] (.array (values.map .string))] := by
  refine readsLine_entry hkey (fun rest => ?_) fun rest => skipBlanks_cons (by decide) _
  refine readValue_quotedArray h _ ?_
  have hlength : values.length ≤ (", ".toList.intercalate (values.map quoted)).length :=
    length_le_length_intercalate _ fun s _ => by simp [quoted]
  simp only [quotedArray, List.length_cons, List.length_append]
  omega

/-- Lines are read one after the other. -/
theorem readText_lines {lines : List Text} {found : List (List Expression)}
    (h : List.Forall₂ ReadsLine lines found) {fuel : ℕ} (hfuel : lines.length < fuel) :
    readText fuel (lines.flatMap (· ++ ['\n'])) = some found.flatten := by
  induction h generalizing fuel with
  | nil =>
    obtain ⟨fuel, rfl⟩ := Nat.exists_eq_add_one_of_ne_zero (Nat.ne_zero_of_lt hfuel)
    rfl
  | @cons line first lines found hline hlines ih =>
    obtain ⟨fuel, rfl⟩ := Nat.exists_eq_add_one_of_ne_zero (Nat.ne_zero_of_lt hfuel)
    have hread := hline (lines.flatMap (· ++ ['\n']))
    rw [List.flatMap_cons, List.append_assoc, List.singleton_append, readText, hread]
    simp only [Option.bind_eq_bind, Option.bind_some, List.flatten_cons]
    cases hlines with
    | nil => simp
    | cons _ _ =>
      rw [ih (Nat.lt_of_succ_lt_succ hfuel), if_neg (by simp)]
      rfl

/-- A block of lines is a header and what the lines read as. -/
theorem expressions_block (hname : IsBareKey name) {lines : List Text}
    {found : List (List Expression)} (h : List.Forall₂ ReadsLine lines found) :
    expressions (block name lines) = some (.arrayOfTables [name] :: found.flatten) := by
  have htext : block name lines =
      ([] :: ("[[".toList ++ (name ++ "]]".toList)) :: lines).flatMap (· ++ ['\n']) := by
    simp [block]
  have hlines := List.Forall₂.cons readsLine_empty (List.Forall₂.cons (readsLine_header hname) h)
  rw [expressions, htext, readText_lines hlines]
  · rfl
  · exact Nat.lt_succ_of_le (length_le_length_flatMap fun line _ => by simp)

end Lines

end Notation

end Toml
