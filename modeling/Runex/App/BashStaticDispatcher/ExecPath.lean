import Runex.App.BashStaticDispatcher.Scan
import Runex.App.Hook.EvalText
import Runex.Domain.Expand.Blankness
import Runex.Domain.Hook.Decision

/-!
# The dispatcher and the exec path

Every other Bash calls the program for a key press and evaluates what it prints. In Git Bash the
handler of the baked block leaves the same buffer and caret, for the configuration without its regex
rules.

## Main definitions

- `SameEdit` — the variables hold the buffer and caret of an action

## Main results

- `cygExpand_sameEdit` — the handler makes the edit that `hook` decides
- `cyg_expand_refines_hook` — it leaves what the exec path decodes to
-/

namespace Runex

open Search ShellPattern
open Text (byteLen)

variable {engine : RegexLite} {shell : GitBash} {config : Config} {tables : DispatcherTables}
  {pre token right : Text} {s : DispatcherState}

theorem nul_not_mem_of_clean {text : Text} (h : Clean text) : '\x00' ∉ text := fun hmem =>
  absurd (h _ hmem).1 (by decide)

/-- A capture is a part of the token. -/
theorem mem_token_of_matchGlobKey {key captured : Text} {c : Char}
    (h : matchGlobKey key token = some captured) (hc : c ∈ captured) : c ∈ token := by
  by_cases hstar : '*' ∈ key
  · obtain ⟨head, tail, rfl, hhead⟩ := List.eq_append_cons_of_mem hstar
    obtain ⟨_, _, rfl, -, -⟩ := (matchGlobKey_of_star hhead).mp h
    simp [hc]
  · obtain ⟨-, rfl⟩ := (matchGlobKey_of_not_mem hstar).mp h
    simp at hc

/-- Substitution for an accepted rule that is not a regex adds no NUL. -/
theorem nul_not_mem_substitute {rule : Abbr} {bindings : Bindings}
    (haccepted : RuleAccepted engine rule) (hkind : rule.matchKind ≠ some .regex)
    (htoken : '\x00' ∉ token) (hmatch : matchRule engine rule token = some bindings) {text : Text}
    (htext : '\x00' ∉ text) : '\x00' ∉ substitute text bindings := by
  have hplain : bindings.glob = none → bindings.regex = none → substitute text bindings = text :=
    fun hglob hregex =>
      substitute_without_captures (fun _ => resolveCapture_without_captures hglob hregex) text
  cases haccepted.keyShape with
  | exact hnone hkey _ =>
    rw [matchRule, hnone] at hmatch
    simp only [matchAbbrKey, if_pos hkey, Option.ite_none_right_eq_some, Option.some.injEq] at hmatch
    obtain ⟨-, rfl⟩ := hmatch
    rwa [hplain rfl rfl]
  | number pre suf unit hnone hkey hsplit hpre hsuf _ =>
    rw [matchRule, hnone] at hmatch
    obtain ⟨n, rfl, -, -⟩ := matchAbbrKey_number hkey
      (splitOnceNumberPlaceholder_eq_some.mpr ⟨hsplit, hpre, hsuf⟩) hmatch
    rwa [hplain rfl rfl]
  | glob hglob _ _ =>
    rw [matchRule, hglob] at hmatch
    obtain ⟨captured, hcaptured, rfl⟩ := Option.map_eq_some_iff.mp hmatch
    rw [substitute_glob]
    intro hmem
    rcases mem_of_mem_replaceAll hmem with hmem | hmem
    · exact htoken (mem_token_of_matchGlobKey hcaptured hmem)
    · exact htext hmem
  | regex hregex => exact absurd hregex hkind

/-- What an accepted rule that is not a regex inserts has no NUL. -/
theorem nul_not_mem_of_expand (haccepted : Accepted engine config) (htoken : '\x00' ∉ token)
    {commandExists : Text → Bool} {text : Text} {cursor : Option ℕ}
    (h : expand engine config.withoutRegex token .bash commandExists = .expanded text cursor) :
    '\x00' ∉ text := by
  obtain ⟨rule, hmem, bindings, hmatch, htry⟩ := expand_eq_expanded h
  obtain ⟨hmem, hkind⟩ := List.mem_filter.mp hmem
  have hrule := haccepted.rule hmem
  have hkind : rule.matchKind ≠ some .regex := by simpa using hkind
  obtain ⟨template, text, cursor, htemplate, hrender, -, hresult⟩ := tryExpandRule_eq_some htry
  obtain ⟨rfl, -⟩ := ExpandResult.expanded.inj hresult
  obtain ⟨base, hbase, hrendered⟩ := eq_renderBase_of_renderWithCursor hrender
  have hclean := nul_not_mem_of_clean (hrule.clean_template htemplate)
  have hbaseClean : '\x00' ∉ base := by
    have hrepeats := renderNumber_eq_some.mp hbase
    unfold RepeatsTo at hrepeats
    split at hrepeats
    · rwa [hrepeats]
    · obtain ⟨unit, hunit, -, rfl, -⟩ := hrepeats
      intro hmem
      rcases mem_of_mem_replaceAll hmem with hmem | hmem
      · exact nul_not_mem_of_clean (hrule.clean_unit hunit) (mem_replicate_flatten hmem)
      · exact hclean hmem
  have htext : text = (renderBase base bindings).1 := congrArg Prod.fst hrendered
  rw [htext]
  exact not_mem_renderBase
    (fun _ hpart => nul_not_mem_substitute hrule hkind htoken hmatch hpart) hbaseClean

/-- The variables hold the buffer and caret of an action. -/
structure SameEdit (action : HookAction) (s : DispatcherState) : Prop where
  line_eq : s.readlineLine = action.line
  caret : SamePlace action.line (some s.readlinePoint) (some action.cursor)

/-- The plain space is the same edit. -/
theorem cygInsertSpace_sameEdit {left : Text} (right : Text) (hpoint : s.readlinePoint = left.length) :
    SameEdit (.insertSpace (left ++ ' ' :: right) (byteLen left + 1)) (cygInsertSpace left right s) where
  line_eq := rfl
  caret := by
    have hspace : Char.utf8Size ' ' = 1 := rfl
    exact ⟨left ++ [' '], right, by simp [HookAction.line], by simp [cygInsertSpace, hpoint],
      by simp [HookAction.cursor, hspace]⟩

/-- The expansion is the same edit. -/
theorem cygReplaceToken_sameEdit {cursor : Option ℕ}
    (hplace : SamePlace s.out s.cursorOff cursor) :
    SameEdit (editFor pre token right (.expanded s.out cursor)) (cygReplaceToken pre right s) := by
  have hspace : Char.utf8Size ' ' = 1 := rfl
  unfold cygReplaceToken
  cases hoff : s.cursorOff with
  | none =>
    rw [hoff] at hplace
    cases cursor with
    | some _ => exact hplace.elim
    | none =>
      constructor
      · rfl
      · exact ⟨pre ++ s.out ++ [' '], right, by simp [editFor, HookAction.line],
          by simp [Nat.add_assoc], by simp [editFor, HookAction.cursor, hspace, Nat.add_assoc]⟩
  | some chars =>
    rw [hoff] at hplace
    cases cursor with
    | none => exact hplace.elim
    | some bytes =>
      obtain ⟨before, after, hout, rfl, rfl⟩ := hplace
      constructor
      · rfl
      · exact ⟨pre ++ before, after ++ right, by simp [editFor, HookAction.line, hout], by simp,
          by simp [editFor, HookAction.cursor]⟩

/-- `${left##* }` is the last token. -/
theorem removeLongestPrefix_lastToken (htoken : ' ' ∉ token) (hpre : pre = [] ∨ [' '] <:+ pre) :
    removeLongestPrefix [.anyString, .char ' '] (pre ++ token) = token := by
  rw [removeLongestPrefix_upTo]
  rcases hpre with rfl | ⟨before, rfl⟩
  · rw [List.nil_append, splitLast_eq_none.mpr htoken]
    rfl
  · have hsplit : splitLast ' ' ((before ++ [' ']) ++ token) = some (before, token) :=
      splitLast_eq_some.mpr ⟨by simp, htoken⟩
    rw [hsplit]
    rfl

/-- What the handler makes of a search. -/
theorem sameEdit_of_found {result : ExpandResult} {point : ℕ}
    (hpoint : point = (pre ++ token).length) (h : Found point result s) :
    SameEdit (editFor pre token right result)
      (if !s.hit then cygInsertSpace (pre ++ token) right s else cygReplaceToken pre right s) := by
  cases result with
  | passThrough _ =>
    obtain ⟨hmiss, hsame⟩ := h
    rw [hmiss, Bool.not_false, if_pos rfl]
    simpa [editFor] using cygInsertSpace_sameEdit right (hsame.trans hpoint)
  | expanded text cursor =>
    obtain ⟨hhit, rfl, hplace⟩ := h
    rw [hhit, Bool.not_true, if_neg Bool.false_ne_true]
    exact cygReplaceToken_sameEdit hplace

/-- The handler makes the edit that `hook` decides on the same cut of the line. -/
theorem cygExpand_sameEdit (hshell : shell.Documented) (haccepted : Accepted engine config)
    (hcarry : tables.Carry config) (htoken : ' ' ∉ token) (hpre : pre = [] ∨ [' '] <:+ pre)
    (hleft : s.readlineLine.take s.readlinePoint = pre ++ token)
    (hright : s.readlineLine.drop s.readlinePoint = right)
    (hpoint : s.readlinePoint = (pre ++ token).length) :
    SameEdit
      (if AtExpandableToken pre token right then
        editFor pre token right (expand engine config.withoutRegex token .bash shell.typeP)
      else .insertSpace (pre ++ (token ++ ' ' :: right)) (byteLen pre + byteLen token + 1))
      (cygExpand shell tables s) := by
  have hinsert : ∀ s' : DispatcherState, s'.readlinePoint = s.readlinePoint →
      SameEdit (.insertSpace (pre ++ (token ++ ' ' :: right)) (byteLen pre + byteLen token + 1))
        (cygInsertSpace (pre ++ token) right s') := by
    intro s' hsame
    simpa using cygInsertSpace_sameEdit right (hsame.trans hpoint)
  have hcut : (pre ++ token).take ((pre ++ token).length - token.length) = pre := by
    rw [List.length_append, Nat.add_sub_cancel, List.take_left]
  have hblocked : right ≠ [] ∧ right.take 1 ≠ [' '] ↔ ¬ (right = [] ∨ [' '] <+: right) := by
    cases right with
    | nil => simp
    | cons c right => simp [eq_comm]
  unfold cygExpand
  simp only [hleft, hright, removeLongestPrefix_lastToken htoken hpre, hcut, hblocked,
    cygIsCommandPosition_eq hshell]
  by_cases hr : right = [] ∨ [' '] <+: right
  · rw [if_neg (not_not_intro hr)]
    by_cases hne : token = []
    · rw [if_pos hne, if_neg fun hat => hat.2.1 hne]
      exact hinsert s rfl
    · rw [if_neg hne]
      by_cases hpos : isCommandPosition pre = true
      · have hat : AtExpandableToken pre token right := ⟨hr, hne, hpos⟩
        simp only [hpos, Bool.not_true, Bool.false_eq_true, if_false, if_pos hat]
        exact sameEdit_of_found hpoint (cygSearch_found haccepted hcarry hshell token _)
      · rw [Bool.not_eq_true] at hpos
        have hat : ¬ AtExpandableToken pre token right := fun hat => by simp [hat.2.2] at hpos
        simp only [hpos, Bool.not_false, if_true, if_neg hat]
        exact hinsert _ rfl
  · rw [if_pos hr, if_neg fun hat => hr hat.1]
    exact hinsert s rfl

/-- Printing an action and evaluating it leaves its buffer and caret. -/
theorem evalText_of_sameEdit {action : HookAction} (h : SameEdit action s)
    (hnul : '\x00' ∉ action.line) (toJson : Text → Text) :
    ∃ output, render toJson .bash action = some output ∧
      evalText .bash output = some (.buffer s.readlineLine s.readlinePoint) := by
  obtain ⟨before, after, hline, hlength, hcursor⟩ := h.caret
  refine ⟨_, rfl, ?_⟩
  rw [HookAction.line_withCursor, HookAction.cursor_withCursor, evalText_bash _ hnul, h.line_eq,
    byteCursorToShell, ← hcursor]
  conv_lhs => rw [hline, byteCursorToChar_append, hlength, ← hline]

theorem nul_not_mem_editFor {result : ExpandResult} (hpre : '\x00' ∉ pre) (htoken : '\x00' ∉ token)
    (hright : '\x00' ∉ right)
    (hresult : ∀ text cursor, result = .expanded text cursor → '\x00' ∉ text) :
    '\x00' ∉ (editFor pre token right result).line := by
  cases result with
  | passThrough _ => simp [editFor, HookAction.line, hpre, htoken, hright]
  | expanded text cursor =>
    have htext := hresult text cursor rfl
    cases cursor <;> simp [editFor, HookAction.line, hpre, htext, hright]

/-- **The dispatcher refines the exec path.** For every accepted configuration whose tables carry
    its rules, every line with the caret between two of its characters and every command oracle,
    the handler leaves the buffer and caret that the text printed for `hook` without the regex
    rules decodes to. Bash variables hold no NUL. -/
theorem cyg_expand_refines_hook (engine : RegexLite) (config : Config)
    (haccepted : Accepted engine config) (tables : DispatcherTables) (hcarry : tables.Carry config)
    (shell : GitBash) (hshell : shell.Documented) (commandExists : Text → Bool)
    (htype : ∀ c, shell.typeP c = commandExists c) (s : DispatcherState)
    (hpoint : s.readlinePoint ≤ s.readlineLine.length) (hnul : '\x00' ∉ s.readlineLine)
    (toJson : Text → Text) :
    ∃ action output,
      hook engine config.withoutRegex .bash s.readlineLine
        (shellCursorToByte .bash s.readlineLine s.readlinePoint) commandExists = some action ∧
      render toJson .bash action = some output ∧
      evalText .bash output = some (.buffer (cygExpand shell tables s).readlineLine
        (cygExpand shell tables s).readlinePoint) := by
  obtain rfl : shell.typeP = commandExists := funext htype
  obtain ⟨pre, token, hleft, htoken, hpre⟩ :=
    exists_lastToken (s.readlineLine.take s.readlinePoint)
  obtain ⟨right, hright⟩ : ∃ right, s.readlineLine.drop s.readlinePoint = right := ⟨_, rfl⟩
  have hline : s.readlineLine = pre ++ (token ++ right) := by
    rw [← List.append_assoc, ← hleft, ← hright, List.take_append_drop]
  have hcursor : shellCursorToByte .bash s.readlineLine s.readlinePoint =
      byteLen pre + byteLen token := by
    rw [shellCursorToByte, charCursorToByte_eq, hleft, Text.byteLen_append]
  have hlength : s.readlinePoint = (pre ++ token).length := by
    rw [← hleft, List.length_take, Nat.min_eq_left hpoint]
  have hedit := cygExpand_sameEdit hshell haccepted hcarry htoken hpre hleft hright hlength
  have hparts : '\x00' ∉ pre ∧ '\x00' ∉ token ∧ '\x00' ∉ right := by
    rw [hline] at hnul
    simpa using hnul
  obtain ⟨hnulPre, hnulToken, hnulRight⟩ := hparts
  have hnulAction : '\x00' ∉ (if AtExpandableToken pre token right then
      editFor pre token right (expand engine config.withoutRegex token .bash shell.typeP)
      else .insertSpace (pre ++ (token ++ ' ' :: right)) (byteLen pre + byteLen token + 1)).line := by
    split
    · exact nul_not_mem_editFor hnulPre hnulToken hnulRight fun _ _ hresult =>
        nul_not_mem_of_expand haccepted hnulToken hresult
    · simp [HookAction.line, hnulPre, hnulToken, hnulRight]
  obtain ⟨output, hrender, heval⟩ := evalText_of_sameEdit hedit hnulAction toJson
  refine ⟨_, output, ?_, hrender, heval⟩
  rw [hcursor, hline]
  exact hook_append engine config.withoutRegex .bash htoken hpre right shell.typeP

/-- A shell in the C locale that finds no command. -/
def plainGitBash : GitBash where
  toLower := Char.toLower
  readPattern := unquoted
  typeP := fun _ => false

theorem plainGitBash_documented : plainGitBash.Documented where
  operators_have_no_case := by
    have hascii : ∀ n < 128, ∀ d ∈ ['&', '|', ';'],
        d.toLower = (Char.ofNat n).toLower → d = Char.ofNat n := by decide
    intro d hd c h
    by_cases hc : c.toNat < 128
    · have hchar := hascii c.toNat hc d hd
      rw [Char.ofNat_toNat] at hchar
      exact hchar h
    · have hlower : d.toLower = d := by
        simp only [List.mem_cons, List.not_mem_nil, or_false] at hd
        rcases hd with rfl | rfl | rfl <;> rfl
      have hfixed : c.toLower = c := by
        unfold Char.toLower
        rw [dif_neg]
        rintro ⟨-, hle⟩
        have hcode : c.toNat ≤ 'Z'.toNat := hle
        exact absurd hcode (by have h90 : 'Z'.toNat = 90 := rfl; omega)
      exact hlower.symm.trans (h.trans hfixed)
  readPattern_unquoted := fun _ _ _ _ => rfl

/-- A rule that places the cursor, after `sudo` and with `nocasematch` set. -/
theorem cyg_expand_refines_hook_sudo :
    ∃ action output,
      hook default (oneRuleConfig "echo '\x7b\x7d'".toList).withoutRegex .bash "sudo x".toList
        (shellCursorToByte .bash "sudo x".toList 6) (fun _ => false) = some action ∧
      render ShellLiteral.jsonQuote .bash action = some output ∧
      evalText .bash output = some (.buffer "sudo echo ''".toList 11) := by
  have hcarry : DispatcherTables.Carry ⟨["x\x1fecho '\x7b\x7d'\x1f".toList], [], []⟩
      (oneRuleConfig "echo '\x7b\x7d'".toList) :=
    ⟨.cons ⟨_, _, rfl, rfl, rfl⟩ .nil, .nil, .nil⟩
  have h := cyg_expand_refines_hook default _ (accepted_iff.mpr ⟨rfl, by decide, by decide +kernel⟩)
    _ hcarry plainGitBash plainGitBash_documented (fun _ => false) (fun _ => rfl)
    ⟨"sudo x".toList, 6, true, [], false, [], none, false, 0, false⟩ (by decide) (by decide)
    ShellLiteral.jsonQuote
  have hline : (cygExpand plainGitBash ⟨["x\x1fecho '\x7b\x7d'\x1f".toList], [], []⟩
      ⟨"sudo x".toList, 6, true, [], false, [], none, false, 0, false⟩).readlineLine =
        "sudo echo ''".toList := by
    decide +kernel
  have hcaret : (cygExpand plainGitBash ⟨["x\x1fecho '\x7b\x7d'\x1f".toList], [], []⟩
      ⟨"sudo x".toList, 6, true, [], false, [], none, false, 0, false⟩).readlinePoint = 11 := by
    decide +kernel
  rw [hline, hcaret] at h
  exact h

end Runex
