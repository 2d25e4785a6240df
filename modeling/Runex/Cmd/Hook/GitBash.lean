import Runex.Cmd.Hook.Session

/-!
# A session in Git Bash

The baked dispatcher keeps its variables from one trigger key to the next, and the user may change
the buffer, the installed commands and the `nocasematch` option in between. Its sessions are those of
the exec path for the configuration without its regex rules, as long as no trigger key finds a
buffer over the cap of the program, which the dispatcher does not have.

## Main definitions

- `BakedEvent` — what happens at a Git Bash prompt
- `runDispatcher`, `runBaked` — a session on the variables, and as it is meant
- `WithinCap` — no trigger key finds a buffer over the cap

## Main results

- `OptionIs.cygExpand` — the handler leaves the option as it was
- `git_bash_session` — a whole session, and its exec path
-/

namespace Runex

open Search Loop
open Text (byteLen)

variable {engine : RegexLite} {config : Config} {tables : DispatcherTables} {shell : GitBash}

-- ════════════════════════════════════════════════════════════════════════
-- The shell option
-- ════════════════════════════════════════════════════════════════════════

/-- The option is set or not, whatever the other variables are. -/
def OptionIs (on : Bool) (s : DispatcherState) : Prop := s.nocasematch = on

variable {on : Bool} {s : DispatcherState}

theorem OptionIs.condsMet (h : OptionIs on s) (conds : Text) :
    OptionIs on (cygCondsMet shell conds s) := by
  have hsee : ∀ cmds : List Text, ∀ s', OptionIs on s' →
      OptionIs on (cmds.foldl (cygSeeCommand shell) s') := by
    intro cmds
    induction cmds with
    | nil => exact fun s' h => h
    | cons cmd cmds ih =>
      intro s' h
      refine ih _ ?_
      unfold cygSeeCommand
      simp only
      split <;> split <;> exact h
  unfold cygCondsMet
  simp only
  split
  · exact h
  · exact hsee _ _ h

theorem OptionIs.render (h : OptionIs on s) (text : Text) :
    OptionIs on (cygRender shell text s).2 := by
  unfold cygRender
  simp only
  split <;> split <;> exact h

theorem OptionIs.lookupEntry (h : OptionIs on s) (token entry : Text) :
    OptionIs on (cygLookupEntry shell token entry s).state := by
  unfold cygLookupEntry
  split
  · next key template conds _ =>
    have hconds : OptionIs on (cygCondsMet shell conds s) := h.condsMet conds
    have hshown : OptionIs on (cygRender shell template (cygCondsMet shell conds s)).2 :=
      hconds.render template
    split
    · exact h
    · split
      · exact h
      · simp only
        split
        · exact hconds
        · split <;> exact hshown
  · exact h

theorem OptionIs.patternLookupEntry (h : OptionIs on s) (token entry : Text) :
    OptionIs on (cygPatternLookupEntry shell token entry s).state := by
  unfold cygPatternLookupEntry
  split
  · next pre suf template unit conds _ =>
    have hconds : OptionIs on (cygCondsMet shell conds s) := h.condsMet conds
    split
    · exact h
    · simp only
      split
      · exact hconds
      · split
        · exact hconds
        · split
          · exact hconds
          · split
            · exact OptionIs.render (s := cygByteLen _ (cygByteLen _ _)) hconds _
            · exact OptionIs.render (s := cygByteLen _ (cygByteLen _ _)) hconds _
  · exact h

theorem OptionIs.globLookupEntry (h : OptionIs on s) (token entry : Text) :
    OptionIs on (cygGlobLookupEntry shell token entry s).state := by
  unfold cygGlobLookupEntry
  split
  · next pattern head tail template conds _ =>
    have hconds : OptionIs on (cygCondsMet shell conds s) := h.condsMet conds
    split
    · exact h
    · simp only
      split
      · exact hconds
      · split
        · exact hconds
        · split <;> exact hconds
  · exact h

theorem OptionIs.ite {c : Bool} {t : DispatcherState} (hs : OptionIs on s) (ht : OptionIs on t) :
    OptionIs on (if c then s else t) := by
  cases c with
  | true => exact hs
  | false => exact ht

/-- The scans run with the option off, and it is set again after them. -/
theorem OptionIs.search (h : OptionIs on s) (token : Text) :
    OptionIs on (cygSearch shell tables token s) := by
  have hlookup : ∀ s', OptionIs false s' → OptionIs false (cygLookup shell tables token s') :=
    fun s' h' => forEach_keeps (fun entry _ h => h.lookupEntry token entry) _ h'
  have hpattern : ∀ s', OptionIs false s' →
      OptionIs false (cygPatternLookup shell tables token s') :=
    fun s' h' => forEach_keeps (fun entry _ h => h.patternLookupEntry token entry) _ h'
  have hglob : ∀ s', OptionIs false s' → OptionIs false (cygGlobLookup shell tables token s') :=
    fun s' h' => forEach_keeps (fun entry _ h => h.globLookupEntry token entry) _ h'
  have hscans : ∀ s', OptionIs false s' → OptionIs false
      (let s' := cygLookup shell tables token s'
       let s' := if !s'.hit then cygPatternLookup shell tables token s' else s'
       if !s'.hit then cygGlobLookup shell tables token s' else s') := by
    intro s' h'
    have hfirst := hlookup s' h'
    have hsecond := fun c => (hpattern _ hfirst).ite (c := c) hfirst
    exact (hglob _ (hsecond _)).ite (hsecond _)
  have hprepared := hscans { s with cmdSeen := [], nocasematch := false, hit := false } rfl
  unfold cygSearch
  cases hon : s.nocasematch with
  | false =>
    obtain rfl : false = on := hon.symm.trans h
    simp only [Bool.false_eq_true, if_false]
    exact hprepared
  | true => exact hon.symm.trans h

/-- The handler leaves the option as it was. -/
theorem OptionIs.cygExpand (hshell : shell.Documented) (h : OptionIs on s) :
    OptionIs on (cygExpand shell tables s) := by
  have hsearch : ∀ pos token, OptionIs on (cygSearch shell tables token { s with cmdPos := pos }) :=
    fun pos token => OptionIs.search (s := { s with cmdPos := pos }) h token
  unfold Runex.cygExpand
  simp only [cygIsCommandPosition_eq hshell]
  split
  · exact h
  · split
    · exact h
    · refine OptionIs.ite h (OptionIs.ite (hsearch _ _) ?_)
      unfold cygReplaceToken
      split <;> exact hsearch _ _

-- ════════════════════════════════════════════════════════════════════════
-- What is meant
-- ════════════════════════════════════════════════════════════════════════

/-- The variables hold the buffer and caret. -/
def HoldsLine (z : Zipper) (s : DispatcherState) : Prop :=
  s.readlineLine = z.text ∧ s.readlinePoint = z.before.length

/-- The buffer after the trigger key of the dispatcher. -/
def Zipper.bakedEdit (engine : RegexLite) (config : Config) (commandExists : Text → Bool)
    (z : Zipper) : Zipper :=
  if AtExpandableToken z.lastToken.1 z.lastToken.2 z.after then
    match expand engine config.withoutRegex z.lastToken.2 .bash commandExists with
    | .expanded text cursor => z.replace text cursor
    | .passThrough _ => z.space
  else z.space

/-- A caret in two units is in one place. -/
theorem SameEdit.holdsLine {action : HookAction} (h : SameEdit action s) {z : Zipper}
    (hline : action.line = z.text) (hcursor : action.cursor = byteLen z.before) : HoldsLine z s := by
  obtain ⟨left, right, hcut, hpoint, hbyte⟩ := h.caret
  refine ⟨h.line_eq.trans hline, ?_⟩
  have hsplit := Text.splitAt?_append left right
  have hsplit' := Text.splitAt?_append z.before z.after
  rw [← hcut, hbyte, hcursor, hline] at hsplit
  rw [← Zipper.text, hsplit, Option.some.injEq, Prod.mk.injEq] at hsplit'
  rw [← hpoint, hsplit'.1]

/-- The trigger key of the dispatcher leaves what is meant. -/
theorem cygExpand_holdsLine (hshell : shell.Documented) (haccepted : Accepted engine config)
    (hcarry : tables.Carry config) {z : Zipper} (h : HoldsLine z s) :
    HoldsLine (z.bakedEdit engine config shell.typeP) (cygExpand shell tables s) := by
  obtain ⟨hline, hpoint⟩ := h
  obtain ⟨hbefore, htoken, hpre⟩ := z.lastToken_spec
  have hleft : s.readlineLine.take s.readlinePoint = z.lastToken.1 ++ z.lastToken.2 := by
    rw [hline, hpoint, Zipper.text, List.take_left, hbefore]
  have hright : s.readlineLine.drop s.readlinePoint = z.after := by
    rw [hline, hpoint, Zipper.text, List.drop_left]
  have hlength : s.readlinePoint = (z.lastToken.1 ++ z.lastToken.2).length := by
    rw [hpoint, hbefore]
  have hedit := cygExpand_sameEdit hshell haccepted hcarry htoken hpre hleft hright hlength
  have hspace : Char.utf8Size ' ' = 1 := rfl
  have hplain : ∀ action : HookAction, SameEdit action (cygExpand shell tables s) →
      action = .insertSpace (z.lastToken.1 ++ (z.lastToken.2 ++ ' ' :: z.after))
        (byteLen z.lastToken.1 + byteLen z.lastToken.2 + 1) →
      HoldsLine z.space (cygExpand shell tables s) := by
    rintro _ hedit rfl
    refine hedit.holdsLine ?_ ?_
    · simp only [HookAction.line, Zipper.space, Zipper.text]
      conv_rhs => rw [hbefore]
      simp
    · have hbytes := congrArg byteLen hbefore
      rw [Text.byteLen_append] at hbytes
      simp [HookAction.cursor, Zipper.space, hspace, hbytes]
  rw [Zipper.bakedEdit]
  by_cases hat : AtExpandableToken z.lastToken.1 z.lastToken.2 z.after
  · rw [if_pos hat] at hedit ⊢
    cases hexpand : expand engine config.withoutRegex z.lastToken.2 .bash shell.typeP with
    | passThrough t =>
      rw [hexpand] at hedit
      exact hplain _ hedit rfl
    | expanded text cursor =>
      rw [hexpand] at hedit
      cases cursor with
      | none =>
        refine hedit.holdsLine ?_ ?_ <;>
          simp [editFor, HookAction.line, HookAction.cursor, Zipper.replace, Zipper.text, hspace,
            Nat.add_assoc]
      | some off =>
        obtain ⟨left, right, rfl, rfl⟩ := expand_cursor_isBoundary hexpand
        refine hedit.holdsLine ?_ ?_ <;>
          simp [editFor, HookAction.line, HookAction.cursor, Zipper.replace, Zipper.text,
            Text.splitAt?_append]
  · rw [if_neg hat] at hedit ⊢
    exact hplain _ hedit rfl

-- ════════════════════════════════════════════════════════════════════════
-- Sessions
-- ════════════════════════════════════════════════════════════════════════

/-- What happens at a Git Bash prompt. -/
inductive BakedEvent where
  | edit (z : Zipper) (plain : '\x00' ∉ z.text)
  | shopt (on : Bool)
  | selfInsert
  | trigger (commandExists : Text → Bool)

namespace BakedEvent

/-- An event on the variables. -/
def onDispatcher (shell : GitBash) (tables : DispatcherTables) (event : BakedEvent)
    (s : DispatcherState) : DispatcherState :=
  match event with
  | .edit z _ => { s with readlineLine := z.text, readlinePoint := z.before.length }
  | .shopt on => { s with nocasematch := on }
  | .selfInsert =>
    cygInsertSpace (s.readlineLine.take s.readlinePoint) (s.readlineLine.drop s.readlinePoint) s
  | .trigger commandExists => Runex.cygExpand { shell with typeP := commandExists } tables s

/-- An event as it is meant. -/
def onBaked (engine : RegexLite) (config : Config) (event : BakedEvent) (z : Zipper) : Zipper :=
  match event with
  | .edit z' _ => z'
  | .shopt _ => z
  | .selfInsert => z.space
  | .trigger commandExists => z.bakedEdit engine config commandExists

/-- The option after an event. -/
def onOption (event : BakedEvent) (on : Bool) : Bool :=
  match event with
  | .shopt on' => on'
  | .edit _ _ | .selfInsert | .trigger _ => on

theorem holdsLine_step (hshell : shell.Documented) (haccepted : Accepted engine config)
    (hcarry : tables.Carry config) (event : BakedEvent) {z : Zipper} (h : HoldsLine z s)
    (hon : OptionIs on s) :
    HoldsLine (event.onBaked engine config z) (event.onDispatcher shell tables s) ∧
      OptionIs (event.onOption on) (event.onDispatcher shell tables s) := by
  cases event with
  | edit z' plain => exact ⟨⟨rfl, rfl⟩, hon⟩
  | shopt on' => exact ⟨h, rfl⟩
  | selfInsert =>
    refine ⟨?_, hon⟩
    obtain ⟨hline, hpoint⟩ := h
    constructor
    · simp [onDispatcher, onBaked, cygInsertSpace, Zipper.space, Zipper.text, hline, hpoint]
    · simp [onDispatcher, onBaked, cygInsertSpace, Zipper.space, hpoint]
  | trigger commandExists =>
    have hshell' : GitBash.Documented { shell with typeP := commandExists } :=
      ⟨hshell.operators_have_no_case, hshell.readPattern_unquoted⟩
    exact ⟨cygExpand_holdsLine hshell' haccepted hcarry h, hon.cygExpand hshell'⟩

/-- The same event where every trigger key runs the program. -/
def toEvent (config : {config : Config // Accepted engine config}) (event : BakedEvent) :
    Option (Event engine .bash) :=
  match event with
  | .edit z plain => some (.edit z fun _ => plain)
  | .shopt _ => none
  | .selfInsert => some .selfInsert
  | .trigger commandExists =>
    some (.trigger { config := some config, commandExists, keysQueued := false, started := true })

end BakedEvent

/-- A session on the variables. -/
def runDispatcher (shell : GitBash) (tables : DispatcherTables) (events : List BakedEvent)
    (s : DispatcherState) : DispatcherState :=
  events.foldl (fun s event => event.onDispatcher shell tables s) s

/-- A session as it is meant. -/
def runBaked (engine : RegexLite) (config : Config) (events : List BakedEvent) (z : Zipper) :
    Zipper :=
  events.foldl (fun z event => event.onBaked engine config z) z

/-- No trigger key finds a buffer over the cap of the program. -/
def WithinCap (engine : RegexLite) (config : Config) : List BakedEvent → Zipper → Prop
  | [], _ => True
  | event :: events, z =>
    (∀ commandExists, event = .trigger commandExists → byteLen z.text ≤ maxHookLineBytes) ∧
      WithinCap engine config events (event.onBaked engine config z)

theorem runDispatcher_holdsLine (hshell : shell.Documented) (haccepted : Accepted engine config)
    (hcarry : tables.Carry config) (events : List BakedEvent) {z : Zipper} (h : HoldsLine z s)
    (hon : OptionIs on s) :
    HoldsLine (runBaked engine config events z) (runDispatcher shell tables events s) ∧
      OptionIs (events.foldl (fun on event => event.onOption on) on)
        (runDispatcher shell tables events s) := by
  induction events generalizing z s on with
  | nil => exact ⟨h, hon⟩
  | cons event events ih =>
    obtain ⟨hstep, hoption⟩ := event.holdsLine_step hshell haccepted hcarry h hon
    exact ih hstep hoption

/-- Leaving out the regex rules leaves an accepted configuration. -/
theorem Accepted.withoutRegex (h : Accepted engine config) :
    Accepted engine config.withoutRegex := by
  obtain ⟨hversion, hkeybind, hlength, hrules⟩ := accepted_iff_rules.mp h
  refine accepted_iff_rules.mpr ⟨hversion, hkeybind, ?_, fun abbr hmem => ?_⟩
  · exact (List.length_filter_le _ _).trans hlength
  · exact hrules abbr (List.mem_of_mem_filter hmem)

/-- Within the cap the program makes the same edit. -/
theorem edit_eq_bakedEdit (haccepted : Accepted engine config) (commandExists : Text → Bool)
    (bin : Text) {z : Zipper} (hcap : byteLen z.text ≤ maxHookLineBytes) :
    Press.edit
        { config := some ⟨config.withoutRegex, haccepted.withoutRegex⟩, commandExists,
          keysQueued := false, started := true } bin .bash z =
      z.bakedEdit engine config commandExists := by
  let press : Press engine :=
    { config := some ⟨config.withoutRegex, haccepted.withoutRegex⟩, commandExists,
      keysQueued := false, started := true }
  show press.edit bin .bash z = _
  have hloaded : press.loaded = some config.withoutRegex := rfl
  have hpaste : press.pastePending .bash = false := rfl
  have hexists : press.commandExists = commandExists := rfl
  have hedit : press.edit bin .bash z = press.intended .bash z := by
    rw [Press.edit, if_pos rfl, if_neg fun h => absurd h.1 (by decide)]
  rw [hedit, Press.intended, Press.expansion, hloaded, hpaste, hexists, Zipper.bakedEdit]
  by_cases hat : AtExpandableToken z.lastToken.1 z.lastToken.2 z.after
  · simp only [hat, hcap, and_self, if_true]
    cases expand engine config.withoutRegex z.lastToken.2 .bash commandExists <;> rfl
  · simp only [hat, and_false, if_false]

namespace BakedEvent

/-- Within the cap both take the same step. -/
theorem onEditor_toEvent (haccepted : Accepted engine config) (bin : Text) (event : BakedEvent)
    {z : Zipper} (hcap : ∀ commandExists, event = .trigger commandExists →
      byteLen z.text ≤ maxHookLineBytes) :
    runEditor bin (event.toEvent ⟨config.withoutRegex, haccepted.withoutRegex⟩).toList z =
      event.onBaked engine config z := by
  cases event with
  | edit z' plain => rfl
  | shopt on => rfl
  | selfInsert => rfl
  | trigger commandExists =>
    exact edit_eq_bakedEdit haccepted commandExists bin (hcap commandExists rfl)

end BakedEvent

theorem runEditor_toEvent (haccepted : Accepted engine config) (bin : Text)
    (events : List BakedEvent) {z : Zipper} (hcap : WithinCap engine config events z) :
    runEditor bin
        (events.filterMap (BakedEvent.toEvent ⟨config.withoutRegex, haccepted.withoutRegex⟩)) z =
      runBaked engine config events z := by
  induction events generalizing z with
  | nil => rfl
  | cons event events ih =>
    obtain ⟨hstep, hrest⟩ := hcap
    rw [runBaked, List.foldl_cons, ← event.onEditor_toEvent haccepted bin hstep, ← runBaked,
      ← ih (event.onEditor_toEvent haccepted bin hstep ▸ hrest)]
    simp only [List.filterMap_cons]
    cases event.toEvent ⟨config.withoutRegex, haccepted.withoutRegex⟩ <;> rfl

/-- **A session in Git Bash.** With the tables that Bash reads from the block of an accepted
    configuration none of whose strings there has a line separator: in every session of edits,
    self-insert keys, trigger keys and changes of `nocasematch` and of the installed commands, the
    variables of the dispatcher hold the buffer that is meant, and the option is as the user last
    set it. Where no trigger key finds a buffer over the cap, the exec path ends with the same
    buffer and caret for the configuration without its regex rules. -/
theorem git_bash_session (engine : RegexLite) (hengine : engine.CapturesOfToken) (config : Config)
    (haccepted : Accepted engine config)
    (hlines : ∀ rule ∈ config.abbr, ∀ s ∈ bakedStrings rule, OneLine s) (tables : DispatcherTables)
    (hread : readTables (generateCygwinDispatcher config) =
      some (tables.abbrExact, tables.abbrPatterns, tables.abbrGlobs))
    (shell : GitBash) (hshell : shell.Documented) (toJson : Text → Text) (hjson : WritesJson toJson)
    (bin : Text) (events : List BakedEvent) (z : Zipper) (hplain : '\x00' ∉ z.text)
    (s : DispatcherState) (hholds : HoldsLine z s) :
    HoldsLine (runBaked engine config events z) (runDispatcher shell tables events s) ∧
    (runDispatcher shell tables events s).nocasematch =
      events.foldl (fun on event => event.onOption on) s.nocasematch ∧
    (WithinCap engine config events z →
      runShell toJson bin
        (events.filterMap (BakedEvent.toEvent ⟨config.withoutRegex, haccepted.withoutRegex⟩))
        (.buffer s.readlineLine s.readlinePoint) =
      some (.buffer (runDispatcher shell tables events s).readlineLine
        (runDispatcher shell tables events s).readlinePoint)) := by
  have hcarry := DispatcherTables.carry_of_oneLine haccepted hlines hread
  obtain ⟨hfinal, hoption⟩ := runDispatcher_holdsLine hshell haccepted hcarry events hholds
    (show OptionIs s.nocasematch s from rfl)
  refine ⟨hfinal, hoption, fun hcap => ?_⟩
  have hrun := (runShell_state hengine hjson bin
    (events.filterMap (BakedEvent.toEvent ⟨config.withoutRegex, haccepted.withoutRegex⟩))
    (z := z) fun _ => hplain).1
  rw [runEditor_toEvent haccepted bin events hcap] at hrun
  rw [hholds.1, hholds.2, hfinal.1, hfinal.2]
  exact hrun

/-- The rule of the tests, expanded with the option set and again in another buffer. -/
def twoTriggers : List BakedEvent :=
  [.shopt true, .trigger fun _ => false, .edit ⟨"é; x".toList, " y".toList⟩ (by decide),
    .trigger fun _ => false]

theorem git_bash_session_twice :
    HoldsLine ⟨"é; echo ".toList, " y".toList⟩
      (runDispatcher plainGitBash ⟨["x\x1fecho\x1f".toList], [], []⟩ twoTriggers
        ⟨"sudo x".toList, 6, false, [], false, [], none, false, 0, false⟩) := by
  have h := (git_bash_session default (fun regex => nomatch regex) (oneRuleConfig "echo".toList)
    (accepted_iff.mpr ⟨rfl, by decide, by decide +kernel⟩) (by decide +kernel)
    ⟨["x\x1fecho\x1f".toList], [], []⟩ (readTables_dispatcher _) plainGitBash
    plainGitBash_documented ShellLiteral.jsonQuote ShellLiteral.scan_jsonQuote [] twoTriggers
    ⟨"sudo x".toList, []⟩ (by decide)
    ⟨"sudo x".toList, 6, false, [], false, [], none, false, 0, false⟩ ⟨rfl, rfl⟩).1
  have hmeant : runBaked default (oneRuleConfig "echo".toList) twoTriggers ⟨"sudo x".toList, []⟩ =
      ⟨"é; echo ".toList, " y".toList⟩ := by
    decide +kernel
  rw [hmeant] at h
  exact h

end Runex
