import Mathlib.Data.List.Chain
import Runex.App.ShellExport.Opening
import Runex.Infra.IntegrationCheck

/-!
# The header of the integration cache

The header is a comment for the shell and two labelled lines for the check. The path of the binary
is inserted as it is, so what the shell and the check make of it depends on the path: a line break
ends the comment, and the check reads trimmed lines, the last label first.

## Main definitions

- `endsComment` — the characters that end a comment line of a shell
- `HeaderHolds` — a path that the header can hold

## Main results

- `cacheHeader_iff` — the header is inert and read back exactly for such a path
-/

namespace Runex

open Search Text

/-- The characters that end a comment line. Only PowerShell ends it at a lone CR. -/
def endsComment (shell : Shell) (c : Char) : Bool := c == '\n' || (shell == .pwsh && c == '\r')

/-- A path that the header of a shell's cache can hold. -/
structure HeaderHolds (shell : Shell) (bin : Text) : Prop where
  oneLine : '\n' ∉ bin
  trimmed : trim bin = bin
  unlabelled : ¬ integrationCacheMarker <:+: bin
  commented : shell = .pwsh → bin.IsChain fun c d => c = '\r' → d = '#'

-- ════════════════════════════════════════════════════════════════════════
-- The lines of a cache
-- ════════════════════════════════════════════════════════════════════════

def versionLine : Text := "# runex-integration-version: 3".toList

def binLabel : Text := "# runex-bin: ".toList

def noteLine : Text := "# Generated by `runex init <shell>`; do not edit.".toList

variable {shell : Shell} {bin script : Text}

theorem commentPrefixFor_eq (hshell : shell ≠ .clink) : commentPrefixFor shell = ['#'] := by
  cases shell with
  | clink => exact absurd rfl hshell
  | _ => rfl

theorem cacheHeader_eq (bin : Text) : cacheHeader ['#'] bin =
    versionLine ++ '\n' :: (binLabel ++ (bin ++ '\n' :: (noteLine ++ ['\n']))) := by
  have hversion : versionLine ++ ['\n'] = ['#'] ++ [' '] ++ integrationCacheMarker ++ [' '] ++
      decimal integrationCacheVersion ++ ['\n'] := by decide +kernel
  have hlabel : binLabel = ['#'] ++ " runex-bin: ".toList := by decide +kernel
  have hnote : noteLine ++ ['\n'] =
      ['#'] ++ " Generated by `runex init <shell>`; do not edit.\n".toList := by decide +kernel
  have hsplit : versionLine ++ '\n' :: (binLabel ++ (bin ++ '\n' :: (noteLine ++ ['\n']))) =
      (versionLine ++ ['\n']) ++ (binLabel ++ (bin ++ ['\n'] ++ (noteLine ++ ['\n']))) := by simp
  rw [hsplit, hversion, hlabel, hnote, cacheHeader]
  simp only [List.append_assoc]

-- ════════════════════════════════════════════════════════════════════════
-- What the shell reads
-- ════════════════════════════════════════════════════════════════════════

theorem endsComment_eq_false {c : Char} (hlf : c ≠ '\n') (hcr : c ≠ '\r') :
    endsComment shell c = false := by
  simp [endsComment, hlf, hcr]

/-- A text without blanks around it does not end in a line break. -/
theorem ne_newline_of_trim_eq (htrim : trim bin = bin) {c : Char} (hc : c ∈ bin.getLast?) :
    c ≠ '\n' ∧ c ≠ '\r' := by
  have hblank : isWhitespace c = false := (trim_eq_self_iff.mp htrim).2 c hc
  constructor
  · rintro rfl
    cases hblank
  · rintro rfl
    cases hblank

/-- A text on one line that ends with no blank is not cut at its end. -/
theorem getLast?_of_trim_eq (htrim : trim bin = bin) {c : Char} (hc : c ∈ bin.getLast?) :
    endsComment shell c = false ∧ c ≠ '\r' := by
  obtain ⟨hlf, hcr⟩ := ne_newline_of_trim_eq htrim hc
  exact ⟨endsComment_eq_false hlf hcr, hcr⟩

/-- Each lone CR that ends a comment is followed by the next comment. -/
theorem isChain_endsComment_iff (hline : '\n' ∉ bin) :
    bin.IsChain (fun c d => endsComment shell c = true → d = '#') ↔
      (shell = .pwsh → bin.IsChain fun c d => c = '\r' → d = '#') := by
  have hlf : ∀ c ∈ bin, c ≠ '\n' := fun c hc h => hline (h ▸ hc)
  by_cases hpwsh : shell = .pwsh
  · subst hpwsh
    simp only [true_implies]
    exact List.IsChain.iff_of_mem_imp fun c d hc _ => by simp [endsComment, hlf c hc]
  · have hnone : ∀ c ∈ bin, endsComment shell c = false := fun c hc => by
      simp [endsComment, hlf c hc, hpwsh]
    simp only [hpwsh, false_implies, iff_true]
    exact (List.pairwise_of_forall_mem_list fun c hc d _ h => by simp [hnone c hc] at h).isChain

/-- What the shell reads, for a path on one line and without blanks around it. -/
theorem header_inert_iff (hline : '\n' ∉ bin) (htrim : trim bin = bin) :
    (∀ line ∈ linesBy (endsComment shell) (cacheHeader ['#'] bin), ['#'] <+: line) ↔
      (shell = .pwsh → bin.IsChain fun c d => c = '\r' → d = '#') := by
  have hlf : endsComment shell '\n' = true := rfl
  have hhash : endsComment shell '#' = false := endsComment_eq_false (by decide) (by decide)
  have hfree : ∀ s : Text, '\n' ∉ s → '\r' ∉ s → ∀ c ∈ s, endsComment shell c = false :=
    fun s hs hs' c hc => endsComment_eq_false (fun h => hs (h ▸ hc)) fun h => hs' (h ▸ hc)
  have hlabel : ∀ c ∈ binLabel, endsComment shell c = false ∧ c ≠ '\r' := fun c hc =>
    ⟨hfree _ (by decide) (by decide) c hc, fun h => absurd (h ▸ hc) (by decide)⟩
  have hnote : linesBy (endsComment shell) (noteLine ++ ['\n']) = [noteLine] :=
    linesBy_append hlf (hfree _ (by decide) (by decide)) (by decide) []
  have hcons : binLabel = '#' :: binLabel.tail := by decide
  rw [cacheHeader_eq, linesBy_append hlf (hfree _ (by decide) (by decide)) (by decide),
    List.forall_mem_cons, hcons, List.cons_append, forall_linesBy_iff hhash (by simp),
    ← List.cons_append, ← hcons, tail_linesBy_append hlabel,
    forall_tail_linesBy_iff hlf hhash hline fun c hc => getLast?_of_trim_eq htrim hc, hnote,
    isChain_endsComment_iff hline]
  have hversion : ['#'] <+: versionLine := by decide
  have hlast : ['#'] <+: noteLine := by decide
  simp [hversion, hlast]

-- ════════════════════════════════════════════════════════════════════════
-- What the check reads
-- ════════════════════════════════════════════════════════════════════════

/-- A line leaves the binary as it was, or ends with the new one. -/
theorem binLine_scanCacheLine {found : CacheHeaderScan} {line b : Text}
    (h : (scanCacheLine found line).binLine = some b) : found.binLine = some b ∨ b <:+ line := by
  unfold scanCacheLine at h
  split at h
  · exact Or.inl h
  · split at h
    · next before after hsplit =>
      obtain rfl : after = b := by simpa using h
      rw [eq_append_of_splitOnce hsplit]
      exact Or.inr ((List.suffix_append _ _).trans (List.suffix_append _ _))
    · exact Or.inl h

/-- The binary is the end of one of the lines. -/
theorem binLine_foldl {found : CacheHeaderScan} {ls : List Text} {b : Text}
    (h : (ls.foldl scanCacheLine found).binLine = some b) :
    found.binLine = some b ∨ ∃ line ∈ ls, b <:+ line := by
  induction ls generalizing found with
  | nil => exact Or.inl h
  | cons line ls ih =>
    rcases ih h with h | ⟨later, hlater, hsuffix⟩
    · exact (binLine_scanCacheLine h).imp_right fun hsuffix => ⟨line, by simp, hsuffix⟩
    · exact Or.inr ⟨later, by simp [hlater], hsuffix⟩

/-- What is read back as the binary is one line without blanks around it. -/
theorem bin_scanCacheHeader {content : Text} (h : (scanCacheHeader content).bin = some bin) :
    '\n' ∉ bin ∧ trim bin = bin := by
  obtain ⟨b, hb, rfl⟩ := Option.map_eq_some_iff.mp h
  refine ⟨fun hmem => ?_, trim_trim b⟩
  rcases binLine_foldl hb with hnone | ⟨line, hline, hsuffix⟩
  · cases hnone
  · exact not_mem_of_mem_linesBy rfl (List.mem_of_mem_take hline)
      (hsuffix.subset (mem_of_mem_trim hmem))

theorem scanCacheLine_versionLine : scanCacheLine {} versionLine = ⟨some ['3'], none⟩ := by
  decide +kernel

/-- The line of the binary. -/
theorem scanCacheLine_binLabel (found : CacheHeaderScan)
    (hmarker : ¬ integrationCacheMarker <:+: bin) :
    scanCacheLine found (binLabel ++ bin) = { found with binLine := some bin } := by
  have hlabel : splitOnce runexBinLabel binLabel = some (['#', ' '], []) := by decide +kernel
  have hnone : splitOnce integrationCacheMarker (binLabel ++ bin) = none := by
    rw [splitOnce_eq_none]
    intro hinfix
    have hblank : binLabel = "# runex-bin:".toList ++ [' '] := by decide +kernel
    rw [hblank, List.append_assoc] at hinfix
    rcases infix_append_cons (by decide +kernel) hinfix with h | h
    · exact absurd h (by decide +kernel)
    · exact hmarker h
  simp [scanCacheLine, hnone, splitOnce_append_of_some hlabel bin]

/-- A path with the other label is read as a version. -/
theorem scanCacheLine_marked (found : CacheHeaderScan) (hmarker : integrationCacheMarker <:+: bin) :
    (scanCacheLine found (binLabel ++ bin)).binLine = found.binLine := by
  unfold scanCacheLine
  split
  · rfl
  · next hnone =>
    exact absurd (hmarker.trans (List.suffix_append _ _).isInfix) (splitOnce_eq_none.mp hnone)

/-- A line without labels. -/
theorem scanCacheLine_of_unlabelled {line : Text} (found : CacheHeaderScan)
    (h : splitOnce integrationCacheMarker line = none ∧ splitOnce runexBinLabel line = none) :
    scanCacheLine found line = found := by
  simp [scanCacheLine, h.1, h.2]

/-- The first five lines of a cache. -/
theorem lines_cacheContents (hline : '\n' ∉ bin) (htrim : trim bin = bin) (rest : Text) :
    lines (cacheHeader ['#'] bin ++ (openingText shell ++ rest)) =
      versionLine :: (binLabel ++ bin) :: noteLine :: (openingLines shell).1.toList ::
        (openingLines shell).2.toList :: lines rest := by
  have hfirst : ∀ {s : Text}, '\n' ∉ s → s.getLast? ≠ some '\r' → ∀ t,
      lines (s ++ '\n' :: t) = s :: lines t := by
    intro s hs hlast t
    refine linesBy_append rfl (fun c hc => beq_eq_false_iff_ne.mpr ?_) hlast t
    rintro rfl
    exact hs hc
  have hbin : '\n' ∉ binLabel ++ bin := by
    rw [List.mem_append, not_or]
    exact ⟨by decide +kernel, hline⟩
  have hend : (binLabel ++ bin).getLast? ≠ some '\r' := by
    cases hlast : bin.getLast? with
    | none =>
      rw [List.getLast?_eq_none_iff.mp hlast]
      decide +kernel
    | some c =>
      rw [List.getLast?_append, hlast]
      intro h
      exact (ne_newline_of_trim_eq htrim hlast).2 (Option.some.inj h)
  have hopening : '\n' ∉ (openingLines shell).1.toList ∧ '\n' ∉ (openingLines shell).2.toList ∧
      (openingLines shell).1.toList.getLast? ≠ some '\r' ∧
      (openingLines shell).2.toList.getLast? ≠ some '\r' := by
    cases shell <;> decide +kernel
  obtain ⟨hfirstLine, hsecondLine, hfirstEnd, hsecondEnd⟩ := hopening
  rw [cacheHeader_eq, openingText]
  simp only [List.append_assoc, List.cons_append, List.nil_append]
  rw [hfirst (by decide +kernel) (by decide +kernel), ← List.append_assoc binLabel,
    hfirst hbin hend, hfirst (by decide +kernel) (by decide +kernel), hfirst hfirstLine hfirstEnd,
    hfirst hsecondLine hsecondEnd]

/-- What the check reads in a cache. -/
theorem scan_cacheContents_iff (rest : Text) :
    ((scanCacheHeader (cacheHeader ['#'] bin ++ (openingText shell ++ rest))).version =
        some integrationCacheVersion ∧
      (scanCacheHeader (cacheHeader ['#'] bin ++ (openingText shell ++ rest))).bin = some bin) ↔
      '\n' ∉ bin ∧ trim bin = bin ∧ ¬ integrationCacheMarker <:+: bin := by
  have hnote : splitOnce integrationCacheMarker noteLine = none ∧
      splitOnce runexBinLabel noteLine = none := by decide +kernel
  have hopening : ∀ line ∈ [(openingLines shell).1.toList, (openingLines shell).2.toList],
      splitOnce integrationCacheMarker line = none ∧ splitOnce runexBinLabel line = none := by
    cases shell <;> decide +kernel
  have hscan (hline : '\n' ∉ bin) (htrim : trim bin = bin) :
      scanCacheHeader (cacheHeader ['#'] bin ++ (openingText shell ++ rest)) =
        scanCacheLine ⟨some ['3'], none⟩ (binLabel ++ bin) := by
    rw [scanCacheHeader, lines_cacheContents hline htrim]
    simp only [List.take_succ_cons, List.take_zero, List.foldl_cons, List.foldl_nil]
    rw [scanCacheLine_versionLine, scanCacheLine_of_unlabelled _ (hopening _ (by simp)),
      scanCacheLine_of_unlabelled _ (hopening _ (by simp)), scanCacheLine_of_unlabelled _ hnote]
  constructor
  · rintro ⟨-, hbin⟩
    obtain ⟨hline, htrim⟩ := bin_scanCacheHeader hbin
    refine ⟨hline, htrim, fun hmarker => ?_⟩
    rw [hscan hline htrim, CacheHeaderScan.bin, scanCacheLine_marked _ hmarker] at hbin
    cases hbin
  · rintro ⟨hline, htrim, hmarker⟩
    rw [hscan hline htrim, scanCacheLine_binLabel _ hmarker]
    have hversion : parseVersion ['3'] = some integrationCacheVersion := by decide +kernel
    exact ⟨hversion, by simp [CacheHeaderScan.bin, htrim]⟩

/-- The header of a cache is a comment for the shell and is read back by the check as what was
    written exactly when the path is one line without blanks around it or the version label in it,
    and any lone CR, at which PowerShell ends a comment, is followed by the next comment. -/
theorem cacheHeader_iff {shell : Shell} (hshell : shell ≠ .clink) {bin contents : Text}
    {config : Option Config} (hcontents : cacheContents shell bin config = some contents) :
    ((∀ line ∈ linesBy (endsComment shell) (cacheHeader (commentPrefixFor shell) bin),
        commentPrefixFor shell <+: line) ∧
      (scanCacheHeader contents).version = some integrationCacheVersion ∧
      (scanCacheHeader contents).bin = some bin) ↔ HeaderHolds shell bin := by
  obtain ⟨script, hscript, rfl⟩ := Option.map_eq_some_iff.mp hcontents
  obtain ⟨rest, rfl⟩ := exportScript_opening hscript
  rw [commentPrefixFor_eq hshell, scan_cacheContents_iff]
  constructor
  · rintro ⟨hinert, hline, htrim, hmarker⟩
    exact ⟨hline, htrim, hmarker, (header_inert_iff hline htrim).mp hinert⟩
  · rintro ⟨hline, htrim, hmarker, hcommented⟩
    exact ⟨(header_inert_iff hline htrim).mpr hcommented, hline, htrim, hmarker⟩

/-- The cache that `init` writes without a configuration. -/
theorem cacheHeader_iff_runex : ∃ contents, cacheContents .bash "runex".toList none = some contents ∧
    (∀ line ∈ linesBy (endsComment .bash) (cacheHeader (commentPrefixFor .bash) "runex".toList),
      commentPrefixFor .bash <+: line) ∧
    (scanCacheHeader contents).version = some integrationCacheVersion ∧
    (scanCacheHeader contents).bin = some "runex".toList := by
  have hholds : HeaderHolds .bash "runex".toList :=
    ⟨by decide, by decide, by decide, fun h => by cases h⟩
  exact ⟨_, rfl, (cacheHeader_iff (by decide)
    (rfl : cacheContents .bash "runex".toList none = some _)).mpr hholds⟩

/-- The rest of a path after a line break is a line of its own, which the shell runs. -/
theorem cacheHeader_not_inert : ¬ ∀ (shell : Shell) (bin contents : Text) (config : Option Config),
    shell ≠ .clink → cacheContents shell bin config = some contents →
      (∀ line ∈ linesBy (endsComment shell) (cacheHeader (commentPrefixFor shell) bin),
        commentPrefixFor shell <+: line) ∧
      (scanCacheHeader contents).version = some integrationCacheVersion ∧
      (scanCacheHeader contents).bin = some bin := by
  intro h
  obtain ⟨hinert, -, -⟩ := h .bash "/tmp\nls".toList _ none (by decide) rfl
  exact absurd (hinert "ls".toList (by decide +kernel)) (by decide)

end Runex
