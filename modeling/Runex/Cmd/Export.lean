import Runex.App.Hook.EvalText
import Runex.App.ShellExport.Embedded
import Runex.Domain.Sanitize.Display
import Runex.Infra.IntegrationCheck.Header

/-!
# The `export` subcommand

The name of the binary is checked before it goes into the script of a shell.

## Main definitions

- `validateBin` — the check of a name
- `handleExport` — what is printed, and the exit code
- `ReadAs` — what the shells read in the place of a name

## Main results

- `printable_of_validateBin` — a name that passes is printable ASCII
- `export_bin` — who gets back the name that was exported
-/

namespace Runex

open ShellLiteral
open Text (byteLen isAsciiControl trim)

def maxBinLen : ℕ := 255

/-- `char::is_ascii_graphic`. -/
def isAsciiGraphic (c : Char) : Bool := 0x21 ≤ c.toNat && c.toNat ≤ 0x7E

def validateBin (bin : Text) : Except Text Unit :=
  if trim bin = [] then .error "--bin must not be empty or whitespace-only".toList
  else if byteLen bin > maxBinLen then
    .error ("--bin is too long (".toList ++ (decimal (byteLen bin) ++
      (" bytes); maximum is ".toList ++ decimal maxBinLen)))
  else if bin.any fun c =>
      isAsciiControl c || c == '\u0085' || c == '\u2028' || c == '\u2029' then
    .error "--bin contains an invalid control character".toList
  else if bin.any fun c => !decide (c.toNat < 0x80) || (c != ' ' && !isAsciiGraphic c) then
    .error "--bin must contain only printable ASCII characters".toList
  else .ok ()

/-- The name that is exported: that of the running binary where none is given. -/
def effectiveBin (currentExe bin : Option Text) : Text :=
  bin.getD (currentExe.getD "runex".toList)

/-- What is printed, and the exit code; `none` is a panic. A configuration that is named must load,
    and one that is found need not. -/
def handleExport (currentExe : Option Text) (configFlag : Bool)
    (loaded : Except ConfigError Config) (shell : Text) (bin : Option Text) : Option (Text × ℕ) :=
  let bin := effectiveBin currentExe bin
  match validateBin bin with
  | .error _ => some ([], 1)
  | .ok () =>
    match Shell.fromStr shell with
    | none => some ([], 1)
    | some s =>
      if configFlag && !loaded.isOk then some ([], 1)
      else
        let header := if s = .clink then [] else cacheHeader (commentPrefixFor s) bin
        (exportScript s bin loaded.toOption).map fun body => (header ++ body, 0)

variable {bin : Text} {c : Char}

-- ════════════════════════════════════════════════════════════════════════
-- What the check leaves
-- ════════════════════════════════════════════════════════════════════════

theorem printable_of_validateBin (h : validateBin bin = .ok ()) (hc : c ∈ bin) :
    0x20 ≤ c.toNat ∧ c.toNat < 0x7F := by
  rw [validateBin] at h
  split at h
  · cases h
  split at h
  · cases h
  split at h
  · cases h
  split at h
  · cases h
  · next hnone =>
    have hclean : (!decide (c.toNat < 0x80) || (c != ' ' && !isAsciiGraphic c)) = false :=
      Bool.eq_false_iff.mpr fun hbad => hnone (List.any_eq_true.mpr ⟨c, hc, hbad⟩)
    rw [Bool.or_eq_false_iff, Bool.and_eq_false_imp] at hclean
    by_cases hblank : c = ' '
    · subst hblank
      decide
    · have hgraphic : isAsciiGraphic c = true := by
        simpa using hclean.2 (bne_iff_ne.mpr hblank)
      rw [isAsciiGraphic, Bool.and_eq_true, decide_eq_true_eq, decide_eq_true_eq] at hgraphic
      omega

theorem isUnsafeForDisplay_of_validateBin (h : validateBin bin = .ok ()) (hc : c ∈ bin) :
    isUnsafeForDisplay c = false :=
  isUnsafeForDisplay_of_ascii (printable_of_validateBin h hc).1 (printable_of_validateBin h hc).2

theorem not_dropped_of_validateBin (h : validateBin bin = .ok ()) :
    ∀ c ∈ bin, droppedFromQuotes c = false := by
  intro c hc
  have hsafe := isUnsafeForDisplay_of_validateBin h hc
  rw [isUnsafeForDisplay, Bool.or_eq_false_iff] at hsafe
  exact hsafe.1

theorem without_eq_self {dropped : Char → Bool} (h : ∀ c ∈ bin, dropped c = false) :
    without dropped bin = bin :=
  List.filter_eq_self.mpr fun c hc => by rw [h c hc]; rfl

-- ════════════════════════════════════════════════════════════════════════
-- Who reads the name
-- ════════════════════════════════════════════════════════════════════════

/-- What each shell reads in the place of a name. In nu the command is a literal in a literal. -/
structure ReadAs (bin : Text) : Prop where
  bash : bashWord.scan .bare (bashQuoteString bin) = some (bin, [])
  pwsh : pwshSingle.scan .start (pwshQuoteString bin) = some (bin, [])
  lua : luaString.scan .start (luaQuoteString bin) = some (bin.flatMap String.utf8EncodeChar, [])
  nu : ∃ literal : Text,
    (∀ after, nuString.scan .inside (nuQuoteStringEmbedded bin ++ after) =
      (nuString.scan .inside after).map fun (read, rest) => ('^' :: literal ++ read, rest)) ∧
    nuString.scan .start literal = some (bin, [])

theorem readAs_of_validateBin (h : validateBin bin = .ok ()) : ReadAs bin where
  bash := by
    have hscan := scan_bashQuoteString bin (by simp : ∀ c ∈ ([] : Text).head?, _)
    rwa [List.append_nil, without_eq_self (not_dropped_of_validateBin h)] at hscan
  pwsh := by
    have hsmart : ∀ c ∈ bin, isSmartSingleQuote c = false := by
      intro c hc
      have hascii := (printable_of_validateBin h hc).2
      exact Bool.and_eq_false_imp.mpr fun hlo => absurd (of_decide_eq_true hlo) (by omega)
    have hscan := scan_pwshQuoteString hsmart (by simp : ∀ c ∈ ([] : Text).head?, _)
    rwa [List.append_nil, without_eq_self (not_dropped_of_validateBin h)] at hscan
  lua := by
    have hscan := scan_luaQuoteString bin []
    rwa [List.append_nil] at hscan
  nu := by
    refine ⟨nuInnerLiteral bin, fun after => ?_, ?_⟩
    · exact Scanner.scan_append (drive_nuQuoteStringEmbedded bin) after
    · have hkept : ∀ c ∈ bin, isNuDropChar c = false := by
        intro c hc
        rw [isNuDropChar, isUnsafeForDisplay_of_validateBin h hc, Bool.and_false]
      have hscan := scan_nuInnerLiteral bin []
      rwa [List.append_nil, without_eq_self hkept] at hscan

/-- A name that is refused is not exported. One that is exported is what every shell calls, and the
    doctor reads it in the header of the script exactly if no blank starts or ends it and it does
    not contain the label of the version. -/
theorem export_bin (currentExe : Option Text) (configFlag : Bool)
    (loaded : Except ConfigError Config) (shell : Text) (bin : Option Text) :
    (∀ message, validateBin (effectiveBin currentExe bin) = .error message →
      handleExport currentExe configFlag loaded shell bin = some ([], 1)) ∧
    ∀ output, handleExport currentExe configFlag loaded shell bin = some (output, 0) →
      ReadAs (effectiveBin currentExe bin) ∧
      (Shell.fromStr shell ≠ some .clink →
        ((scanCacheHeader output).version = some integrationCacheVersion ∧
            (scanCacheHeader output).bin = some (effectiveBin currentExe bin) ↔
          trim (effectiveBin currentExe bin) = effectiveBin currentExe bin ∧
            ¬ integrationCacheMarker <:+: effectiveBin currentExe bin)) := by
  generalize hbin : effectiveBin currentExe bin = name
  constructor
  · intro message hrefused
    rw [handleExport]
    dsimp only
    rw [hbin, hrefused]
  · intro output h
    rw [handleExport] at h
    dsimp only at h
    rw [hbin] at h
    cases hvalid : validateBin name with
    | error message =>
      rw [hvalid] at h
      cases h
    | ok _ =>
      rw [hvalid] at h
      cases hshell : Shell.fromStr shell with
      | none =>
        rw [hshell] at h
        cases h
      | some s =>
        rw [hshell] at h
        dsimp only at h
        split at h
        · cases h
        · obtain ⟨script, hscript, houtput⟩ := Option.map_eq_some_iff.mp h
          obtain ⟨rfl, -⟩ := Prod.mk.inj houtput
          refine ⟨readAs_of_validateBin hvalid, fun hclink => ?_⟩
          have hne : s ≠ .clink := fun heq => hclink (heq ▸ rfl)
          have hline : '\n' ∉ name := fun hmem =>
            absurd (printable_of_validateBin hvalid hmem).1 (by decide)
          obtain ⟨rest, rfl⟩ := exportScript_opening hscript
          rw [if_neg hne, commentPrefixFor_eq hne, scan_cacheContents_iff]
          exact and_iff_right hline

end Runex
