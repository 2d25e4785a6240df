import Runex.App.ShellExport.Texts

/-!
# The first lines of a script

Every cached script starts with two comment lines in which nothing is inserted.

## Main definitions

- `openingLines` — the first two lines of a script

## Main results

- `exportScript_opening` — a script starts with them
-/

namespace Runex

open Placeholder Search

/-- The first two lines of the script of a shell. -/
def openingLines : Shell → String × String
  | .bash => ("# runex shell integration for bash",
    "# No-op when sourced by a non-interactive shell (`bash -c`, scripts, CI).")
  | .zsh => ("# runex shell integration for zsh",
    "# No-op when sourced by a non-interactive shell (`zsh -c`, scripts, CI).")
  | .pwsh => ("# runex shell integration for PowerShell", "#")
  | .nu => ("# runex shell integration for Nushell", "#")
  | .clink => ("-- runex shell integration for clink", "")

def openingText (shell : Shell) : Text :=
  (openingLines shell).1.toList ++ '\n' :: ((openingLines shell).2.toList ++ ['\n'])

theorem flatMap_fill_joinLines (first second next : String) (lines : List String)
    (rest : List Segment) :
    (Segment.text (joinLines (first :: second :: next :: lines)) :: rest).flatMap
        (Segment.fill token) =
      (first.toList ++ '\n' :: (second.toList ++ ['\n'])) ++
        (joinLines (next :: lines) ++ rest.flatMap (Segment.fill token)) := by
  rw [List.flatMap_cons, Segment.fill, joinLines_cons, joinLines_cons]
  simp

theorem template_opening (shell : Shell) :
    ∃ rest, (pieces shell).flatMap (Segment.fill token) = openingText shell ++ rest := by
  cases shell <;> exact ⟨_, flatMap_fill_joinLines ..⟩

/-- The names of the placeholders do not depend on what is inserted. -/
theorem exportSlots_map_fst {shell : Shell} {bin : Text} {config : Option Config}
    {slots : List (Text × Text)} (h : exportSlots shell bin config = some slots) :
    slots.map Prod.fst = placeholders := by
  simp only [exportSlots, Option.bind_eq_bind, Option.bind_eq_some_iff, Option.some.injEq] at h
  obtain ⟨_, -, _, -, _, -, _, -, _, -, rfl⟩ := h
  rfl

/-- A script starts with its two comment lines. -/
theorem exportScript_opening {shell : Shell} {bin script : Text} {config : Option Config}
    (h : exportScript shell bin config = some script) :
    ∃ rest, script = openingText shell ++ rest := by
  obtain ⟨slots, hslots, rfl⟩ := Option.map_eq_some_iff.mp h
  have hnames := exportSlots_map_fst hslots
  obtain ⟨rest, hrest⟩ := template_opening shell
  have hopen : '{' ∉ openingText shell := by cases shell <;> decide +kernel
  have hfree : Free (slots.map Prod.fst) (openingText shell) := fun name _ hwithin =>
    hopen (hwithin.subset (List.mem_cons_self ..))
  have hsealed : Sealed (openingText shell) := by
    intro c hc
    obtain rfl : '\n' = c := by simpa [openingText, List.getLast?_append, List.getLast?_cons] using hc
    rfl
  have hslotNames : ∀ slot ∈ slots, IsName slot.1 := fun slot hslot =>
    isName_placeholders _ (hnames ▸ List.mem_map_of_mem hslot)
  rw [template_eq, hrest, hfree.replaceEach_append hsealed hslotNames]
  exact ⟨_, rfl⟩

end Runex
