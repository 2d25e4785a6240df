import Mathlib.Data.List.Infix

/-!
# Logs that are marked once

An entry is appended to a log unless a mark is seen in it. How often that happens depends on what is
seen: an entry that can be seen is the only one, and a log that hides its entries gets all of them.

## Main definitions

- `AppendOnce.appendUnless`, `AppendOnce.appendAll` — one entry, several in turn

## Main results

- `AppendOnce.appendAll_of_seen`, `AppendOnce.appendAll_of_first` — none, or one
- `AppendOnce.appendAll_of_hidden` — all of them
-/

namespace AppendOnce

variable {α : Type*} (seen : List α → Prop) [DecidablePred seen]

def appendUnless (log entry : List α) : List α :=
  if seen log then log else log ++ entry

/-- One entry after the other. -/
def appendAll (log : List α) (entries : List (List α)) : List α :=
  entries.foldl (appendUnless seen) log

variable {seen} {log entry : List α} {entries : List (List α)}

theorem appendAll_cons :
    appendAll seen log (entry :: entries) = appendAll seen (appendUnless seen log entry) entries :=
  rfl

/-- A marked log stays as it is. -/
theorem appendAll_of_seen (h : seen log) : appendAll seen log entries = log := by
  induction entries with
  | nil => rfl
  | cons entry entries ih => rw [appendAll_cons, appendUnless, if_pos h, ih]

/-- The first entry is the mark. -/
theorem appendAll_of_first (h : ¬ seen log) (hfirst : seen (log ++ entry)) :
    appendAll seen log (entry :: entries) = log ++ entry := by
  rw [appendAll_cons, appendUnless, if_neg h, appendAll_of_seen hfirst]

/-- A log in which no mark is seen, whatever is appended. -/
theorem appendAll_of_hidden {hidden : List α → Prop} (hhidden : ∀ log, hidden log → ¬ seen log)
    (hentries : ∀ log, hidden log → ∀ entry ∈ entries, hidden (log ++ entry)) (h : hidden log) :
    appendAll seen log entries = log ++ entries.flatten := by
  induction entries generalizing log with
  | nil => exact (List.append_nil log).symm
  | cons entry entries ih =>
    have hentry : hidden (log ++ entry) := hentries log h entry List.mem_cons_self
    rw [appendAll_cons, appendUnless, if_neg (hhidden log h),
      ih (fun log h other hother => hentries log h other (List.mem_cons_of_mem _ hother)) hentry,
      List.flatten_cons, List.append_assoc]

/-- The log that hides its entries from the first one on. -/
theorem appendAll_of_first_hidden {hidden : List α → Prop}
    (hhidden : ∀ log, hidden log → ¬ seen log)
    (hentries : ∀ log, hidden log → ∀ entry ∈ entries, hidden (log ++ entry)) (h : ¬ seen log)
    (hfirst : hidden (log ++ entry)) :
    appendAll seen log (entry :: entries) = log ++ (entry :: entries).flatten := by
  rw [appendAll_cons, appendUnless, if_neg h, appendAll_of_hidden hhidden hentries hfirst,
    List.flatten_cons, List.append_assoc]

end AppendOnce
