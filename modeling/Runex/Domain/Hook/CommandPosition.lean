import Runex.Domain.Hook

/-!
# Command position

A command name is expected at the start of the line, after a pipeline or list operator, and after a
`sudo` that is itself in command position. The program unrolls this recursion once.

## Main definitions

- `CommandPosition` — the recursive definition
- `SudoRun` — the same with the number of words `sudo` since the start or the operator

## Main results

- `isCommandPosition_iff_sudoRun` — the program counts one `sudo` at most
- `command_position_iff` — where it decides the recursive definition
- `command_position_sudo_sudo` — a line where it does not
-/

namespace Runex

open Search

/-- `|`, `||`, `&&` and `;`. -/
def pipelineOperators : List Text := [['|'], ['|', '|'], ['&', '&'], [';']]

/-- What is expected after the text is a command name. -/
inductive CommandPosition : Text → Prop where
  | start {pre : Text} (h : trimTrailingSpaces pre = []) : CommandPosition pre
  | operator {pre op : Text} (hop : op ∈ pipelineOperators) (h : op <:+ trimTrailingSpaces pre) :
      CommandPosition pre
  | afterSudo {pre q : Text} (h : trimTrailingSpaces pre = q ++ "sudo".toList)
      (hword : q = [] ∨ [' '] <:+ q) (hq : CommandPosition q) : CommandPosition pre

/-- The text is in command position after that many words `sudo` in a row. -/
inductive SudoRun : ℕ → Text → Prop where
  | start {pre : Text} (h : trimTrailingSpaces pre = []) : SudoRun 0 pre
  | operator {pre op : Text} (hop : op ∈ pipelineOperators) (h : op <:+ trimTrailingSpaces pre) :
      SudoRun 0 pre
  | afterSudo {n : ℕ} {pre q : Text} (h : trimTrailingSpaces pre = q ++ "sudo".toList)
      (hword : q = [] ∨ [' '] <:+ q) (hq : SudoRun n q) : SudoRun (n + 1) pre

theorem commandPosition_iff_sudoRun {pre : Text} : CommandPosition pre ↔ ∃ n, SudoRun n pre := by
  constructor
  · intro h
    induction h with
    | start h => exact ⟨0, .start h⟩
    | operator hop h => exact ⟨0, .operator hop h⟩
    | afterSudo h hword _ ih =>
      obtain ⟨n, hn⟩ := ih
      exact ⟨n + 1, .afterSudo h hword hn⟩
  · rintro ⟨n, h⟩
    induction h with
    | start h => exact .start h
    | operator hop h => exact .operator hop h
    | afterSudo h hword _ ih => exact .afterSudo h hword ih

/-- No operator ends like the word `sudo`. -/
theorem not_operator_suffix_sudo {op q : Text} (hop : op ∈ pipelineOperators) :
    ¬ op <:+ q ++ "sudo".toList := by
  rintro ⟨before, hbefore⟩
  have hlast := congrArg List.getLast? hbefore
  rw [List.getLast?_append, List.getLast?_append] at hlast
  have hword : "sudo".toList.getLast? = some 'o' := by decide
  rw [hword, Option.some_or] at hlast
  simp only [pipelineOperators, List.mem_cons, List.not_mem_nil, or_false] at hop
  rcases hop with rfl | rfl | rfl | rfl <;> exact absurd hlast (by simp)

theorem sudo_ne_nil (q : Text) : q ++ "sudo".toList ≠ [] := by simp

/-- The number of words is determined by the text. -/
theorem SudoRun.unique {m n : ℕ} {pre : Text} (h : SudoRun m pre) (h' : SudoRun n pre) : m = n := by
  induction h generalizing n with
  | start h =>
    cases h' with
    | start _ => rfl
    | operator _ _ => rfl
    | afterSudo hq _ _ => exact absurd (hq.symm.trans h) (sudo_ne_nil _)
  | operator hop h =>
    cases h' with
    | start _ => rfl
    | operator _ _ => rfl
    | afterSudo hq _ _ => exact absurd (hq ▸ h) (not_operator_suffix_sudo hop)
  | afterSudo h _ _ ih =>
    cases h' with
    | start h' => exact absurd (h.symm.trans h') (sudo_ne_nil _)
    | operator hop h' => exact absurd (h ▸ h') (not_operator_suffix_sudo hop)
    | afterSudo hq _ hrun =>
      obtain rfl := List.append_cancel_right (h.symm.trans hq)
      rw [ih hrun]

theorem endsWithPipelineOperator_iff {s : Text} :
    endsWithPipelineOperator s = true ↔ ∃ op ∈ pipelineOperators, op <:+ s := by
  simp only [endsWithPipelineOperator, pipelineOperators, Bool.or_eq_true, decide_eq_true_eq,
    List.mem_cons, List.not_mem_nil, or_false, exists_eq_or_imp, exists_eq_left]
  tauto

theorem stripTrailingSudo_eq_some {pre before : Text} :
    stripTrailingSudo pre = some before ↔
      pre = before ++ "sudo".toList ∧ (before = [] ∨ [' '] <:+ before) := by
  have hspace : ' ' ∉ "sudo".toList := by decide
  constructor
  · intro h
    unfold stripTrailingSudo at h
    split at h
    · next left word hsplit =>
      obtain ⟨rfl, -⟩ := splitLast_eq_some.mp hsplit
      split at h
      · next hword =>
        obtain rfl := Option.some.inj h
        refine ⟨?_, Or.inr (List.suffix_append left [' '])⟩
        rw [hword, List.append_assoc, List.singleton_append]
      · exact absurd h (by simp)
    · split at h
      · next hword =>
        obtain rfl := Option.some.inj h
        exact ⟨hword, Or.inl rfl⟩
      · exact absurd h (by simp)
  · rintro ⟨rfl, rfl | ⟨left, rfl⟩⟩
    · rw [stripTrailingSudo, List.nil_append, splitLast_eq_none.mpr hspace]
      simp
    · have hsplit : splitLast ' ' ((left ++ [' ']) ++ "sudo".toList) = some (left, "sudo".toList) :=
        splitLast_eq_some.mpr ⟨by rw [List.append_assoc, List.singleton_append], hspace⟩
      rw [stripTrailingSudo, hsplit]
      simp

theorem sudoRun_zero_iff {pre : Text} : SudoRun 0 pre ↔
    trimTrailingSpaces pre = [] ∨ endsWithPipelineOperator (trimTrailingSpaces pre) = true := by
  rw [endsWithPipelineOperator_iff]
  constructor
  · intro h
    cases h with
    | start h => exact Or.inl h
    | operator hop h => exact Or.inr ⟨_, hop, h⟩
  · rintro (h | ⟨op, hop, h⟩)
    · exact .start h
    · exact .operator hop h

/-- The program counts one `sudo` at most. -/
theorem isCommandPosition_iff_sudoRun {pre : Text} :
    isCommandPosition pre = true ↔ SudoRun 0 pre ∨ SudoRun 1 pre := by
  have hone : SudoRun 1 pre ↔ ∃ q, stripTrailingSudo (trimTrailingSpaces pre) = some q ∧
      SudoRun 0 q := by
    simp only [stripTrailingSudo_eq_some]
    constructor
    · intro h
      cases h with
      | afterSudo h hword hq => exact ⟨_, ⟨h, hword⟩, hq⟩
    · rintro ⟨q, ⟨h, hword⟩, hq⟩
      exact .afterSudo h hword hq
  rw [hone, sudoRun_zero_iff, isCommandPosition]
  by_cases hnil : trimTrailingSpaces pre = []
  · simp [hnil]
  · by_cases hop : endsWithPipelineOperator (trimTrailingSpaces pre) = true
    · simp [hnil, hop]
    · simp only [hnil, hop, if_false, false_or, Bool.false_eq_true]
      cases stripTrailingSudo (trimTrailingSpaces pre) with
      | none => simp
      | some q =>
        simp only [Option.some.injEq, exists_eq_left', sudoRun_zero_iff]
        by_cases hq : trimTrailingSpaces q = [] <;> simp [hq]

/-- **Where `is_command_position` decides its definition.** On a text it agrees with the recursive
    definition if and only if the text does not end in two or more words `sudo` in a row that run
    from the start of the line or from an operator. -/
theorem command_position_iff (pre : Text) :
    (isCommandPosition pre = true ↔ CommandPosition pre) ↔ ∀ n, SudoRun n pre → n ≤ 1 := by
  rw [isCommandPosition_iff_sudoRun, commandPosition_iff_sudoRun]
  constructor
  · rintro h n hn
    rcases h.mpr ⟨n, hn⟩ with hzero | hone
    · rw [hn.unique hzero]
      exact Nat.zero_le 1
    · rw [hn.unique hone]
  · intro h
    constructor
    · rintro (hzero | hone)
      · exact ⟨0, hzero⟩
      · exact ⟨1, hone⟩
    · rintro ⟨n, hn⟩
      rcases Nat.le_one_iff_eq_zero_or_eq_one.mp (h n hn) with rfl | rfl
      · exact Or.inl hn
      · exact Or.inr hn

/-- After `sudo sudo ` a command name is expected, and the program says that none is. -/
theorem command_position_sudo_sudo : ¬ ∀ pre, isCommandPosition pre = true ↔ CommandPosition pre := by
  intro h
  have hposition : CommandPosition "sudo sudo ".toList :=
    .afterSudo (q := "sudo ".toList) (by decide) (Or.inr ⟨"sudo".toList, by decide⟩)
      (.afterSudo (q := []) (by decide) (Or.inl rfl) (.start (by decide)))
  exact absurd ((h _).mpr hposition) (by decide)

end Runex
