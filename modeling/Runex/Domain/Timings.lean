import Runex.Domain.Expand.Questions
import Mathlib.Algebra.BigOperators.Group.List.Basic

/-!
# Timed expansion

`expand_timed` runs the scan with a stopwatch around the whole and around every command it asks
about. A clock that never runs backward is read at each start and end.

## Main definitions

- `Clock`, `Clock.every` — the readings of a monotonic clock, in nanoseconds
- `Timings` — the recorded phases and calls
- `timedExists` — the closure of `expand_timed`
- `expandTimed` — the timed scan

## Main results

- `run_timedExists` — what the closure records over a whole run
- `expandTimed_spec` — the timed scan expands as the plain one and records what it asks
-/

namespace Runex

/-- The readings of a monotonic clock, one after the other. -/
structure Clock where
  reading : ℕ → ℕ
  monotone : ∀ n, reading n ≤ reading (n + 1)

/-- The clock that goes on by the same time from each reading to the next. -/
def Clock.every (step : ℕ) : Clock where
  reading n := step * n
  monotone n := Nat.mul_le_mul_left step n.le_succ

namespace Timings

/-- A recorded phase with its name and duration. -/
structure Phase where
  name : Text
  duration : ℕ

/-- A recorded `command_exists` call. -/
structure CommandExistsCall where
  command : Text
  found : Bool
  duration : ℕ
  /-- Answered too fast for a look into the file system. -/
  cached : Bool

end Timings

/-- The timing data of expand phases and `command_exists` calls. -/
structure Timings where
  phases : List Timings.Phase := []
  commandExistsCalls : List Timings.CommandExistsCall := []

namespace Timings

def recordPhase (timings : Timings) (name : Text) (duration : ℕ) : Timings :=
  { timings with phases := timings.phases ++ [⟨name, duration⟩] }

def recordCommandExists (timings : Timings) (command : Text) (found : Bool) (duration : ℕ)
    (cached : Bool) : Timings :=
  { timings with
    commandExistsCalls := timings.commandExistsCalls ++ [⟨command, found, duration, cached⟩] }

def totalDuration (timings : Timings) : ℕ := (timings.phases.map (·.duration)).sum

end Timings

open Timings (CommandExistsCall)

-- ════════════════════════════════════════════════════════════════════════
-- The closure
-- ════════════════════════════════════════════════════════════════════════

/-- What the closure of `expand_timed` carries: the memory of the function it wraps, the readings of
    the clock so far, and the calls. -/
structure Timed (σ : Type) where
  memory : σ
  readings : ℕ
  calls : List CommandExistsCall

variable {σ : Type}

/-- One call, between two readings of the clock. -/
def timedExists (clock : Clock) (commandExists : Text → σ → Bool × σ) (cmd : Text)
    (timed : Timed σ) : Bool × Timed σ :=
  let (found, memory) := commandExists cmd timed.memory
  let elapsed := clock.reading (timed.readings + 1) - clock.reading timed.readings
  (found,
    { memory
      readings := timed.readings + 2
      calls := timed.calls ++ [⟨cmd, found, elapsed, elapsed / 1000 < 100⟩] })

/-- `expand_timed`: the result, the memory and the readings afterwards, and the timings. -/
def expandTimed (engine : RegexLite) (config : Config) (token : Text) (shell : Shell)
    (clock : Clock) (commandExists : Text → σ → Bool × σ) (memory : σ) (readings : ℕ)
    (timings : Timings) : ExpandResult × σ × ℕ × Timings :=
  let timer := clock.reading readings
  let (result, timed) := (expandAsking engine config token shell).run
    (timedExists clock commandExists) ⟨memory, readings + 1, []⟩
  let timings := timings.recordPhase "expand".toList (clock.reading timed.readings - timer)
  (result, timed.memory, timed.readings + 1,
    timed.calls.foldl (fun timings call =>
      timings.recordCommandExists call.command call.found call.duration call.cached) timings)

/-- The record of a run: the questions in order, each with its answer, told apart by duration. -/
structure Records (answer : Text → Bool) (questions : List Text)
    (calls : List CommandExistsCall) : Prop where
  commands : calls.map (·.command) = questions
  found : ∀ call ∈ calls, call.found = answer call.command
  cached : ∀ call ∈ calls, call.cached = true ↔ call.duration < 100000

/-- The time spent in the calls. -/
def timeIn (calls : List CommandExistsCall) : ℕ := (calls.map (·.duration)).sum

variable {clock : Clock} {commandExists : Text → σ → Bool × σ} {answer : Text → Bool}
  {inv : σ → Prop}

namespace Records

theorem nil : Records answer [] [] := ⟨rfl, nofun, nofun⟩

theorem append {questions questions' : List Text} {calls calls' : List CommandExistsCall}
    (h : Records answer questions calls) (h' : Records answer questions' calls') :
    Records answer (questions ++ questions') (calls ++ calls') where
  commands := by rw [List.map_append, h.commands, h'.commands]
  found := List.forall_mem_append.mpr ⟨h.found, h'.found⟩
  cached := List.forall_mem_append.mpr ⟨h.cached, h'.cached⟩

end Records

theorem timeIn_append (calls calls' : List CommandExistsCall) :
    timeIn (calls ++ calls') = timeIn calls + timeIn calls' := by
  rw [timeIn, List.map_append, List.sum_append]
  rfl

/-- A run with the stopwatch is the run without it, and every question is recorded between two
    readings of its own. -/
theorem run_timedExists {α : Type} (clock : Clock) (h : Asking.Transparent answer commandExists inv)
    (prog : Asking Text Bool α) (timed : Timed σ) (hinv : inv timed.memory) :
    ∃ new, (prog.run (timedExists clock commandExists) timed).1 = prog.answered answer ∧
      inv (prog.run (timedExists clock commandExists) timed).2.memory ∧
      (prog.run (timedExists clock commandExists) timed).2.calls = timed.calls ++ new ∧
      Records answer (prog.asked answer) new ∧
      (prog.run (timedExists clock commandExists) timed).2.readings =
        timed.readings + 2 * new.length ∧
      clock.reading timed.readings + timeIn new ≤
        clock.reading (timed.readings + 2 * new.length) := by
  induction prog generalizing timed with
  | done a => exact ⟨[], rfl, hinv, (List.append_nil _).symm, Records.nil, rfl, le_rfl⟩
  | ask k next ih =>
    obtain ⟨hanswer, hkeep⟩ := h k timed.memory hinv
    have hfound : (timedExists clock commandExists k timed).1 = answer k := hanswer
    obtain ⟨new, hresult, hinv', hcalls, hrecords, hreadings, htime⟩ :=
      ih (answer k) (timedExists clock commandExists k timed).2 hkeep
    rw [Asking.run, hfound]
    have hstart := clock.monotone timed.readings
    have hend : clock.reading (timed.readings + 1) ≤ clock.reading (timed.readings + 2) :=
      clock.monotone (timed.readings + 1)
    let elapsed := clock.reading (timed.readings + 1) - clock.reading timed.readings
    let call : CommandExistsCall := ⟨k, answer k, elapsed, elapsed / 1000 < 100⟩
    have hnext : (timedExists clock commandExists k timed).2.readings = timed.readings + 2 := rfl
    rw [hnext] at hreadings htime
    have hlength : timed.readings + 2 * (call :: new).length =
        timed.readings + 2 + 2 * new.length := by
      rw [List.length_cons]
      omega
    refine ⟨call :: new, hresult, hinv', ?_, ?_, hreadings.trans hlength.symm, ?_⟩
    · rw [hcalls]
      show timed.calls ++ [⟨k, (commandExists k timed.memory).1, elapsed, _⟩] ++ new = _
      rw [hanswer, List.append_assoc]
      rfl
    · have hfirst : Records answer [k] [call] := by
        refine ⟨rfl, ?_, ?_⟩
        · simp [call]
        · simp only [List.mem_singleton, forall_eq, call, decide_eq_true_eq]
          omega
      exact hfirst.append hrecords
    · rw [hlength]
      show _ + (elapsed + timeIn new) ≤ _
      omega

-- ════════════════════════════════════════════════════════════════════════
-- The timed scan
-- ════════════════════════════════════════════════════════════════════════

theorem foldl_recordCommandExists (calls : List CommandExistsCall) (timings : Timings) :
    calls.foldl (fun timings call =>
        timings.recordCommandExists call.command call.found call.duration call.cached) timings =
      { timings with commandExistsCalls := timings.commandExistsCalls ++ calls } := by
  induction calls generalizing timings with
  | nil => rw [List.foldl_nil, List.append_nil]
  | cons call calls ih =>
    rw [List.foldl_cons, ih, Timings.recordCommandExists]
    simp

/-- The timed scan expands as the plain one, and adds a phase that covers the calls it records. The
    clock is read twice for the phase and twice for each call. -/
theorem expandTimed_spec (clock : Clock) (engine : RegexLite) (config : Config) (token : Text)
    (shell : Shell) (h : Asking.Transparent answer commandExists inv) {memory : σ} (hinv : inv memory)
    (readings : ℕ) (timings : Timings) :
    ∃ memory' duration calls,
      expandTimed engine config token shell clock commandExists memory readings timings =
        (expand engine config token shell answer, memory', readings + 2 + 2 * calls.length,
          { phases := timings.phases ++ [⟨"expand".toList, duration⟩]
            commandExistsCalls := timings.commandExistsCalls ++ calls }) ∧
      inv memory' ∧ Records answer (expandQuestions engine config token shell answer) calls ∧
      timeIn calls ≤ duration ∧
      clock.reading readings + duration ≤ clock.reading (readings + 1 + 2 * calls.length) := by
  obtain ⟨new, hresult, hinv', hcalls, hrecords, hreadings, htime⟩ := run_timedExists clock h
    (expandAsking engine config token shell) ⟨memory, readings + 1, []⟩ hinv
  rw [answered_expandAsking] at hresult
  rw [asked_expandAsking] at hrecords
  have hfirst := clock.monotone readings
  simp only at hreadings htime
  generalize hrun : (expandAsking engine config token shell).run
    (timedExists clock commandExists) ⟨memory, readings + 1, []⟩ = run at *
  refine ⟨run.2.memory, clock.reading (readings + 1 + 2 * new.length) - clock.reading readings, new,
    ?_, hinv', hrecords, by omega, by omega⟩
  rw [expandTimed, hrun]
  show (run.1, run.2.memory, run.2.readings + 1, run.2.calls.foldl _ _) = _
  rw [hresult, hcalls, hreadings, foldl_recordCommandExists]
  have hlast : readings + 1 + 2 * new.length + 1 = readings + 2 + 2 * new.length := by omega
  rw [hlast]
  simp [Timings.recordPhase]

end Runex
